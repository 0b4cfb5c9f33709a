import BinderIdl.Parcel.Layout
import BinderIdl.Proofs.Types.WellFormed

namespace BinderIdl.Types

open Parcel

/-- A value is one item on the wire, or a fixed number of them. -/
def Strategy.isWhole : Strategy → Bool
  | .void | .helper | .generic _ => false
  | _ => true

/-- There is code that fills an existing value. -/
def Strategy.isFillable : Strategy → Bool
  | .map | .list | .parcelable | .genericList _ _ => true
  | _ => false

/-- The types that have arrays, told apart by how the parcel carries these. -/
inductive Descriptor.ArrayStrategy (d : Descriptor) : Prop where
  | primitive (p : Primitive) : d.strategy = .primitive p → ArrayStrategy d
  | string : d.strategy = .string → ArrayStrategy d
  | binder : d.strategy = .binder .handle → ArrayStrategy d
  | record : d.strategy = .parcelable → ArrayStrategy d
  | list (arguments : TypeArguments) (element : ListElement) :
      d.strategy = .genericList arguments element → ArrayStrategy d

theorem Descriptor.strategy_of_canBeArray (d : Descriptor)
    (array : d.canBeArray) : d.ArrayStrategy := by
  unfold canBeArray at array
  cases strategy : d.strategy with
  | primitive p => exact .primitive p strategy
  | string => exact .string strategy
  | parcelable => exact .record strategy
  | genericList arguments element => exact .list arguments element strategy
  | binder kind =>
      cases kind with
      | handle => exact .binder strategy
      | _ => simp [strategy] at array
  | _ => simp [strategy] at array

theorem Descriptor.isWhole_of_canBeArray {d : Descriptor}
    (array : d.canBeArray) : d.strategy.isWhole := by
  cases d.strategy_of_canBeArray array with
  | primitive p strategy => rw [strategy]; rfl
  | string strategy => rw [strategy]; rfl
  | binder strategy => rw [strategy]; rfl
  | record strategy => rw [strategy]; rfl
  | list arguments element strategy => rw [strategy]; rfl

theorem Descriptor.ne_generic_of_isWhole {d : Descriptor}
    (whole : d.strategy.isWhole) (arguments : TypeArguments) :
    d.strategy ≠ .generic arguments := by
  intro generic
  simp [generic, Strategy.isWhole] at whole

namespace Registry

/-- The types that a parcel carries, told apart by the layout of
their values. -/
inductive Carried (r : Registry) : Descriptor → Prop where
  | whole {d : Descriptor} : d.strategy.isWhole → Carried r d
  | elements {d element : Descriptor} {arguments : TypeArguments}
      {part : Handle} : d.strategy = .generic arguments →
        arguments.handles = [part] →
        r.get? part = some element → element.strategy.isWhole → Carried r d
  | entries {d key value : Descriptor} {arguments : TypeArguments}
      {first second : Handle} : d.strategy = .generic arguments →
        arguments.handles = [first, second] →
        r.get? first = some key → key.strategy.isWhole →
        r.get? second = some value → value.strategy.isWhole → Carried r d

theorem layoutTo_of_isWhole (r : Registry) (depth : Nat) {d : Descriptor}
    (whole : d.strategy.isWhole) : r.layoutTo (depth + 1) d = .whole d :=
  layoutTo_eq_whole r depth (Descriptor.ne_generic_of_isWhole whole)

theorem layout_of_isWhole (r : Registry) {d : Descriptor}
    (whole : d.strategy.isWhole) :
    r.layout d = .whole d :=
  r.layoutTo_of_isWhole r.size whole

theorem exists_size_eq_succ {r : Registry} {h : Handle} {d : Descriptor}
    (known : r.get? h = some d) : ∃ depth, r.size = depth + 1 :=
  Nat.exists_eq_add_one_of_ne_zero
    (Nat.ne_of_gt (Nat.zero_lt_of_lt (index_lt_size_of_get?_eq_some known)))

theorem layout_of_elements {r : Registry} {d element : Descriptor}
    {arguments : TypeArguments} {part : Handle}
    (generic : d.strategy = .generic arguments)
    (single : arguments.handles = [part]) (known : r.get? part = some element)
    (whole : element.strategy.isWhole) :
    r.layout d = .elements d fun _ => .whole element := by
  obtain ⟨depth, size⟩ := exists_size_eq_succ known
  rw [layout, layoutTo, generic]
  simp [single, known, Layout.ofArguments, size,
    layoutTo_of_isWhole r depth whole]

theorem layout_of_entries {r : Registry} {d key value : Descriptor}
    {arguments : TypeArguments} {first second : Handle}
    (generic : d.strategy = .generic arguments)
    (pair : arguments.handles = [first, second])
    (keyKnown : r.get? first = some key) (keyWhole : key.strategy.isWhole)
    (valueKnown : r.get? second = some value)
    (valueWhole : value.strategy.isWhole) :
    r.layout d = .entries d (fun _ => .whole key) fun _ => .whole value := by
  obtain ⟨depth, size⟩ := exists_size_eq_succ keyKnown
  rw [layout, layoutTo, generic]
  simp [pair, keyKnown, valueKnown, Layout.ofArguments, size,
    layoutTo_of_isWhole r depth keyWhole,
    layoutTo_of_isWhole r depth valueWhole]

/-- An instance is a list, or a container that is written element by element. -/
theorem apply_cases (t : Template) {handles : List Handle}
    {arguments : List Descriptor} (arity : handles.length = t.arity)
    (counted : handles.length = arguments.length) :
    (∃ typeArguments element, (t.apply handles arguments).capabilities =
      .writeAndOut ∧ arguments = [element] ∧
      typeArguments.handles = handles ∧ (t.apply handles arguments).strategy =
        .genericList typeArguments (.ofType element)) ∨
    ∃ typeArguments, (t.apply handles arguments).capabilities = t.capabilities ∧
      typeArguments.handles = handles ∧
      (t.apply handles arguments).strategy = .generic typeArguments := by
  unfold Template.apply
  split
  · next element rest isList =>
      have single : t.arity = 1 := by
        simpa using (Bool.and_eq_true_iff.mp isList).2
      have noMore : rest = [] := by
        apply List.length_eq_zero_iff.mp
        simp only [List.length_cons] at counted
        omega
      subst noMore
      exact .inl ⟨_, element, rfl, rfl, rfl, rfl⟩
  · exact .inr ⟨_, rfl, rfl, rfl⟩

theorem Template.canWrite_iff {t : Template} :
    t.capabilities.canWrite ↔ t.arity = 1 ∨ t.arity = 2 := by
  unfold Template.capabilities
  split
  · next arity => simpa [Capabilities.canWrite_writeAndOut] using arity
  · next other => simpa [Capabilities.canWrite_none] using other

theorem Template.canBeOut_iff {t : Template} :
    t.capabilities.canBeOut ↔ t.arity = 1 ∨ t.arity = 2 := by
  unfold Template.capabilities
  split
  · next few => simpa [Capabilities.canBeOut_writeAndOut] using few
  · next other => simpa [Capabilities.canBeOut_none] using other

theorem argumentHandles_of_generic {d : Descriptor} {arguments : TypeArguments}
    (generic : d.strategy = .generic arguments) :
    d.argumentHandles = arguments.handles := by
  simp [Descriptor.argumentHandles, generic, Strategy.arguments?]

theorem WellFormed.not_generic {r : Registry} (formed : r.WellFormed)
    {h : Handle} {d : Descriptor} (known : r.get? h = some d)
    (plain : d.kind ≠ .generic) (arguments : TypeArguments) :
    d.strategy ≠ .generic arguments := by
  intro generic
  have none := formed.arguments?_eq_none known plain
  rw [generic] at none
  cases none

theorem WellFormed.canWrite_iff_isWhole {r : Registry} (formed : WellFormed r)
    {h : Handle} {d : Descriptor} (known : r.get? h = some d)
    (whole : ∀ arguments, d.strategy ≠ .generic arguments) :
    d.canWrite ↔ d.strategy.isWhole := by
  cases formed.origin known with
  | builtIn seeded =>
      have all : ∀ b ∈ BuiltIn.types, b.canWrite ↔ b.strategy.isWhole := by
        decide +kernel
      exact all d seeded
  | parcelable => exact iff_of_true Capabilities.canWrite_writeAndOut rfl
  | interface => exact iff_of_true Capabilities.canWrite_write rfl
  | @ofTemplate t handles types arity given earlier =>
      rcases apply_cases t arity given.length_eq with
        ⟨_, element, capable, _, _, list⟩ | ⟨typeArguments, _, _, generic⟩
      · rw [Descriptor.canWrite, capable, list]
        exact iff_of_true Capabilities.canWrite_writeAndOut rfl
      · exact absurd generic (whole typeArguments)

theorem WellFormed.of_generic {r : Registry} (formed : WellFormed r)
    {h : Handle} {d : Descriptor} (known : r.get? h = some d)
    {arguments : TypeArguments} (generic : d.strategy = .generic arguments) :
    ∃ t : Template,
      d.capabilities = t.capabilities ∧ arguments.handles.length = t.arity := by
  obtain ⟨t, handles, types, arity, given, _, rfl⟩ := formed.exists_apply known
    (formed.kind_eq_generic known (congrArg Strategy.arguments? generic))
  rcases apply_cases t arity given.length_eq with
    ⟨_, _, _, _, _, list⟩ | ⟨typeArguments, capable, same, other⟩
  · cases generic.symm.trans list
  · cases other.symm.trans generic
    exact ⟨t, capable, same ▸ arity⟩

/-- A container that is written element by element needs one or two
type arguments. -/
theorem WellFormed.canWrite_iff_of_generic {r : Registry}
    (formed : WellFormed r) {h : Handle} {d : Descriptor}
    (known : r.get? h = some d) {arguments : TypeArguments}
    (generic : d.strategy = .generic arguments) :
    d.canWrite ↔
      arguments.handles.length = 1 ∨ arguments.handles.length = 2 := by
  obtain ⟨t, capable, arity⟩ := formed.of_generic known generic
  rw [Descriptor.canWrite, capable, Template.canWrite_iff, arity]

theorem WellFormed.canBeOut_iff_of_generic {r : Registry}
    (formed : WellFormed r) {h : Handle} {d : Descriptor}
    (known : r.get? h = some d) {arguments : TypeArguments}
    (generic : d.strategy = .generic arguments) :
    d.canBeOut ↔
      arguments.handles.length = 1 ∨ arguments.handles.length = 2 := by
  obtain ⟨t, capable, arity⟩ := formed.of_generic known generic
  rw [Descriptor.canBeOut, capable, Template.canBeOut_iff, arity]

/-- The type can be written, and so can the type arguments of a container that
is written element by element. -/
def Writable (r : Registry) (d : Descriptor) : Prop :=
  d.canWrite ∧ ∀ arguments, d.strategy = .generic arguments →
    ∀ part ∈ arguments.handles, ∃ e, r.get? part = some e ∧ e.canWrite

theorem WellFormed.carried_of_writable {r : Registry} (formed : WellFormed r)
    {h : Handle} {d : Descriptor} (known : r.get? h = some d)
    (writable : r.Writable d) : Carried r d := by
  obtain ⟨capable, parts⟩ := writable
  by_cases generic : ∃ arguments, d.strategy = .generic arguments
  · obtain ⟨arguments, generic⟩ := generic
    have whole : ∀ part ∈ arguments.handles,
        ∃ e, r.get? part = some e ∧ e.strategy.isWhole := by
      intro part listed
      obtain ⟨e, denoted, plain⟩ := formed.argument_known known
        (argumentHandles_of_generic generic ▸ listed)
      obtain ⟨_, other, written⟩ := parts arguments generic part listed
      cases denoted.symm.trans other
      exact ⟨e, denoted, (formed.canWrite_iff_isWhole denoted
          (formed.not_generic denoted plain)).mp written⟩
    rcases (formed.canWrite_iff_of_generic known generic).mp capable with
      one | two
    · obtain ⟨part, single⟩ := List.length_eq_one_iff.mp one
      obtain ⟨element, denoted, elementWhole⟩ := whole part (by simp [single])
      exact .elements generic single denoted elementWhole
    · obtain ⟨first, second, pair⟩ := List.length_eq_two.mp two
      obtain ⟨key, keyKnown, keyWhole⟩ := whole first (by simp [pair])
      obtain ⟨value, valueKnown, valueWhole⟩ := whole second (by simp [pair])
      exact .entries generic pair keyKnown keyWhole valueKnown valueWhole
  · exact .whole ((formed.canWrite_iff_isWhole known fun arguments same =>
      generic ⟨arguments, same⟩).mp capable)

theorem WellFormed.writable_of_carried {r : Registry} (formed : WellFormed r)
    {h : Handle} {d : Descriptor} (known : r.get? h = some d)
    (carried : Carried r d) : r.Writable d := by
  have canWrite {part : Handle} {e : Descriptor}
      (denoted : r.get? part = some e) (whole : e.strategy.isWhole) :
      e.canWrite :=
    (formed.canWrite_iff_isWhole denoted fun arguments generic => by
      rw [generic] at whole
      cases whole).mpr whole
  cases carried with
  | whole whole =>
      refine ⟨canWrite known whole, fun arguments generic => ?_⟩
      rw [generic] at whole
      cases whole
  | @elements element arguments part generic single denoted whole =>
      refine ⟨(formed.canWrite_iff_of_generic known generic).mpr
        (.inl (by simp [single])), ?_⟩
      intro others same listed member
      cases generic.symm.trans same
      rw [single, List.mem_singleton] at member
      exact ⟨element, member ▸ denoted, canWrite denoted whole⟩
  | @entries key value arguments first second generic pair keyKnown keyWhole
      valueKnown valueWhole =>
      refine ⟨(formed.canWrite_iff_of_generic known generic).mpr
        (.inr (by simp [pair])), ?_⟩
      intro others same listed member
      cases generic.symm.trans same
      rw [pair, List.mem_pair] at member
      rcases member with rfl | rfl
      · exact ⟨key, keyKnown, canWrite keyKnown keyWhole⟩
      · exact ⟨value, valueKnown, canWrite valueKnown valueWhole⟩

theorem WellFormed.carried {r : Registry} (formed : WellFormed r) {h : Handle}
    {d : Descriptor} (known : r.get? h = some d) (writable : d.canWrite)
    (arguments : ∀ part ∈ d.argumentHandles, ∀ e,
      r.get? part = some e → e.canWrite) :
    Carried r d := by
  refine formed.carried_of_writable known ⟨writable,
    fun others generic part listed => ?_⟩
  rw [← argumentHandles_of_generic generic] at listed
  obtain ⟨e, denoted, _⟩ := formed.argument_known known listed
  exact ⟨e, denoted, arguments part listed e denoted⟩

theorem WellFormed.isFillable_of_canBeOut {r : Registry} (formed : WellFormed r)
    {h : Handle} {d : Descriptor} (known : r.get? h = some d)
    (whole : d.strategy.isWhole) (fit : d.canBeOut) :
    d.strategy.isFillable := by
  cases formed.origin known with
  | builtIn seeded =>
      have all : ∀ b ∈ BuiltIn.types, b.canBeOut → b.strategy.isFillable := by
        decide +kernel
      exact all d seeded fit
  | parcelable => rfl
  | interface =>
      simp [Descriptor.canBeOut, Descriptor.interface,
        Capabilities.canBeOut_write] at fit
  | @ofTemplate t handles types arity given earlier =>
      rcases apply_cases t arity given.length_eq with
        ⟨typeArguments, element, _, _, _, list⟩ | ⟨typeArguments, _, _, generic⟩
      · rw [list]
        rfl
      · rw [generic] at whole
        cases whole

/-- Lists are instances of a template, and their element tells how they
are marshalled. -/
theorem WellFormed.of_genericList {r : Registry} (formed : WellFormed r)
    {h : Handle} {d : Descriptor} (known : r.get? h = some d)
    {arguments : TypeArguments} {element : ListElement}
    (list : d.strategy = .genericList arguments element) :
    d.capabilities = .writeAndOut ∧ ∃ e, element = .ofType e := by
  obtain ⟨t, handles, types, arity, given, _, rfl⟩ := formed.exists_apply known
    (formed.kind_eq_generic known (congrArg Strategy.arguments? list))
  rcases apply_cases t arity given.length_eq with
    ⟨_, e, capable, _, _, ofElement⟩ | ⟨_, _, _, generic⟩
  · rw [ofElement] at list
    exact ⟨capable, e, (Strategy.genericList.inj list).2.symm⟩
  · rw [generic] at list
    cases list

theorem WellFormed.canBeOut_of_genericList {r : Registry}
    (formed : WellFormed r) {h : Handle} {d : Descriptor}
    (known : r.get? h = some d) {arguments : TypeArguments}
    {element : ListElement}
    (list : d.strategy = .genericList arguments element) : d.canBeOut := by
  rw [Descriptor.canBeOut, (formed.of_genericList known list).1]
  exact Capabilities.canBeOut_writeAndOut

theorem WellFormed.creator_eq {r : Registry} (formed : WellFormed r)
    {h : Handle} {d : Descriptor} (known : r.get? h = some d)
    {arguments : TypeArguments} {creator : String}
    (list : d.strategy = .genericList arguments (.typed creator)) :
    ∃ name, creator = name ++ ".CREATOR" := by
  obtain ⟨_, element, typed⟩ := formed.of_genericList known list
  unfold ListElement.ofType at typed
  split at typed <;> first | cases typed; exact ⟨_, rfl⟩ | cases typed

end Registry

end BinderIdl.Types
