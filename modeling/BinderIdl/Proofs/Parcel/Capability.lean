import BinderIdl.Proofs.Parcel.Success

namespace BinderIdl

open Java BinderIdl.Types

namespace Types.Registry

open Parcel

variable {r : Registry} {d : Descriptor}

/-- The layouts that there are. The parts of a container are written as a whole,
or not at all. -/
inductive Shape (r : Registry) (d : Descriptor) : Layout → Prop
  | whole : Shape r d (.whole d)
  | elements {arguments : TypeArguments} {part : Handle}
      {element : Descriptor} : d.strategy = .generic arguments →
        arguments.handles = [part] → r.get? part = some element →
        Shape r d (.elements d fun _ => .whole element)
  | entries {arguments : TypeArguments} {first second : Handle}
      {key value : Descriptor} : d.strategy = .generic arguments →
        arguments.handles = [first, second] →
        r.get? first = some key → r.get? second = some value →
        Shape r d (.entries d (fun _ => .whole key) fun _ => .whole value)
  | shapeless : Shape r d (.shapeless d)

theorem WellFormed.shape (formed : r.WellFormed) {h : Handle}
    (known : r.get? h = some d) :
    Shape r d (r.layout d) := by
  by_cases generic : ∃ arguments, d.strategy = .generic arguments
  · obtain ⟨arguments, generic⟩ := generic
    obtain ⟨depth, size⟩ := exists_size_eq_succ known
    have layout : r.layout d = .ofArguments d (r.layoutTo (depth + 1))
        (arguments.handles.map r.get?) := by
      rw [Registry.layout, layoutTo, generic, size]
    have argument : ∀ part ∈ arguments.handles,
        ∃ e, r.get? part = some e ∧ r.layoutTo (depth + 1) e = .whole e := by
      intro part listed
      obtain ⟨e, denoted, plain⟩ := formed.argument_known known
        (argumentHandles_of_generic generic ▸ listed)
      exact ⟨e, denoted,
        layoutTo_eq_whole r depth (formed.not_generic denoted plain)⟩
    rw [layout]
    rcases handles : arguments.handles with
      _ | ⟨part, _ | ⟨second, _ | ⟨third, others⟩⟩⟩
    · exact .shapeless
    · obtain ⟨e, denoted, whole⟩ := argument part (by simp [handles])
      simp only [List.map_cons, List.map_nil, denoted,
        Layout.ofArguments, whole]
      exact .elements generic handles denoted
    · obtain ⟨key, keyKnown, keyWhole⟩ := argument part (by simp [handles])
      obtain ⟨value, valueKnown, valueWhole⟩ :=
        argument second (by simp [handles])
      simp only [List.map_cons, List.map_nil, keyKnown, valueKnown,
        Layout.ofArguments, keyWhole, valueWhole]
      exact .entries generic handles keyKnown valueKnown
    · simpa [Layout.ofArguments] using Shape.shapeless
  · rw [Registry.layout, layoutTo_eq_whole r r.size fun arguments same =>
      generic ⟨arguments, same⟩]
    exact .whole

end Types.Registry

namespace Parcel

variable {α β : Type}

namespace Emitter

/-- Some class-loader local makes the emitter succeed. -/
def Possible (e : Emitter α) : Prop := ∃ loader a, (e loader).outcome = .ok a

theorem Possible.of_bind {first : Emitter α} {next : α → Emitter β}
    (possible : (first >>= next).Possible) :
    first.Possible ∧ ∃ a, (next a).Possible := by
  obtain ⟨loader, b, done⟩ := possible
  obtain ⟨a, before, after⟩ := outcomes_of_bind done
  exact ⟨⟨loader, a, before⟩, a, _, b, after⟩

theorem Possible.of_nested {body : Emitter Unit}
    (possible : (nested body).Possible) : body.Possible := by
  obtain ⟨loader, code, done⟩ := possible
  obtain ⟨u, inner, _⟩ := map_eq_ok_iff.mp done
  exact ⟨loader, u, inner⟩

theorem not_possible_fail (error : MarshalError) :
    ¬ (fail error : Emitter α).Possible := by
  rintro ⟨loader, a, done⟩
  cases done

theorem exists_of_possible_ofCode {result : Except MarshalError Block}
    (possible : (ofCode result).Possible) : ∃ code, result = .ok code := by
  cases result with
  | error error => exact absurd possible (not_possible_fail error)
  | ok code => exact ⟨code, rfl⟩

/-- An emitter that succeeds wherever it may succeed at all. -/
theorem outcome_eq_ok_iff {e : Emitter Unit} {capable : Prop}
    (sound : e.Possible → capable) (complete : capable → e.Succeeds)
    (loader : Option Variable) :
    (e loader).outcome = .ok () ↔ capable := by
  constructor
  · exact fun done => sound ⟨loader, (), done⟩
  · exact fun able => (complete able loader).choose_spec

end Emitter

open Emitter Registry

variable {r : Registry} {d : Descriptor} {value parcel : Variable}
  {flags : WriteFlags}

theorem isWhole_of_writeWhole {code : Block}
    (written : writeWhole r d value parcel flags = .ok code) :
    d.strategy.isWhole := by
  by_contra none
  cases (writeWhole_of_not_isWhole none).symm.trans written

theorem isWhole_of_createWhole
    (possible : (createWhole r d value parcel).Possible) :
    d.strategy.isWhole := by
  by_contra none
  exact not_possible_fail _ (createWhole_of_not_isWhole none ▸ possible)

theorem isWhole_of_readWhole
    (possible : (readWhole r d value parcel).Possible) :
    d.strategy.isWhole := by
  have fillable : d.strategy.isFillable := by
    by_contra none
    exact not_possible_fail _ (readWhole_of_not_isFillable none ▸ possible)
  cases strategy :
    d.strategy <;> simp_all [Strategy.isFillable, Strategy.isWhole]

theorem carried_of_write (formed : r.WellFormed) {h : Handle}
    (known : r.get? h = some d) {code : Block}
    (written : write r d value parcel flags = .ok code) : r.Carried d := by
  have shape := formed.shape known
  unfold write at written
  generalize r.layout d = layout at shape written
  cases shape with
  | whole => exact .whole (isWhole_of_writeWhole written)
  | elements generic single denoted =>
      obtain ⟨_, body, _⟩ := bind_eq_ok_iff.mp written
      exact .elements generic single denoted (isWhole_of_writeWhole body)
  | entries generic pair keyKnown valueKnown =>
      obtain ⟨_, keyCode, rest⟩ := bind_eq_ok_iff.mp written
      obtain ⟨_, valueCode, _⟩ := bind_eq_ok_iff.mp rest
      exact .entries generic pair keyKnown (isWhole_of_writeWhole keyCode)
        valueKnown (isWhole_of_writeWhole valueCode)
  | shapeless => cases written

theorem isWhole_of_fillElement {element : Descriptor}
    (possible : (fillElement value element fun v =>
        createWhole r element v parcel).Possible) : element.strategy.isWhole :=
  isWhole_of_createWhole possible.of_bind.1

theorem isWhole_of_fillEntry {key val : Descriptor}
    (possible : (fillEntry value key val (fun v => createWhole r key v parcel)
      fun v => createWhole r val v parcel).Possible) :
    key.strategy.isWhole ∧ val.strategy.isWhole := by
  obtain ⟨first, _, rest⟩ := possible.of_bind
  exact ⟨isWhole_of_createWhole first, isWhole_of_createWhole rest.of_bind.1⟩

theorem possible_of_createContainer {fresh : Expr} {body : Emitter Unit}
    (possible : (createContainer value parcel fresh body).Possible) :
    body.Possible := by
  obtain ⟨_, _, rest⟩ := possible.of_bind
  exact rest.of_bind.1.of_nested

theorem possible_of_refillContainer {body : Emitter Unit}
    (possible : (refillContainer value parcel body).Possible) :
    body.Possible := by
  obtain ⟨_, _, rest⟩ := possible.of_bind
  exact rest.of_bind.1.of_nested

theorem carried_of_create (formed : r.WellFormed) {h : Handle}
    (known : r.get? h = some d)
    (possible : (create r d value parcel).Possible) : r.Carried d := by
  have shape := formed.shape known
  unfold create at possible
  generalize r.layout d = layout at shape possible
  cases shape with
  | whole => exact .whole (isWhole_of_createWhole possible)
  | elements generic single denoted =>
      obtain ⟨_, _, filled⟩ := possible.of_bind
      exact .elements generic single denoted
        (isWhole_of_fillElement (possible_of_createContainer filled))
  | entries generic pair keyKnown valueKnown =>
      obtain ⟨_, _, filled⟩ := possible.of_bind
      obtain ⟨keyWhole, valueWhole⟩ :=
        isWhole_of_fillEntry (possible_of_createContainer filled)
      exact .entries generic pair keyKnown keyWhole valueKnown valueWhole
  | shapeless => exact absurd possible (not_possible_fail _)

theorem carried_of_read (formed : r.WellFormed) {h : Handle}
    (known : r.get? h = some d) (possible : (read r d value parcel).Possible) :
    d.canBeOut ∧ r.Carried d := by
  have shape := formed.shape known
  unfold read at possible
  by_cases fit : d.canBeOut
  · refine ⟨fit, ?_⟩
    rw [if_pos fit] at possible
    generalize r.layout d = layout at shape possible
    cases shape with
    | whole => exact .whole (isWhole_of_readWhole possible)
    | elements generic single denoted =>
        obtain ⟨_, _, filled⟩ := possible.of_bind
        exact .elements generic single denoted
          (isWhole_of_fillElement (possible_of_refillContainer filled))
    | entries generic pair keyKnown valueKnown =>
        obtain ⟨_, _, filled⟩ := possible.of_bind
        obtain ⟨keyWhole, valueWhole⟩ :=
          isWhole_of_fillEntry (possible_of_refillContainer filled)
        exact .entries generic pair keyKnown keyWhole valueKnown valueWhole
    | shapeless => exact absurd possible (not_possible_fail _)
  · rw [if_neg fit] at possible
    exact absurd possible (not_possible_fail _)

theorem canBeArray_of_writeArray {code : Block}
    (written : writeArray r d value parcel flags = .ok code) :
    d.canBeArray := by
  by_contra none
  cases (writeArray_of_not_canBeArray none).symm.trans written

theorem canBeArray_of_createArray
    (possible : (createArray r d value parcel).Possible) : d.canBeArray := by
  by_contra none
  exact not_possible_fail _ (createArray_of_not_canBeArray none ▸ possible)

theorem canBeArray_of_readArray
    (possible : (readArray r d value parcel).Possible) : d.canBeArray := by
  by_contra none
  exact not_possible_fail _ (readArray_of_not_canBeArray none ▸ possible)

/-- Each operation has code for exactly the types whose
capabilities promise it. -/
theorem operations_succeed_iff_capable (reachable : r.Reachable) {h : Handle}
    (known : r.get? h = some d) (value parcel : Variable) (flags : WriteFlags)
    (loader : Option Variable) :
    let works (operation : Operation) : Prop :=
      (operation.emit r d value parcel flags loader).outcome = .ok ()
    (works .write ↔ r.Writable d) ∧
    (works .create ↔ works .write) ∧
    (works .read ↔ d.canBeOut ∧ works .write) ∧
    (works .writeArray ↔ d.canBeArray) ∧
    (works .createArray ↔ d.canBeArray) ∧
    (works .readArray ↔ d.canBeArray) := by
  have formed := reachable.wellFormed
  have written : (Operation.write.emit r d value parcel flags loader).outcome =
      .ok () ↔ r.Writable d := by
    refine outcome_eq_ok_iff (fun possible => ?_) (fun writable => ?_) loader
    · obtain ⟨code, done⟩ := exists_of_possible_ofCode possible
      exact formed.writable_of_carried known
        (carried_of_write formed known done)
    · obtain ⟨code, done⟩ := exists_write formed
        (formed.carried_of_writable known writable) value parcel flags
      exact succeeds_ofCode done
  have created : (Operation.create.emit r d value parcel flags loader).outcome =
      .ok () ↔ r.Writable d := by
    refine outcome_eq_ok_iff (fun possible => ?_) (fun writable => ?_) loader
    · exact formed.writable_of_carried known
        (carried_of_create formed known possible)
    · exact succeeds_create formed (formed.carried_of_writable known writable)
        value parcel
  have filled : (Operation.read.emit r d value parcel flags loader).outcome =
      .ok () ↔ d.canBeOut ∧ r.Writable d := by
    refine outcome_eq_ok_iff (fun possible => ?_) (fun able => ?_) loader
    · obtain ⟨fit, carried⟩ := carried_of_read formed known possible
      exact ⟨fit, formed.writable_of_carried known carried⟩
    · exact succeeds_read formed known (formed.carried_of_writable known able.2)
        able.1 value parcel
  refine ⟨written, created.trans written.symm, ?_, ?_, ?_, ?_⟩
  · exact filled.trans (and_congr_right fun _ => written.symm)
  · refine outcome_eq_ok_iff (fun possible => ?_) (fun array => ?_) loader
    · obtain ⟨code, done⟩ := exists_of_possible_ofCode possible
      exact canBeArray_of_writeArray done
    · obtain ⟨code, done⟩ := exists_writeArray formed array value parcel flags
      exact succeeds_ofCode done
  · exact outcome_eq_ok_iff canBeArray_of_createArray
      (fun array => succeeds_createArray formed array value parcel) loader
  · exact outcome_eq_ok_iff canBeArray_of_readArray
      (fun array => succeeds_readArray formed known array value parcel) loader

def mapToContexts : Descriptor :=
  .ofTemplate "java.util" "Map" .writeAndOut (.generic ⟨[.string, .context],
    "<java.lang.String,android.content.Context>",
    "java.util.HashMap<java.lang.String,android.content.Context>"⟩)

def listOfContexts : Descriptor :=
  .ofTemplate "java.util" "List" .writeAndOut (.genericList
    ⟨[.context], "<android.content.Context>",
      "java.util.ArrayList<android.content.Context>"⟩ .untyped)

/-- Maps can be written, but a map to contexts has no code, because contexts
cannot. A list of contexts is written as a whole. -/
theorem operations_succeed_iff_capable_contexts :
    let r : Registry :=
      { standard with types :=
        BuiltIn.types ++ [mapToContexts] ++ [listOfContexts] }
    r.Reachable ∧ mapToContexts.canWrite ∧
      ∀ value parcel flags loader,
        (Operation.create.emit r mapToContexts value parcel flags
          loader).outcome ≠ .ok () ∧
        (Operation.readArray.emit r listOfContexts value parcel flags
          loader).outcome = .ok () := by
  intro r
  have map : standard.resolve "Map<String,Context>" = .ok (⟨24⟩,
      { standard with types := BuiltIn.types ++ [mapToContexts] }) := by
    decide +kernel
  have list :
      ({ standard with types := BuiltIn.types ++ [mapToContexts] } :
        Registry).resolve "List<Context>" = .ok (⟨25⟩, r) := by
    decide +kernel
  have reachable : r.Reachable :=
    (reachable_standard.grows (Step.resolve map).grows).grows
      (Step.resolve list).grows
  refine ⟨reachable, by decide, fun value parcel flags loader => ⟨?_, ?_⟩⟩
  · obtain ⟨written, created, _⟩ := operations_succeed_iff_capable reachable
      (h := ⟨24⟩) (d := mapToContexts) rfl value parcel flags loader
    intro works
    obtain ⟨_, parts⟩ := written.mp (created.mp works)
    obtain ⟨context, known, writable⟩ := parts _ rfl .context (by simp)
    cases known
    exact absurd writable (by decide)
  · obtain ⟨_, _, _, _, _, filled⟩ := operations_succeed_iff_capable reachable
      (h := ⟨25⟩) (d := listOfContexts) rfl value parcel flags loader
    exact filled.mpr rfl

end Parcel

end BinderIdl
