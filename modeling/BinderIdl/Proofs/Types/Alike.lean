import BinderIdl.Proofs.Types.Instances

/-! Registries that know the same declared types, though under other handles and
with other instances already made. References mean the same in both: the same
declared type, or instances of the same template at the same types. -/

namespace BinderIdl

/-- Both results fail alike, or both are there and related. -/
inductive Matched {ε α β : Type} (R : α → β → Prop) :
    Except ε α → Except ε β → Prop where
  | error (error : ε) : Matched R (.error error) (.error error)
  | ok {a : α} {b : β} : R a b → Matched R (.ok a) (.ok b)

theorem Matched.imp {ε α β : Type} {R S : α → β → Prop} {x : Except ε α}
    {y : Except ε β} (matched : Matched R x y) (weaker : ∀ a b, R a b → S a b) :
    Matched S x y := by
  cases matched with
  | error error => exact .error error
  | ok related => exact .ok (weaker _ _ related)

theorem Matched.bind {ε α β γ δ : Type} {R : α → β → Prop} {S : γ → δ → Prop}
    {x : Except ε α} {y : Except ε β} {f : α → Except ε γ} {g : β → Except ε δ}
    (first : Matched R x y) (next : ∀ a b, R a b → Matched S (f a) (g b)) :
    Matched S (x >>= f) (y >>= g) := by
  cases first with
  | error error => exact .error error
  | ok related => exact next _ _ related

theorem Matched.mapM {ε α β γ δ : Type} {R : β → δ → Prop} {f : α → Except ε β}
    {g : γ → Except ε δ} {xs : List α} {ys : List γ}
    (each : List.Forall₂ (fun x y => Matched R (f x) (g y)) xs ys) :
    Matched (List.Forall₂ R) (xs.mapM f) (ys.mapM g) := by
  induction each with
  | nil => exact .ok .nil
  | cons here _ induction =>
      rw [List.mapM_cons, List.mapM_cons]
      exact here.bind fun _ _ first =>
        induction.bind fun _ _ rest => .ok (.cons first rest)

namespace Types

def Strategy.withHandles (handles : List Handle) : Strategy → Strategy
  | .generic arguments => .generic { arguments with handles }
  | .genericList arguments element =>
      .genericList { arguments with handles } element
  | other => other

namespace Descriptor

def withHandles (d : Descriptor) (handles : List Handle) : Descriptor :=
  { d with strategy := d.strategy.withHandles handles }

variable (d : Descriptor) (handles : List Handle)

theorem withHandles_eq_self {d : Descriptor}
    (none : d.strategy.arguments? = none) :
    d.withHandles handles = d := by
  obtain ⟨_, _, _, _, _, strategy⟩ := d
  cases strategy <;> first | rfl | cases none

@[simp] theorem package_withHandles :
    (d.withHandles handles).package = d.package := rfl

@[simp] theorem name_withHandles : (d.withHandles handles).name = d.name := rfl

@[simp] theorem kind_withHandles : (d.withHandles handles).kind = d.kind := rfl

@[simp] theorem site_withHandles : (d.withHandles handles).site = d.site := rfl

@[simp] theorem canWrite_withHandles :
    (d.withHandles handles).canWrite = d.canWrite := rfl

@[simp] theorem canBeOut_withHandles :
    (d.withHandles handles).canBeOut = d.canBeOut := rfl

@[simp] theorem argumentText_withHandles :
    (d.withHandles handles).argumentText = d.argumentText := by
  obtain ⟨_, _, _, _, _, strategy⟩ := d
  cases strategy <;> rfl

@[simp] theorem qualifiedName_withHandles :
    (d.withHandles handles).qualifiedName = d.qualifiedName := by
  simp [qualifiedName]

@[simp] theorem importType_withHandles :
    (d.withHandles handles).importType = d.importType := by
  obtain ⟨_, _, _, _, _, strategy⟩ := d
  cases strategy <;> rfl

@[simp] theorem instantiable_withHandles :
    (d.withHandles handles).instantiable = d.instantiable := by
  obtain ⟨_, _, _, _, _, strategy⟩ := d
  cases strategy <;> rfl

@[simp] theorem canBeArray_withHandles :
    (d.withHandles handles).canBeArray = d.canBeArray := by
  obtain ⟨_, _, _, _, _, strategy⟩ := d
  cases strategy <;> rfl

@[simp] theorem valueVariable_withHandles (name : String) :
    (d.withHandles handles).valueVariable name = d.valueVariable name := by
  simp [valueVariable]

@[simp] theorem variableFor_withHandles (array : Bool) (name : String) :
    (d.withHandles handles).variableFor array name =
      d.variableFor array name := by
  simp [variableFor, valueVariable, arrayVariable]

end Descriptor

theorem Template.apply_withHandles (t : Template) (handles others : List Handle)
    (arguments : List Descriptor) :
    (t.apply handles arguments).withHandles others =
      t.apply others arguments := by
  unfold Template.apply
  split <;> rfl

namespace Registry

/-- Registries as compilations have them: everything in them was made by an
operation, under proper names. -/
structure Settled (r : Registry) : Prop where
  formed : WellFormed r
  canonical : Canonical r

structure Alike (r s : Registry) : Prop where
  left : Settled r
  right : Settled s
  templates : r.templates = s.templates
  plain : ∀ d : Descriptor, d.kind ≠ .generic → (d ∈ r.types ↔ d ∈ s.types)

variable {r s grown final : Registry}

/-- Two registries that operations have made. -/
structure Peers (r s : Registry) : Prop where
  left : WellFormed r
  right : WellFormed s

theorem Alike.peers (alike : Alike r s) :
    Peers r s := ⟨alike.left.formed, alike.right.formed⟩

theorem Settled.alike (settled : Settled r) : Alike r r :=
  ⟨settled, settled, rfl, fun _ _ => Iff.rfl⟩

theorem Alike.symm (alike : Alike r s) : Alike s r :=
  ⟨alike.right, alike.left, alike.templates.symm,
    fun d plain => (alike.plain d plain).symm⟩

theorem Alike.trans {t : Registry} (first : Alike r s) (second : Alike s t) :
    Alike r t :=
  ⟨first.left, second.right, first.templates.trans second.templates,
    fun d plain => (first.plain d plain).trans (second.plain d plain)⟩

def SamePart (r s : Registry) (h k : Handle) : Prop :=
  ∃ d, r.get? h = some d ∧ s.get? k = some d ∧ d.kind ≠ .generic

/-- Types that differ at most in the handles of the same arguments. -/
structure Twin (r s : Registry) (d e : Descriptor) : Prop where
  same : e = d.withHandles e.argumentHandles
  parts : List.Forall₂ (SamePart r s) d.argumentHandles e.argumentHandles

def SameType (r s : Registry) (h k : Handle) : Prop :=
  ∃ d e, r.get? h = some d ∧ s.get? k = some e ∧ Twin r s d e

theorem exists_get?_of_mem {d : Descriptor} (listed : d ∈ r.types) :
    ∃ h, r.get? h = some d := by
  obtain ⟨index, bound, here⟩ := List.mem_iff_getElem.mp listed
  exact ⟨⟨index⟩, List.getElem?_eq_some_iff.mpr ⟨bound, here⟩⟩

theorem SamePart.sameType (formed : WellFormed r) {h k : Handle}
    (part : SamePart r s h k) :
    SameType r s h k := by
  obtain ⟨d, known, other, plain⟩ := part
  have none := formed.arguments?_eq_none known plain
  have parts : d.argumentHandles = [] := by
    simp [Descriptor.argumentHandles, none]
  exact ⟨d, d, known, other, (Descriptor.withHandles_eq_self _ none).symm,
    parts ▸ .nil⟩

theorem SamePart.mono (grew : r.types <+: grown.types)
    (other : s.types <+: final.types) {h k : Handle} (part : SamePart r s h k) :
    SamePart grown final h k := by
  obtain ⟨d, known, there, plain⟩ := part
  exact ⟨d, get?_eq_some_of_types_grow grew known,
    get?_eq_some_of_types_grow other there, plain⟩

theorem SameType.mono (grew : r.types <+: grown.types)
    (other : s.types <+: final.types) {h k : Handle} (same : SameType r s h k) :
    SameType grown final h k := by
  obtain ⟨d, e, known, there, twin⟩ := same
  exact ⟨d, e, get?_eq_some_of_types_grow grew known, get?_eq_some_of_types_grow
    other there, twin.same, twin.parts.imp fun _ _ => SamePart.mono grew other⟩

theorem isSome_find?_of_types_grow (grew : r.types <+: grown.types)
    {package name : String} (known : (r.find? package name).isSome) :
    (grown.find? package name).isSome := by
  rw [find?, Registry.findQualified?, Option.isSome_map] at known ⊢
  obtain ⟨entry, owned⟩ := Option.isSome_iff_exists.mp known
  rw [owner?_eq_some_of_types_grow grew owned]
  rfl

theorem Settled.plain_of_free (settled : Settled r) {h : Handle}
    {d : Descriptor} (known : r.get? h = some d)
    (free : '<' ∉ d.qualifiedName.toList) : d.kind ≠ .generic := by
  intro generic
  obtain ⟨t, _, _, arguments, _, _, rfl⟩ :=
    settled.canonical.ofTemplate known generic
  rw [Template.qualifiedName_apply] at free
  exact free (t.opening_mem_instanceName arguments)

theorem exists_findQualified?_of_mem
    (distinct : (s.types.map Descriptor.qualifiedName).Nodup) {d : Descriptor}
    (listed : d ∈ s.types) :
    ∃ k, s.findQualified? d.qualifiedName = some k ∧ s.get? k = some d := by
  obtain ⟨k, there⟩ := exists_get?_of_mem listed
  exact ⟨k, (findQualified?_eq_some_iff distinct).mpr ⟨d, there, rfl⟩, there⟩

/-- No two types have the same name, and what has a name without brackets is
no instance. -/
structure Legible (r : Registry) : Prop where
  distinct : (r.types.map Descriptor.qualifiedName).Nodup
  plain_of_free : ∀ {h : Handle} {d : Descriptor}, r.get? h = some d →
    '<' ∉ d.qualifiedName.toList → d.kind ≠ .generic

theorem Settled.legible (settled : Settled r) : Legible r :=
  ⟨settled.formed.distinct, settled.plain_of_free⟩

theorem Legible.findQualified? (left : Legible r) (right : Legible s)
    (same : ∀ d : Descriptor, d.kind ≠ .generic → (d ∈ r.types ↔ d ∈ s.types))
    {name : String} (free : '<' ∉ name.toList) :
    Option.Rel (SamePart r s) (r.findQualified? name)
      (s.findQualified? name) := by
  have across {u v : Registry} (mine : Legible u) (yours : Legible v)
      (kept : ∀ d : Descriptor, d.kind ≠ .generic → d ∈ u.types → d ∈ v.types)
      {h : Handle} (found : u.findQualified? name = some h) :
      ∃ k, v.findQualified? name = some k ∧ SamePart u v h k := by
    obtain ⟨d, known, rfl⟩ := get?_of_findQualified?_eq_some found
    have plain := mine.plain_of_free known free
    obtain ⟨k, there, denoted⟩ := exists_findQualified?_of_mem yours.distinct
      (kept d plain (mem_types_of_get?_eq_some known))
    exact ⟨k, there, d, known, denoted, plain⟩
  cases found : r.findQualified? name with
  | some h =>
      obtain ⟨k, there, part⟩ :=
        across left right (fun d plain => (same d plain).mp) found
      rw [there]
      exact .some part
  | none =>
      cases other : s.findQualified? name with
      | none => exact .none
      | some k =>
          obtain ⟨h, here, _⟩ :=
            across right left (fun d plain => (same d plain).mpr) other
          cases found.symm.trans here

theorem Alike.findQualified? (alike : Alike r s) {name : String}
    (free : '<' ∉ name.toList) :
    Option.Rel (SamePart r s) (r.findQualified? name) (s.findQualified? name) :=
  alike.left.legible.findQualified? alike.right.legible alike.plain free

theorem mem_named_iff {name : String} {entry : Handle × Descriptor} :
    entry ∈ r.named name ↔ r.get? entry.1 = some entry.2 ∧
      entry.2.kind ≠ .generic ∧ entry.2.name = name := by
  rw [named, List.mem_filter, ← mem_entries_iff]
  simp

theorem map_snd_entries (r : Registry) : r.entries.map Prod.snd = r.types := by
  simp [entries, Function.comp_def]

theorem nodup_named (distinct : (r.types.map Descriptor.qualifiedName).Nodup)
    (name : String) :
    ((r.named name).map Prod.snd).Nodup := by
  have all : (r.entries.map Prod.snd).Nodup :=
    r.map_snd_entries ▸ distinct.of_map
  exact all.sublist (List.filter_sublist.map _)

theorem mem_map_snd_named_iff {name : String} {d : Descriptor} :
    d ∈ (r.named name).map Prod.snd ↔
      d ∈ r.types ∧ d.kind ≠ .generic ∧ d.name = name := by
  constructor
  · intro listed
    obtain ⟨entry, member, rfl⟩ := List.mem_map.mp listed
    obtain ⟨known, plain, named⟩ := mem_named_iff.mp member
    exact ⟨mem_types_of_get?_eq_some known, plain, named⟩
  · rintro ⟨listed, plain, named⟩
    obtain ⟨h, known⟩ := exists_get?_of_mem listed
    exact List.mem_map.mpr ⟨(h, d),
      mem_named_iff.mpr ⟨known, plain, named⟩, rfl⟩

theorem Legible.named_perm (left : Legible r) (right : Legible s)
    (name : String)
    (same : ∀ d : Descriptor,
      d.kind ≠ .generic → d.name = name → (d ∈ r.types ↔ d ∈ s.types)) :
    ((r.named name).map Prod.snd).Perm ((s.named name).map Prod.snd) := by
  apply (List.perm_ext_iff_of_nodup (nodup_named left.distinct name)
    (nodup_named right.distinct name)).mpr
  intro d
  rw [mem_map_snd_named_iff, mem_map_snd_named_iff]
  exact and_congr_left fun is => same d is.1 is.2

theorem candidates_eq_of_perm {entries others : List (Handle × Descriptor)}
    (perm : (entries.map Prod.snd).Perm (others.map Prod.snd)) :
    candidates entries = candidates others := by
  have names := perm.map Descriptor.qualifiedName
  rw [List.map_map, List.map_map] at names
  have sorted (list : List (Handle × Descriptor)) :
      (candidates list).Pairwise fun a b => decide (a ≤ b) = true :=
    List.pairwise_mergeSort
      (fun a b c first second => by
        simp only [decide_eq_true_eq] at first second ⊢
        exact String.le_trans first second)
      (fun a b => by simpa using String.le_total a b) _
  refine List.Perm.eq_of_pairwise ?_ (sorted entries) (sorted others)
    ((List.mergeSort_perm _ _).trans
      (names.trans (List.mergeSort_perm _ _).symm))
  intro a b _ _ first second
  exact String.le_antisymm (of_decide_eq_true first) (of_decide_eq_true second)

theorem Legible.resolveName (left : Legible r) (right : Legible s)
    (plain : ∀ d : Descriptor, d.kind ≠ .generic → (d ∈ r.types ↔ d ∈ s.types))
    (name : String) (free : '<' ∉ name.toList) :
    Matched (SamePart r s) (r.resolveName name) (s.resolveName name) := by
  have qualified := left.findQualified? right plain free
  have perm := left.named_perm right name fun d other _ => plain d other
  have lengths := perm.length_eq
  have same := candidates_eq_of_perm perm
  have known : ∀ entry ∈ r.named name, _ := fun entry => mem_named_iff.mp
  have other : ∀ entry ∈ s.named name, _ := fun entry => mem_named_iff.mp
  unfold Registry.resolveName
  generalize r.findQualified? name = first,
    s.findQualified? name = second at qualified
  cases qualified with
  | some part => exact .ok part
  | none =>
      generalize r.named name = mine, s.named name = yours at *
      rw [List.length_map, List.length_map] at lengths
      rcases mine with _ | ⟨here, _ | ⟨next, rest⟩⟩
      · rw [List.eq_nil_of_length_eq_zero lengths.symm]
        exact .error _
      · obtain ⟨there, rfl⟩ := List.length_eq_one_iff.mp lengths.symm
        obtain ⟨denoted, plain, _⟩ := known here List.mem_cons_self
        obtain ⟨otherDenoted, _, _⟩ := other there List.mem_cons_self
        have one : here.2 = there.2 := by simpa using perm
        exact .ok ⟨here.2, denoted, one ▸ otherDenoted, plain⟩
      · obtain ⟨there, _ | ⟨after, others⟩, rfl⟩ :=
          List.exists_cons_of_length_eq_add_one lengths.symm
        · cases lengths
        · dsimp only
          rw [same]
          exact .error _

theorem Alike.resolveName (alike : Alike r s) (name : String)
    (free : '<' ∉ name.toList) :
    Matched (SamePart r s) (r.resolveName name) (s.resolveName name) :=
  alike.left.legible.resolveName alike.right.legible alike.plain name free

theorem arguments_of_sameParts {handles others : List Handle}
    (parts : List.Forall₂ (SamePart r s) handles others) :
    ∃ arguments,
      r.Arguments handles arguments ∧ s.Arguments others arguments := by
  induction parts with
  | nil => exact ⟨[], .nil, .nil⟩
  | cons part _ induction =>
      obtain ⟨d, known, there, plain⟩ := part
      obtain ⟨arguments, first, second⟩ := induction
      exact ⟨d :: arguments, .cons ⟨known, plain⟩ first,
        .cons ⟨there, plain⟩ second⟩

theorem mapM_argument_eq_ok {handles : List Handle}
    {arguments : List Descriptor} (known : r.Arguments handles arguments) :
    handles.mapM r.argument = .ok arguments :=
  mapM_eq_ok_iff.mpr (known.imp fun _ _ => argument_eq_ok_iff.mpr)

theorem sameType_apply {t : Template} {handles others : List Handle}
    {arguments : List Descriptor} {h k : Handle}
    (known : r.get? h = some (t.apply handles arguments))
    (there : s.get? k = some (t.apply others arguments))
    (parts : List.Forall₂ (SamePart r s) handles others) :
    SameType r s h k := by
  refine ⟨_, _, known, there, ?_, ?_⟩
  · rw [argumentHandles_apply, Template.apply_withHandles]
  · rw [argumentHandles_apply, argumentHandles_apply]
    exact parts

theorem mem_types_of_instantiate_eq_ok {t : Template} {handles : List Handle}
    {h : Handle} (made : r.instantiate t handles = .ok (h, grown))
    {d : Descriptor} (plain : d.kind ≠ .generic) :
    d ∈ grown.types ↔ d ∈ r.types := by
  obtain ⟨arguments, _, _, ⟨_, rfl⟩ | ⟨_, pushed⟩⟩ := instantiate_eq_ok made
  · rfl
  · obtain ⟨rfl, rfl⟩ := Prod.mk.inj pushed
    simp only [List.mem_append, List.mem_singleton]
    exact or_iff_left fun same => plain (same ▸ kind_apply t handles arguments)

theorem templates_of_instantiate_eq_ok {t : Template} {handles : List Handle}
    {h : Handle} (made : r.instantiate t handles = .ok (h, grown)) :
    grown.templates = r.templates := by
  obtain ⟨_, _, _, ⟨_, rfl⟩ | ⟨_, pushed⟩⟩ := instantiate_eq_ok made
  · rfl
  · obtain ⟨rfl, rfl⟩ := Prod.mk.inj pushed
    rfl

theorem Settled.instantiate (settled : Settled r) {t : Template}
    (member : t ∈ r.templates) {handles : List Handle} {h : Handle}
    (made : r.instantiate t handles = .ok (h, grown)) :
    Alike r grown where
  left := settled
  right :=
    ⟨settled.formed.instantiate made, settled.canonical.instantiate member made⟩
  templates := (templates_of_instantiate_eq_ok made).symm
  plain _ plain := (mem_types_of_instantiate_eq_ok made plain).symm

/-- What an operation that gives out a handle does to two alike registries. -/
def AlikeAfter (entry other : Handle × Registry) : Prop :=
  Alike entry.2 other.2 ∧ SameType entry.2 other.2 entry.1 other.1

theorem exists_instantiate {t : Template} {handles : List Handle}
    {arguments : List Descriptor} (arity : handles.length = t.arity)
    (known : r.Arguments handles arguments) :
    ∃ entry, r.instantiate t handles = .ok entry := by
  unfold Registry.instantiate
  rw [if_neg (not_not.mpr arity), mapM_argument_eq_ok known]
  dsimp only
  split <;> exact ⟨_, rfl⟩

/-- The instances of a template at the same arguments are the same, wherever
they are made. -/
theorem Settled.matched_instantiate (left : Settled r) (right : Settled s)
    {t : Template} (member : t ∈ r.templates) (otherMember : t ∈ s.templates)
    {handles others : List Handle}
    (parts : List.Forall₂ (SamePart r s) handles others) :
    Matched (fun entry other => Alike r entry.2 ∧ Alike s other.2 ∧
      SameType entry.2 other.2 entry.1 other.1) (r.instantiate t handles)
      (s.instantiate t others) := by
  obtain ⟨arguments, known, there⟩ := arguments_of_sameParts parts
  by_cases arity : handles.length = t.arity
  · obtain ⟨entry, made⟩ := exists_instantiate arity known
    obtain ⟨otherEntry, otherMade⟩ :=
      exists_instantiate (parts.length_eq ▸ arity) there
    have after := left.instantiate member made
    have otherAfter := right.instantiate otherMember otherMade
    obtain ⟨first, _, firstKnown, denoted⟩ :=
      left.canonical.get?_of_instantiate member made
    obtain ⟨second, _, secondKnown, otherDenoted⟩ :=
      right.canonical.get?_of_instantiate otherMember otherMade
    obtain rfl := arguments_unique firstKnown known
    obtain rfl := arguments_unique secondKnown there
    rw [made, otherMade]
    exact .ok ⟨after, otherAfter,
      sameType_apply denoted otherDenoted (parts.imp fun _ _ =>
        SamePart.mono (Step.instantiate made).types_grow
          (Step.instantiate otherMade).types_grow)⟩
  · unfold Registry.instantiate
    rw [if_pos arity, if_pos (parts.length_eq ▸ arity), parts.length_eq]
    exact .error _

theorem Alike.instantiate (alike : Alike r s) {t : Template}
    (member : t ∈ r.templates) {handles others : List Handle}
    (parts : List.Forall₂ (SamePart r s) handles others) :
    Matched AlikeAfter (r.instantiate t handles) (s.instantiate t others) :=
  (alike.left.matched_instantiate alike.right member (alike.templates ▸ member)
    parts).imp fun _ _ ⟨after, otherAfter, same⟩ =>
      ⟨after.symm.trans (alike.trans otherAfter), same⟩

theorem Alike.resolveTemplate (alike : Alike r s) (name : String) :
    r.resolveTemplate name = s.resolveTemplate name := by
  unfold Registry.resolveTemplate Registry.template?
  rw [alike.templates]

/-- Two registries agree on a reference if they agree on its names, have the
same template behind its base, and agree on instances of templates at arguments
that they agree on. -/
theorem matched_resolve {P : Handle → Handle → Prop}
    {R : Handle × Registry → Handle × Registry → Prop} {text : String}
    (names : ∀ name,
      '<' ∉ name.toList → Matched P (r.resolveName name) (s.resolveName name))
    (templates : ∀ base arguments,
      Reference.ofText text = .ok (.generic base arguments) →
      r.resolveTemplate base = s.resolveTemplate base)
    (plain : ∀ h k, P h k → R (h, r) (k, s))
    (instances : ∀ t ∈ r.templates, ∀ handles others,
      List.Forall₂ P handles others →
      Matched R (r.instantiate t handles) (s.instantiate t others)) :
    Matched R (r.resolve text) (s.resolve text) := by
  unfold Registry.resolve
  cases read : Reference.ofText text with
  | error error => exact .error error
  | ok reference =>
      cases reference with
      | plain name =>
          have named :=
            names name (Reference.opening_not_mem_of_split_eq_plain read)
          dsimp only
          generalize r.resolveName name = first,
            s.resolveName name = second at named
          cases named with
          | error error => exact .error error
          | ok part => exact .ok (plain _ _ part)
      | generic base arguments =>
          have named := Matched.mapM <| List.forall₂_same.mpr fun name listed =>
            names name
              (Reference.opening_not_mem_of_split_eq_generic read name listed)
          dsimp only [resolveGeneric]
          rw [← templates base arguments read]
          cases template : r.resolveTemplate base with
          | error error => exact .error error
          | ok t =>
              dsimp only
              generalize arguments.mapM r.resolveName = first,
                arguments.mapM s.resolveName = second at named
              cases named with
              | error error => exact .error error
              | ok parts =>
                  exact instances t (mem_of_resolveTemplate_eq_ok template).1
                    _ _ parts

/-- A reference means the same type in alike registries and leaves them alike,
or it fails for the same reason. -/
theorem Alike.resolve (alike : Alike r s) (text : String) :
    Matched AlikeAfter (r.resolve text) (s.resolve text) :=
  matched_resolve alike.resolveName (fun base _ _ => alike.resolveTemplate base)
    (fun _ _ part => ⟨alike, part.sameType alike.left.formed⟩)
    fun _ member _ _ parts => alike.instantiate member parts

/-- A relation between registries that references keep. If it is
one-sided, it only speaks of the references, and of the names, that the
first registry knows. -/
structure Simulation (Q : Registry → Registry → Prop) (oneSided : Prop) :
    Prop where
  formed : ∀ {r s : Registry}, Q r s → WellFormed r
  findQualified? : ∀ {r s : Registry} {name : String},
    Q r s → '<' ∉ name.toList → (oneSided → (r.findQualified? name).isSome) →
    Option.Rel (SamePart r s) (r.findQualified? name) (s.findQualified? name)
  resolve : ∀ {r s : Registry} {text : String},
    Q r s → (oneSided → ∃ entry, r.resolve text = .ok entry) → Matched
      (fun entry other => Q entry.2 other.2 ∧ SameType entry.2 other.2 entry.1
        other.1) (r.resolve text) (s.resolve text)

theorem simulation_alike : Simulation Alike False where
  formed alike := alike.left.formed
  findQualified? alike free _ := alike.findQualified? free
  resolve alike _ := alike.resolve _

/-- What any number of references make of a registry. -/
def Looks : Registry → Registry → Prop :=
  Relation.ReflTransGen fun r grown => ∃ text h, r.resolve text = .ok (h, grown)

theorem Settled.looks (settled : Settled r) (looks : Looks r grown) :
    Alike r grown := by
  induction looks with
  | refl => exact settled.alike
  | tail _ step induction =>
      obtain ⟨text, h, resolved⟩ := step
      rcases resolve_eq_ok resolved with ⟨rfl, _⟩ | ⟨t, member, handles, made⟩
      · exact induction
      · exact induction.trans (induction.right.instantiate member made)

end Registry

end Types

end BinderIdl
