import BinderIdl.Proofs.Types.Alike

namespace BinderIdl.Types.Registry

open Source

variable {r s : Registry}

/-- Both handles are known, and their types have the same name. -/
def SameName (entry other : Handle × Registry) : Prop :=
  ∃ d e, entry.2.get? entry.1 = some d ∧ other.2.get? other.1 = some e ∧
    d.qualifiedName = e.qualifiedName

theorem SamePart.sameName {h k : Handle} (part : SamePart r s h k) :
    SameName (h, r) (k, s) := by
  obtain ⟨d, known, there, _⟩ := part
  exact ⟨d, d, known, there, rfl⟩

theorem qualifiedName_of_instantiate_eq_ok {t : Template}
    {handles : List Handle} {entry : Handle × Registry}
    (made : r.instantiate t handles = .ok entry) :
    ∃ arguments, r.Arguments handles arguments ∧ ∃ d, entry.2.get? entry.1 =
      some d ∧ d.qualifiedName = t.instanceName arguments := by
  obtain ⟨arguments, _, known, ⟨found, grown⟩ | ⟨_, pushed⟩⟩ :=
    instantiate_eq_ok made
  · obtain ⟨d, denoted, named⟩ := get?_of_findQualified?_eq_some found
    exact ⟨arguments, known, d, grown ▸ denoted, named⟩
  · refine ⟨arguments, known, t.apply handles arguments, ?_,
      t.qualifiedName_apply _ _⟩
    have made : entry = r.push (t.apply handles arguments) := pushed
    exact made ▸ r.get?_push _

theorem matched_instantiate (t : Template) {handles others : List Handle}
    (parts : List.Forall₂ (SamePart r s) handles others) :
    Matched SameName (r.instantiate t handles) (s.instantiate t others) := by
  obtain ⟨arguments, known, there⟩ := arguments_of_sameParts parts
  by_cases arity : handles.length = t.arity
  · obtain ⟨entry, made⟩ := exists_instantiate arity known
    obtain ⟨other, otherMade⟩ :=
      exists_instantiate (parts.length_eq ▸ arity) there
    obtain ⟨first, firstKnown, d, denoted, named⟩ :=
      qualifiedName_of_instantiate_eq_ok made
    obtain ⟨second, secondKnown, e, otherDenoted, otherNamed⟩ :=
      qualifiedName_of_instantiate_eq_ok otherMade
    obtain rfl := arguments_unique firstKnown known
    obtain rfl := arguments_unique secondKnown there
    rw [made, otherMade]
    exact .ok ⟨d, e, denoted, otherDenoted, named.trans otherNamed.symm⟩
  · unfold Registry.instantiate
    rw [if_pos arity, if_pos (parts.length_eq ▸ arity), parts.length_eq]
    exact .error _

theorem Legible.resolve (left : Legible r) (right : Legible s)
    (plain : ∀ d : Descriptor, d.kind ≠ .generic → (d ∈ r.types ↔ d ∈ s.types))
    {text : String}
    (template : ∀ base arguments,
      Reference.ofText text = .ok (.generic base arguments) →
      r.resolveTemplate base = s.resolveTemplate base) :
    Matched SameName (r.resolve text) (s.resolve text) :=
  matched_resolve (left.resolveName right plain) template
    (fun _ _ part => part.sameName) fun t _ _ _ parts =>
      matched_instantiate t parts

theorem resolve_of_resolveTemplate_eq_error {text base : String}
    {arguments : List String}
    (read : Reference.ofText text = .ok (.generic base arguments))
    {error : LookupError} (failed : r.resolveTemplate base = .error error) :
    r.resolve text = .error error := by
  simp [Registry.resolve, resolveGeneric, read, failed]

/-- The templates of a simple name by their full names, in the order of
registration. -/
def homonyms (r : Registry) (name : String) : List String :=
  (r.templates.filter fun t => t.name == name).map Template.qualifiedName

/-- The simple name of several templates, which is no full name, and which two
registries list in different orders. -/
def Divided (r s : Registry) (name : String) : Prop :=
  name ∉ r.templates.map Template.qualifiedName ∧
    r.homonyms name ≠ s.homonyms name

theorem homonyms_perm (perm : r.templates.Perm s.templates) (name : String) :
    (r.homonyms name).Perm (s.homonyms name) :=
  (perm.filter _).map _

theorem template?_eq_of_perm (perm : r.templates.Perm s.templates)
    (distinct : (r.templates.map Template.qualifiedName).Nodup)
    (name : String) :
    r.template? name = s.template? name := by
  have others : (s.templates.map Template.qualifiedName).Nodup :=
    (perm.map _).nodup_iff.mp distinct
  ext t
  rw [template?_eq_some_iff distinct, template?_eq_some_iff others,
    perm.mem_iff]

/-- Without a full name, the templates of the simple name decide. -/
theorem resolveTemplate_eq_of_perm (perm : r.templates.Perm s.templates)
    (distinct : (r.templates.map Template.qualifiedName).Nodup) {name : String}
    (clear : ¬ Divided r s name) :
    r.resolveTemplate name = s.resolveTemplate name := by
  unfold Registry.resolveTemplate
  rw [← template?_eq_of_perm perm distinct]
  cases found : r.template? name with
  | some t => rfl
  | none =>
      have same : r.homonyms name = s.homonyms name := by
        by_contra different
        exact clear ⟨template?_eq_none_iff.mp found, different⟩
      have short := perm.filter fun t => t.name == name
      unfold homonyms at same
      generalize (r.templates.filter fun t => t.name == name) = mine,
        (s.templates.filter fun t => t.name == name) = yours at same short
      rcases mine with _ | ⟨t, _ | ⟨u, rest⟩⟩
      · rw [short.nil_eq]
      · rw [List.perm_singleton.mp short.symm]
      · obtain ⟨first, _ | ⟨second, others⟩, rfl⟩ :=
          List.exists_cons_of_length_eq_add_one short.length_eq.symm
        · cases short.length_eq
        · dsimp only
          rw [same]

theorem resolveTemplate_of_divided (perm : r.templates.Perm s.templates)
    {name : String} (divided : Divided r s name) :
    r.resolveTemplate name = .error (.ambiguous name (r.homonyms name)) := by
  have short := perm.filter fun t => t.name == name
  have different := divided.2
  unfold Registry.resolveTemplate
  rw [template?_eq_none_iff.mpr divided.1]
  unfold homonyms at different ⊢
  generalize (r.templates.filter fun t => t.name == name) = mine,
    (s.templates.filter fun t => t.name == name) = yours at different short
  -- Fewer than two templates have only one order.
  rcases mine with _ | ⟨t, _ | ⟨u, rest⟩⟩
  · exact absurd (congrArg _ short.nil_eq) different
  · exact absurd (congrArg _ (List.perm_singleton.mp short.symm).symm) different
  · rfl

theorem Divided.symm (perm : r.templates.Perm s.templates) {name : String}
    (divided : Divided r s name) : Divided s r name :=
  ⟨fun listed => divided.1 ((perm.map _).mem_iff.mpr listed), divided.2.symm⟩

inductive Registration where
  | parcelable (package name : String) (site : Site)
  | interface (package name : String) (oneway : Bool) (site : Site)
  | template (t : Template)
deriving DecidableEq

namespace Registration

def operation : Registration → Operation
  | parcelable package name site => .declareParcelable package name site
  | interface package name oneway site =>
      .declareInterface package name oneway site
  | template t => .registerTemplate t

def type? : Registration → Option Descriptor
  | parcelable package name site => some (.parcelable package name site)
  | interface package name oneway site =>
      some (.interface package name oneway site)
  | template _ => none

def template? : Registration → Option Template
  | template t => some t
  | _ => none

end Registration

/-- The registry with the given types and templates added to the
built-in ones. -/
def withRegistrations (registrations : List Registration) : Registry where
  types := BuiltIn.types ++ registrations.filterMap Registration.type?
  templates :=
    BuiltIn.templates ++ registrations.filterMap Registration.template?

/-- Types have different names, and so do templates, the built-in
ones included. -/
structure Distinct (registrations : List Registration) : Prop where
  types :
    ((withRegistrations registrations).types.map Descriptor.qualifiedName).Nodup
  templates :
    ((withRegistrations registrations).templates.map
      Template.qualifiedName).Nodup

theorem register_of_not_mem {d : Descriptor}
    (free : d.qualifiedName ∉ r.types.map Descriptor.qualifiedName) :
    r.register d = .ok (r.push d) := by
  rw [register, owner?_eq_none_iff.mpr free]

theorem perform_registration (registration : Registration)
    (types : ∀ d ∈ registration.type?,
      d.qualifiedName ∉ r.types.map Descriptor.qualifiedName)
    (templates : ∀ t ∈ registration.template?,
      t.qualifiedName ∉ r.templates.map Template.qualifiedName) :
    (r.perform registration.operation).2 =
      ⟨r.types ++ registration.type?.toList,
        r.templates ++ registration.template?.toList⟩ := by
  cases registration with
  | parcelable package name site =>
      have made := register_of_not_mem (types _ rfl)
      simp [Registration.operation, perform, declareParcelable, made,
        Answer.ofResult, push, Registration.type?, Registration.template?]
  | interface package name oneway site =>
      have made := register_of_not_mem (types _ rfl)
      simp [Registration.operation, perform, declareInterface, made,
        Answer.ofResult, push, Registration.type?, Registration.template?]
  | template t =>
      have free := template?_eq_none_iff.mpr (templates t rfl)
      simp [Registration.operation, perform, registerTemplate, free,
        Answer.ofTemplate, Registration.type?, Registration.template?]

theorem filterMap_cons_toList {α β : Type} (f : α → Option β) (x : α)
    (xs : List α) :
    (x :: xs).filterMap f = (f x).toList ++ xs.filterMap f := by
  cases here : f x <;> simp [here]

theorem not_mem_of_nodup_toList {α : Type} {key : α → String}
    {before after : List α} {added : Option α}
    (distinct : ((before ++ added.toList ++ after).map key).Nodup) :
    ∀ x ∈ added, key x ∉ before.map key := by
  rintro x rfl listed
  rw [List.map_append, List.map_append] at distinct
  have apart := (List.nodup_append.mp (List.nodup_append.mp distinct).1).2.2
  exact apart _ listed _ (by simp) rfl

theorem run_registrations (registrations : List Registration)
    (types : ((r.types ++ registrations.filterMap Registration.type?).map
        Descriptor.qualifiedName).Nodup)
    (templates :
      ((r.templates ++ registrations.filterMap Registration.template?).map
        Template.qualifiedName).Nodup) :
    r.run (registrations.map Registration.operation) =
      ⟨r.types ++ registrations.filterMap Registration.type?,
        r.templates ++ registrations.filterMap Registration.template?⟩ := by
  induction registrations generalizing r with
  | nil => simp [run]
  | cons registration rest induction =>
      rw [filterMap_cons_toList, ← List.append_assoc] at types templates
      have step := perform_registration registration
        (not_mem_of_nodup_toList types) (not_mem_of_nodup_toList templates)
      have later := induction (r := (r.perform registration.operation).2)
        (by rwa [step]) (by rwa [step])
      rw [List.map_cons, filterMap_cons_toList, filterMap_cons_toList,
        ← List.append_assoc, ← List.append_assoc]
      rw [step] at later
      rw [← later, ← step]
      rfl

variable {first second : List Registration}

theorem Distinct.run (distinct : Distinct first) :
    standard.run (first.map Registration.operation) = withRegistrations first :=
  run_registrations first distinct.types distinct.templates

theorem types_perm (perm : first.Perm second) :
    (withRegistrations first).types.Perm (withRegistrations second).types :=
  (perm.filterMap _).append_left _

theorem templates_perm (perm : first.Perm second) :
    (withRegistrations first).templates.Perm
      (withRegistrations second).templates :=
  (perm.filterMap _).append_left _

theorem Distinct.of_perm (distinct : Distinct first)
    (perm : first.Perm second) :
    Distinct second where
  types := ((types_perm perm).map _).nodup_iff.mp distinct.types
  templates := ((templates_perm perm).map _).nodup_iff.mp distinct.templates

theorem Distinct.legible (distinct : Distinct first) :
    Legible (withRegistrations first) where
  distinct := distinct.types
  plain_of_free := by
    intro h d known _
    rcases List.mem_append.mp (mem_types_of_get?_eq_some known) with
      builtIn | added
    · exact kind_ne_generic_of_mem_types d builtIn
    · obtain ⟨registration, _, declared⟩ := List.mem_filterMap.mp added
      cases registration <;> cases declared <;> nofun

/-- Types and templates of different names, registered in two orders. References
mean types of the same name or fail alike, and templates are found alike, unless
several templates of one simple name come in different orders: then that name is
ambiguous in both, but the candidates come in the order of registration. -/
theorem lookups_after_reordering (distinct : Distinct first)
    (perm : first.Perm second) :
    let r := standard.run (first.map Registration.operation)
    let s := standard.run (second.map Registration.operation)
    r = withRegistrations first ∧ s = withRegistrations second ∧
    (∀ name,
      ¬ Divided r s name → r.resolveTemplate name = s.resolveTemplate name) ∧
    (∀ name, Divided r s name →
      r.resolveTemplate name = .error (.ambiguous name (r.homonyms name)) ∧
      s.resolveTemplate name = .error (.ambiguous name (s.homonyms name)) ∧
      (r.homonyms name).Perm (s.homonyms name)) ∧
    (∀ text,
      (∀ base arguments, Reference.ofText text = .ok (.generic base arguments) →
        ¬ Divided r s base) →
      Matched SameName (r.resolve text) (s.resolve text)) ∧
    (∀ text base arguments,
      Reference.ofText text = .ok (.generic base arguments) → Divided r s base →
      r.resolve text = .error (.ambiguous base (r.homonyms base)) ∧
      s.resolve text = .error (.ambiguous base (s.homonyms base))) := by
  have others := distinct.of_perm perm
  have templates := templates_perm perm
  dsimp only
  rw [distinct.run, others.run]
  have clear : ∀ name,
      ¬ Divided (withRegistrations first) (withRegistrations second) name → _ :=
    fun name => resolveTemplate_eq_of_perm templates distinct.templates
  have shuffled : ∀ name,
      Divided (withRegistrations first) (withRegistrations second) name → _ :=
    fun name divided => And.intro (resolveTemplate_of_divided templates divided)
      (resolveTemplate_of_divided templates.symm (divided.symm templates))
  refine ⟨rfl, rfl, clear, ?_, ?_, ?_⟩
  · intro name divided
    exact ⟨(shuffled name divided).1, (shuffled name divided).2,
      homonyms_perm templates name⟩
  · intro text undivided
    refine distinct.legible.resolve others.legible
      (fun d _ => (types_perm perm).mem_iff) ?_
    exact fun base arguments read => clear base (undivided base arguments read)
  · intro text base arguments read divided
    exact ⟨resolve_of_resolveTemplate_eq_error read (shuffled base divided).1,
      resolve_of_resolveTemplate_eq_error read (shuffled base divided).2⟩

def boxes : List Registration :=
  [.template ⟨"a", "Box", 1⟩, .parcelable "a" "Point" ⟨"Point.aidl", 1⟩,
    .interface "b" "Point" false ⟨"IPoint.aidl", 1⟩, .template ⟨"b", "Box", 1⟩]

/-- The simple name of two types is ambiguous for the same reason in both
orders; the simple name of two templates has other candidates in each. -/
theorem lookups_after_reordering_boxes :
    let r := standard.run (boxes.map Registration.operation)
    let s := standard.run (boxes.reverse.map Registration.operation)
    r.resolveTemplate "a.Box" = s.resolveTemplate "a.Box" ∧
    Matched SameName (r.resolve "List<Point>") (s.resolve "List<Point>") ∧
    r.resolveTemplate "Box" = .error (.ambiguous "Box" ["a.Box", "b.Box"]) ∧
    s.resolve "Box<int>" = .error (.ambiguous "Box" ["b.Box", "a.Box"]) := by
  intro r s
  obtain ⟨(types : r = _), (others : s = _), clear, divided, matched, apart⟩ :=
    @lookups_after_reordering boxes boxes.reverse
      ⟨by decide +kernel, by decide +kernel⟩ boxes.reverse_perm.symm
  have shuffled : Divided r s "Box" := by
    rw [types, others]
    exact ⟨by decide +kernel, by decide +kernel⟩
  have unique : r.homonyms "List" = s.homonyms "List" := by
    rw [types, others]
    decide +kernel
  have known : "a.Box" ∈ r.templates.map Template.qualifiedName := by
    rw [types]
    decide +kernel
  have list :
      Reference.ofText "List<Point>" = .ok (.generic "List" ["Point"]) := by rfl
  have box :
      Reference.ofText "Box<int>" = .ok (.generic "Box" ["int"]) := by rfl
  refine ⟨clear _ fun named => named.1 known, matched _ ?_, ?_, ?_⟩
  · intro base arguments read named
    cases list.symm.trans read
    exact named.2 unique
  · exact (divided _ shuffled).1.trans (by rfl)
  · exact (apart _ _ _ box shuffled).2.trans (by rfl)

/-- The candidates for a template show the order of registration. -/
theorem candidates_in_order_of_registration_boxes :
    Distinct boxes ∧ boxes.Perm boxes.reverse ∧
    (standard.run (boxes.map Registration.operation)).resolveTemplate "Box" =
      .error (.ambiguous "Box" ["a.Box", "b.Box"]) ∧
    (standard.run (boxes.reverse.map Registration.operation)).resolveTemplate
      "Box" = .error (.ambiguous "Box" ["b.Box", "a.Box"]) :=
  ⟨⟨by decide +kernel, by decide +kernel⟩, boxes.reverse_perm.symm,
    by rfl, by rfl⟩

end BinderIdl.Types.Registry
