import BinderIdl.Proofs.Types.Operations
import BinderIdl.Types.Index

namespace BinderIdl.Types.IndexedRegistry

open Registry (Operation Answer)

def perform (r : IndexedRegistry) : Operation → Answer × IndexedRegistry
  | .register d => Answer.ofResult .refused r (r.register d)
  | .declareParcelable package name site =>
      Answer.ofResult .refused r (r.declareParcelable package name site)
  | .declareInterface package name oneway site =>
      Answer.ofResult .refused r (r.declareInterface package name oneway site)
  | .registerTemplate t => Answer.ofTemplate r (r.registerTemplate t)
  | .resolve text => Answer.ofResult .unresolved r (r.resolve text)
  | .search text => Answer.ofResult (fun _ => .nothing) r (r.resolve text)
  | .instantiate t handles =>
      Answer.ofResult .unresolved r (r.instantiate t handles)

def run (r : IndexedRegistry) (operations : List Operation) : IndexedRegistry :=
  operations.foldl (fun r operation => (r.perform operation).2) r

/-- The indices say what scans of all entries say. -/
structure Exact (r : IndexedRegistry) : Prop where
  qualified : ∀ name : String, r.handleOf[name]? = r.arena.findQualified? name
  simple : ∀ name, r.handles name = (r.arena.named name).map Prod.fst
  template : ∀ name : String,
    r.templateOf[name]?.bind (r.arena.templates[·]?) = r.arena.template? name

theorem exact_empty : Exact empty := by
  constructor
  · intro name
    simp [empty, Registry.findQualified?, Registry.owner?, Registry.entries,
      Registry.empty]
  · intro name
    simp [empty, handles, Registry.named, Registry.entries, Registry.empty]
  · intro name
    simp [empty, Registry.template?, Registry.empty]

variable {r : IndexedRegistry}

theorem Exact.insert (exact : Exact r) {d : Descriptor}
    (free : r.handleOf[d.qualifiedName]? = none) : Exact (r.insert d).2 := by
  rw [exact.qualified] at free
  constructor
  · intro name
    have pushed := r.arena.owner?_push d name
    simp only [IndexedRegistry.insert, Std.HashMap.getElem?_insert,
      Registry.findQualified?, pushed]
    by_cases same : d.qualifiedName = name
    · have unowned := Registry.owner?_eq_none_of_findQualified?_eq_none free
      rw [same] at unowned
      simp [same, unowned]
    · simpa [same, Registry.findQualified?] using exact.qualified name
  · intro name
    have before := exact.simple name
    unfold handles at before
    simp only [handles, IndexedRegistry.insert, getD_enterType, before,
      Registry.named, Registry.entries_push, List.filter_append,
      List.map_append, List.append_cancel_left_eq]
    by_cases simple : d.kind ≠ .generic ∧ d.name = name
    · simp [simple]
    · rw [if_neg simple, List.filter_cons_of_neg (by simpa using simple)]
      rfl
  · exact exact.template

theorem Exact.insertTemplate (exact : Exact r) {t : Template}
    (free : r.templateOf[t.qualifiedName]? = none) :
    Exact (r.insertTemplate t) := by
  constructor
  · exact exact.qualified
  · exact exact.simple
  · intro name
    have before := exact.template name
    simp only [IndexedRegistry.insertTemplate, Std.HashMap.getElem?_insert,
      Registry.template?, List.find?_append] at before ⊢
    by_cases same : t.qualifiedName = name
    · rw [← same, free] at before
      rw [← same, ← before]
      simp
    · rw [← before]
      cases found : r.templateOf[name]? with
      | none => simp [same]
      | some i =>
          simp [same, List.getElem?_append_left (r.templateOf_lt name i found),
            List.getElem?_eq_getElem (r.templateOf_lt name i found)]

theorem Exact.findQualified?_eq (exact : Exact r) (name : String) :
    r.findQualified? name = r.arena.findQualified? name :=
  exact.qualified name

theorem Exact.candidates_eq (exact : Exact r) (name : String) :
    r.candidates name = Registry.candidates (r.arena.named name) := by
  have simple := exact.simple name
  have lengths : (r.handles name).length = (r.arena.named name).length := by
    simp [simple]
  unfold candidates Registry.candidates
  congr 1
  refine List.ext_getElem (by simpa using lengths) ?_
  intro position bound other
  simp only [List.length_map] at other
  have listed := List.mem_filter.mp (List.getElem_mem other)
  have known := Registry.mem_entries_iff.mp listed.1
  have within : position < (r.handles name).length := lengths ▸ other
  have here : (r.handles name)[position] =
      (r.arena.named name)[position].1 := by simp [simple]
  obtain ⟨_, denoted⟩ := List.getElem?_eq_some_iff.mp known
  simp only [List.get_eq_getElem] at denoted
  simp [here, denoted]

theorem Exact.resolveName_eq (exact : Exact r) (name : String) :
    r.resolveName name = r.arena.resolveName name := by
  have simple := exact.simple name
  have listed := exact.candidates_eq name
  unfold resolveName Registry.resolveName
  rw [exact.findQualified?_eq, simple]
  cases r.arena.findQualified? name with
  | some h => rfl
  | none =>
      rcases named : r.arena.named name with _ | ⟨first, _ | ⟨second, rest⟩⟩
      · rfl
      · rfl
      · rw [named] at listed
        simp [listed]

theorem Exact.resolveTemplate_eq (exact : Exact r) (name : String) :
    r.resolveTemplate name = r.arena.resolveTemplate name := by
  have known := exact.template name
  unfold resolveTemplate Registry.resolveTemplate
  split
  · next i found =>
      rw [found] at known
      simp only [Option.bind_some,
        List.getElem?_eq_getElem (r.templateOf_lt name i found)] at known
      rw [← known]
      rfl
  · next free =>
      rw [free] at known
      rw [← known]
      rfl

/-- An outcome through the indices and the outcome of scans: the same one, over
the same entries, with indices that are still exact. -/
inductive Agree {ε : Type} :
    Except ε (Handle × IndexedRegistry) →
    Except ε (Handle × Registry) → Prop where
  | error (error : ε) : Agree (.error error) (.error error)
  | ok (h : Handle) {after : IndexedRegistry} : Exact after →
      Agree (.ok (h, after)) (.ok (h, after.arena))

theorem Exact.register (exact : Exact r) (d : Descriptor) :
    Agree (r.register d) (r.arena.register d) := by
  have known := exact.qualified d.qualifiedName
  unfold IndexedRegistry.register Registry.register
  split
  · next free =>
      rw [free] at known
      rw [Registry.owner?_eq_none_of_findQualified?_eq_none known.symm]
      exact .ok _ (exact.insert free)
  · next h found =>
      rw [found] at known
      obtain ⟨⟨owner, existing⟩, owned, same⟩ :=
        Option.map_eq_some_iff.mp known.symm
      cases same
      obtain ⟨_, denoted⟩ :=
        List.getElem?_eq_some_iff.mp (Registry.get?_of_owner?_eq_some owned)
      rw [owned]
      simp only [List.get_eq_getElem, denoted]
      split
      · exact .ok _ exact
      · exact .error _

theorem Exact.instantiate (exact : Exact r) (t : Template)
    (handles : List Handle) :
    Agree (r.instantiate t handles) (r.arena.instantiate t handles) := by
  unfold IndexedRegistry.instantiate Registry.instantiate
  split
  · exact .error _
  · cases handles.mapM r.arena.argument with
    | error error => exact .error error
    | ok arguments =>
        simp only [← exact.findQualified?_eq]
        cases found : r.findQualified? (t.instanceName arguments) with
        | some h => exact .ok h exact
        | none =>
            refine .ok _ (exact.insert ?_)
            rw [Template.qualifiedName_apply]
            exact found

theorem Exact.resolve (exact : Exact r) (text : String) :
    Agree (r.resolve text) (r.arena.resolve text) := by
  unfold IndexedRegistry.resolve Registry.resolve
  cases Reference.ofText text with
  | error error => exact .error error
  | ok reference =>
      cases reference with
      | plain name =>
          simp only [exact.resolveName_eq]
          cases r.arena.resolveName name with
          | error error => exact .error error
          | ok h => exact .ok h exact
      | generic base arguments =>
          simp only [resolveGeneric, Registry.resolveGeneric,
            exact.resolveTemplate_eq, funext exact.resolveName_eq]
          cases r.arena.resolveTemplate base with
          | error error => exact .error error
          | ok t =>
              cases arguments.mapM r.arena.resolveName with
              | error error => exact .error error
              | ok handles => exact exact.instantiate t handles

/-- What an operation answers and leaves behind, through the indices and
through scans. -/
structure AgreeOn (indexed : Answer × IndexedRegistry)
    (scanned : Answer × Registry) : Prop where
  answer : indexed.1 = scanned.1
  arena : indexed.2.arena = scanned.2
  exact : Exact indexed.2

theorem Exact.ofResult (exact : Exact r) {ε : Type} (failure : ε → Answer)
    {indexed : Except ε (Handle × IndexedRegistry)}
    {scanned : Except ε (Handle × Registry)} (agree : Agree indexed scanned) :
    AgreeOn (Answer.ofResult failure r indexed)
      (Answer.ofResult failure r.arena scanned) := by
  cases agree with
  | error error => exact ⟨rfl, rfl, exact⟩
  | ok h after => exact ⟨rfl, rfl, after⟩

theorem Exact.registerTemplate (exact : Exact r) (t : Template) :
    AgreeOn (Answer.ofTemplate r (r.registerTemplate t))
      (Answer.ofTemplate r.arena (r.arena.registerTemplate t)) := by
  have known := exact.template t.qualifiedName
  unfold IndexedRegistry.registerTemplate Registry.registerTemplate
  split
  · next free =>
      rw [free] at known
      rw [← known]
      exact ⟨rfl, rfl, exact.insertTemplate free⟩
  · next i found =>
      rw [found] at known
      simp only [Option.bind_some,
        List.getElem?_eq_getElem (r.templateOf_lt t.qualifiedName i found)]
        at known
      rw [← known]
      simp only [List.get_eq_getElem]
      split
      · exact ⟨rfl, rfl, exact⟩
      · exact ⟨rfl, rfl, exact⟩

theorem Exact.perform (exact : Exact r) (operation : Operation) :
    AgreeOn (r.perform operation) (r.arena.perform operation) := by
  cases operation with
  | register d => exact exact.ofResult _ (exact.register d)
  | declareParcelable package name site =>
      exact exact.ofResult _ (exact.register _)
  | declareInterface package name oneway site =>
      exact exact.ofResult _ (exact.register _)
  | registerTemplate t => exact exact.registerTemplate t
  | resolve text => exact exact.ofResult _ (exact.resolve text)
  | search text => exact exact.ofResult _ (exact.resolve text)
  | instantiate t handles =>
      exact exact.ofResult _ (exact.instantiate t handles)

theorem Exact.run (exact : Exact r) (operations : List Operation) :
    (r.run operations).arena = r.arena.run operations ∧
    Exact (r.run operations) := by
  induction operations generalizing r with
  | nil => exact ⟨rfl, exact⟩
  | cons operation rest induction =>
      have step := exact.perform operation
      have later := induction step.exact
      rw [step.arena] at later
      exact later

end BinderIdl.Types.IndexedRegistry
