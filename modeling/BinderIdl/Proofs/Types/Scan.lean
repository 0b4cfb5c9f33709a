import BinderIdl.Proofs.Types.Index
import BinderIdl.Proofs.Types.Reference

namespace BinderIdl.Types

inductive Denotation (α : Type) where
  | one (entry : α)
  | several (entries : List α)
  | nothing

/-- Which entries are meant, if a full name counts before a short one. -/
inductive Denotes {α : Type} (entries : List α) (inFull inShort : α → Prop) :
    Denotation α → Prop where
  | inFull {entry : α} : entry ∈ entries → inFull entry →
      (∀ other ∈ entries, inFull other → other = entry) →
      Denotes entries inFull inShort (.one entry)
  | inShort {entry : α} : (∀ other ∈ entries, ¬ inFull other) →
      entry ∈ entries →
      inShort entry → (∀ other ∈ entries, inShort other → other = entry) →
      Denotes entries inFull inShort (.one entry)
  | several {named : List α} : (∀ other ∈ entries, ¬ inFull other) →
      named.Sublist entries →
      (∀ other ∈ entries, other ∈ named ↔ inShort other) →
      2 ≤ named.length → Denotes entries inFull inShort (.several named)
  | nothing : (∀ other ∈ entries, ¬ inFull other) →
      (∀ other ∈ entries, ¬ inShort other) →
      Denotes entries inFull inShort .nothing

/-- The scan that finds what is meant. -/
def scan {α : Type} (entries : List α) (inFull inShort : α → Bool) :
    Denotation α :=
  match entries.find? inFull with
  | some entry => .one entry
  | none =>
      match entries.filter inShort with
      | [] => .nothing
      | [entry] => .one entry
      | many => .several many

theorem denotes_scan {α : Type} {entries : List α} (inFull inShort : α → Bool)
    (unique : ∀ entry ∈ entries, ∀ other ∈ entries,
      inFull entry → inFull other → other = entry) :
    Denotes entries (inFull ·) (inShort ·) (scan entries inFull inShort) := by
  unfold scan
  cases found : entries.find? inFull with
  | some entry =>
      have member := List.mem_of_find?_eq_some found
      have full := List.find?_some found
      exact .inFull member full fun other listed also =>
        unique entry member other listed full also
  | none =>
      have no : ∀ other ∈ entries, ¬ inFull other := fun other listed =>
        List.find?_eq_none.mp found other listed
      have short :
          ∀ other ∈ entries, other ∈ entries.filter inShort ↔ inShort other :=
        fun other listed => by simp [listed]
      have sublist : (entries.filter inShort).Sublist entries :=
        List.filter_sublist
      generalize entries.filter inShort = named at short sublist
      rcases named with _ | ⟨first, _ | ⟨second, rest⟩⟩
      · exact .nothing no fun other listed also =>
          by simpa using (short other listed).mpr also
      · have member := sublist.subset List.mem_cons_self
        exact .inShort no member ((short first member).mp List.mem_cons_self)
          fun other listed also => by simpa using (short other listed).mpr also
      · exact .several no sublist short (by simp)

namespace Registry

/-- The answer to a name, from the types that it means. -/
def answerType (name : String) :
    Denotation (Handle × Descriptor) → Except LookupError Handle
  | .one entry => .ok entry.1
  | .several entries => .error (.ambiguous name (candidates entries))
  | .nothing => .error (.unknown name)

def answerTemplate (name : String) :
    Denotation Template → Except LookupError Template
  | .one t => .ok t
  | .several ts => .error (.ambiguous name (ts.map Template.qualifiedName))
  | .nothing => .error (.unknown name)

theorem resolveName_eq_scan (r : Registry) (name : String) :
    r.resolveName name = answerType name (scan r.entries
      (fun entry => entry.2.qualifiedName == name)
      (fun entry => entry.2.kind != .generic && entry.2.name == name)) := by
  unfold resolveName scan findQualified? owner? named
  cases r.entries.find? fun entry => entry.2.qualifiedName == name with
  | some entry => rfl
  | none =>
      dsimp only [Option.map_none]
      generalize r.entries.filter _ = short
      match short with
      | [] => rfl
      | [_] => rfl
      | _ :: _ :: _ => rfl

theorem resolveTemplate_eq_scan (r : Registry) (name : String) :
    r.resolveTemplate name = answerTemplate name (scan r.templates
      (fun t => t.qualifiedName == name) (fun t => t.name == name)) := by
  unfold resolveTemplate scan template?
  cases r.templates.find? fun t => t.qualifiedName == name with
  | some t => rfl
  | none =>
      dsimp only
      generalize r.templates.filter _ = short
      match short with
      | [] => rfl
      | [_] => rfl
      | _ :: _ :: _ => rfl

theorem eq_of_mem_entries {r : Registry}
    (distinct : (r.types.map Descriptor.qualifiedName).Nodup)
    {entry other : Handle × Descriptor} (listed : entry ∈ r.entries)
    (also : other ∈ r.entries)
    (same : entry.2.qualifiedName = other.2.qualifiedName) : entry = other := by
  obtain ⟨handles, types⟩ :=
    eq_of_qualifiedName_eq distinct (mem_entries_iff.mp listed)
      (mem_entries_iff.mp also) same
  exact Prod.ext handles types

theorem denotes_type {r : Registry}
    (distinct : (r.types.map Descriptor.qualifiedName).Nodup) (name : String) :
    ∃ meant, Denotes r.entries (fun entry => entry.2.qualifiedName = name)
      (fun entry => entry.2.kind ≠ .generic ∧ entry.2.name = name) meant ∧
      r.resolveName name = answerType name meant := by
  refine ⟨_, ?_, resolveName_eq_scan r name⟩
  have scanned :=
    denotes_scan
      (fun entry : Handle × Descriptor => entry.2.qualifiedName == name)
      (fun entry => entry.2.kind != .generic && entry.2.name == name)
      fun entry listed other also full alsoFull => eq_of_mem_entries distinct
        also listed ((beq_iff_eq.mp alsoFull).trans (beq_iff_eq.mp full).symm)
  simpa only [beq_iff_eq, Bool.and_eq_true, bne_iff_ne] using scanned

theorem denotes_template {r : Registry}
    (distinct : (r.templates.map Template.qualifiedName).Nodup)
    (name : String) :
    ∃ meant, Denotes r.templates (fun t => t.qualifiedName = name)
      (fun t => t.name = name) meant ∧
      r.resolveTemplate name = answerTemplate name meant := by
  refine ⟨_, ?_, resolveTemplate_eq_scan r name⟩
  have scanned :=
    denotes_scan (fun t : Template => t.qualifiedName == name)
      (fun t => t.name == name) fun t listed other also full alsoFull =>
        List.inj_on_of_nodup_map distinct also listed
          ((beq_iff_eq.mp alsoFull).trans (beq_iff_eq.mp full).symm)
  simpa only [beq_iff_eq] using scanned

end Registry

namespace IndexedRegistry

open Registry (Operation)

theorem resolve_of_spellable {r : IndexedRegistry} {text : String}
    (spelled : Spellable (Text.removeBlanks text.toList)) :
    r.resolve text =
      (r.resolveName (String.ofList (Text.removeBlanks text.toList))).map
        fun h => (h, r) := by
  unfold resolve
  rw [Reference.ofText, Reference.split_of_spellable spelled]

/-- Whatever a registry was asked since it was empty, the indices answer as
scans do: every operation answers as without them; a qualified name finds the
one type that has it; a reference without type arguments finds the type of that
qualified name, or else the only one of that simple name which is no instance,
and tells the sorted names if there are several; and the name of a template
finds one by the same rule. -/
theorem lookups_agree_with_scans (history : List Operation) :
    let r := empty.run history
    let entries := r.arena.entries
    (r.arena = Registry.empty.run history ∧
      ∀ operation, (r.perform operation).1 = (r.arena.perform operation).1) ∧
    (∀ name h, r.findQualified? name = some h ↔
      ∃ d, (h, d) ∈ entries ∧ d.qualifiedName = name) ∧
    (∀ entry ∈ entries, ∀ other ∈ entries,
      entry.2.qualifiedName = other.2.qualifiedName → entry = other) ∧
    (∀ text, let name := Text.removeBlanks text.toList
      name ≠ [] → (∀ c ∈ text.toList, c ≠ '<' ∧ c ≠ '>' ∧ c ≠ ',') →
      ∃ meant, Denotes entries
        (fun entry => entry.2.qualifiedName = String.ofList name) (fun entry =>
            entry.2.kind ≠ .generic ∧ entry.2.name = String.ofList name) meant ∧
        r.resolve text = match meant with
          | .one entry => .ok (entry.1, r)
          | .several named =>
              .error (.ambiguous (String.ofList name) ((named.map fun entry =>
                  entry.2.qualifiedName).mergeSort fun a b => decide (a ≤ b)))
          | .nothing => .error (.unknown (String.ofList name))) ∧
    (∀ name, ∃ meant, Denotes r.arena.templates
      (fun t => t.qualifiedName = name) (fun t => t.name = name) meant ∧
      r.resolveTemplate name = match meant with
          | .one t => .ok t
          | .several ts =>
              .error (.ambiguous name (ts.map Template.qualifiedName))
          | .nothing => .error (.unknown name)) := by
  intro r entries
  obtain ⟨arena, exact⟩ := exact_empty.run history
  have distinct : (r.arena.types.map Descriptor.qualifiedName).Nodup :=
    arena ▸ Registry.nodup_run_empty history
  have distinctTemplates :
      (r.arena.templates.map Template.qualifiedName).Nodup :=
    arena ▸
      Registry.nodup_templates_run (r := Registry.empty) List.nodup_nil history
  refine ⟨⟨arena, fun operation => (exact.perform operation).answer⟩, ?_,
    ?_, ?_, ?_⟩
  · intro name h
    rw [exact.findQualified?_eq, Registry.findQualified?_eq_some_iff distinct]
    exact exists_congr fun d => and_congr_left' Registry.mem_entries_iff.symm
  · exact fun entry listed other also =>
      Registry.eq_of_mem_entries distinct listed also
  · intro text name nonempty free
    have spelled : Spellable name := by
      refine ⟨nonempty, fun c listed separator => ?_⟩
      have here := free c (List.mem_of_mem_filter listed)
      rcases separator with same | same | same
      · exact here.1 same
      · exact here.2.1 same
      · exact here.2.2 same
    obtain ⟨meant, denotes, answer⟩ :=
      Registry.denotes_type distinct (String.ofList name)
    refine ⟨meant, denotes, ?_⟩
    rw [resolve_of_spellable spelled, exact.resolveName_eq, answer]
    cases meant with
    | one entry => rfl
    | several named => rfl
    | nothing => rfl
  · intro name
    obtain ⟨meant, denotes, answer⟩ :=
      Registry.denotes_template distinctTemplates name
    refine ⟨meant, denotes, ?_⟩
    rw [exact.resolveTemplate_eq, answer]
    cases meant with
    | one t => rfl
    | several ts => rfl
    | nothing => rfl

/-- Two packages have a record of one name, so that the name alone is ambiguous,
blanks or not. -/
theorem lookups_agree_with_scans_ambiguous :
    let history : List Operation :=
      [.declareParcelable "b" "Point" ⟨"b/Point.aidl", 1⟩,
        .declareParcelable "a" "Point" ⟨"a/Point.aidl", 1⟩]
    (empty.run history).resolve " Po int" =
      .error (.ambiguous "Point" ["a.Point", "b.Point"]) := by
  intro history
  obtain ⟨⟨arena, _⟩, _, _, meaning, _⟩ := lookups_agree_with_scans history
  obtain ⟨meant, denotes, answer⟩ :=
    meaning " Po int" (by decide +kernel) (by simp)
  rw [arena] at denotes
  have first : (Registry.empty.run history).entries[0]? =
      some (⟨0⟩, .parcelable "b" "Point" ⟨"b/Point.aidl", 1⟩) := by
        decide +kernel
  have second : (Registry.empty.run history).entries[1]? =
      some (⟨1⟩, .parcelable "a" "Point" ⟨"a/Point.aidl", 1⟩) := by
        decide +kernel
  cases denotes with
  | inFull listed full =>
      have none : ∀ entry ∈ (Registry.empty.run history).entries,
          entry.2.qualifiedName ≠ "Point" := by decide +kernel
      exact absurd full (none _ listed)
  | inShort _ _ _ only =>
      have same :=
        (only _ (List.mem_of_getElem? first) (by decide +kernel)).trans
          (only _ (List.mem_of_getElem? second) (by decide +kernel)).symm
      exact absurd same (by decide +kernel)
  | several _ sublist _ two =>
      rw [sublist.eq_of_length_le two] at answer
      have names : ((Registry.empty.run history).entries.map fun entry =>
          entry.2.qualifiedName) = ["b.Point", "a.Point"] := by
        decide +kernel
      have sorted :
          ["b.Point", "a.Point"].mergeSort (fun a b => decide (a ≤ b)) =
            ["a.Point", "b.Point"] := by
        simp [List.mergeSort, List.MergeSort.Internal.splitInTwo]
      have name :
          String.ofList (Text.removeBlanks " Po int".toList) = "Point" := by
        decide +kernel
      simpa only [names, sorted, name] using answer
  | nothing _ none =>
      exact absurd (by decide +kernel) (none _ (List.mem_of_getElem? first))

end IndexedRegistry

end BinderIdl.Types
