import BinderIdl.Proofs.Document.Legality

namespace BinderIdl.Document

open Source BinderIdl.Types Findings

variable {r : Registry} {doc : Document} {earlier : List ResolvedMethod}
  {m : ResolvedMethod}

/-- A legal method with a name that none of the methods in front of it has. -/
structure LegalBehind (r : Registry) (earlier : List ResolvedMethod)
    (m : ResolvedMethod) : Prop where
  legal : LegalMethod r m
  fresh : ∀ other ∈ earlier, other.name ≠ m.name

theorem legalBehind_iff :
    LegalBehind r earlier m ↔
      LegalMethod r m ∧ ∀ other ∈ earlier, other.name ≠ m.name :=
  ⟨fun stays => ⟨stays.legal, stays.fresh⟩,
    fun ⟨legal, fresh⟩ => ⟨legal, fresh⟩⟩

/-- Any document decides it, for it only lends its file to what is found. -/
instance (r : Registry) (m : ResolvedMethod) : Decidable (LegalMethod r m) :=
  decidable_of_iff (checkMethod ⟨"", "", []⟩ r m).isClean
    isClean_checkMethod_iff

instance (r : Registry) (earlier : List ResolvedMethod) (m : ResolvedMethod) :
    Decidable (LegalBehind r earlier m) :=
  decidable_of_iff _ legalBehind_iff.symm

/-- Every member with the members in front of it, the nearest first; the given
ones stand in front of all of them. -/
def withEarlier {α : Type} (earlier : List α) : List α → List (List α × α)
  | [] => []
  | a :: rest => (earlier, a) :: withEarlier (a :: earlier) rest

theorem mem_of_mem_withEarlier {α : Type} {earlier all : List α}
    {p : List α × α} (listed : p ∈ withEarlier earlier all) : p.2 ∈ all := by
  induction all generalizing earlier with
  | nil => cases listed
  | cons a rest induction =>
      rcases List.mem_cons.mp listed with rfl | later
      · exact List.mem_cons_self
      · exact List.mem_cons_of_mem a (induction later)

/-- What is found against a method behind others. -/
def findingsBehind (doc : Document) (r : Registry)
    (earlier : List ResolvedMethod) (m : ResolvedMethod) : Findings :=
  checkMethod doc r m ++ complaintIf
    ((earlier.map ResolvedMethod.name).contains m.name)
    (.errorAt .duplicateName (doc.site m.line)
      ("method " ++ m.name ++ " is declared more than once") "redeclared here")

theorem isClean_findingsBehind_iff (doc : Document) :
    (findingsBehind doc r earlier m).isClean ↔ LegalBehind r earlier m := by
  rw [findingsBehind, isClean_append, isClean_checkMethod_iff,
    isClean_complaintIf, legalBehind_iff]
  simp

theorem dangling_findingsBehind (formed : r.WellFormed) (known : m.Known r) :
    (findingsBehind doc r earlier m).dangling = none :=
  dangling_append (dangling_checkMethod doc formed known)
    (dangling_complaintIf _ _)

theorem complaints_findingsBehind_eq_nil_iff (formed : r.WellFormed)
    (known : m.Known r) :
    (findingsBehind doc r earlier m).complaints = [] ↔
      LegalBehind r earlier m := by
  rw [← isClean_findingsBehind_iff doc, isClean_iff]
  exact (and_iff_left (dangling_findingsBehind formed known)).symm

theorem raises_findingsBehind :
    doc.Raises m.lines (findingsBehind doc r earlier m).complaints :=
  raises_append (raises_checkMethod doc r (List.Subset.refl _))
    (raises_complaintIf _ (raises_errorAt List.mem_cons_self nofun))

theorem checkMethods_cons
    (going : (findingsBehind doc r earlier m).dangling = none)
    (rest : List ResolvedMethod) :
    let others :=
      checkMethods doc r ((m :: earlier).map ResolvedMethod.name) rest
    checkMethods doc r (earlier.map ResolvedMethod.name) (m :: rest) =
      { kept :=
          if (findingsBehind doc r earlier m).isClean then m :: others.kept
          else others.kept
        findings := findingsBehind doc r earlier m ++ others.findings } := by
  unfold findingsBehind at going ⊢
  simp only [checkMethods, List.map_cons, going]

/-- The names that were seen are those of the methods in front. -/
theorem checkMethods_eq (formed : r.WellFormed) (earlier : List ResolvedMethod)
    {methods : List ResolvedMethod} (known : ∀ m ∈ methods, m.Known r) :
    checkMethods doc r (earlier.map ResolvedMethod.name) methods =
      { kept := ((withEarlier earlier methods).filter fun p =>
          LegalBehind r p.1 p.2).map Prod.snd
        findings := ⟨(withEarlier earlier methods).flatMap fun p =>
          (findingsBehind doc r p.1 p.2).complaints, none⟩ } := by
  induction methods generalizing earlier with
  | nil => rfl
  | cons m rest induction =>
      obtain ⟨here, later⟩ := List.forall_mem_cons.mp known
      have going : (findingsBehind doc r earlier m).dangling = none :=
        dangling_findingsBehind formed here
      rw [checkMethods_cons going, induction (m :: earlier) later]
      have found : findingsBehind doc r earlier m ++
          ⟨(withEarlier (m :: earlier) rest).flatMap fun p =>
            (findingsBehind doc r p.1 p.2).complaints, none⟩ =
          ⟨(withEarlier earlier (m :: rest)).flatMap fun p =>
            (findingsBehind doc r p.1 p.2).complaints, none⟩ := by
        change append _ _ = _
        rw [append, going]
        rfl
      rw [found]
      congr 1
      by_cases legal : LegalBehind r earlier m
      · rw [if_pos ((isClean_findingsBehind_iff doc).mpr legal), withEarlier,
          List.filter_cons_of_pos (by simpa using legal), List.map_cons]
      · rw [if_neg (mt (isClean_findingsBehind_iff doc).mp legal), withEarlier,
          List.filter_cons_of_neg (by simpa using legal)]

/-- The check keeps, in their order, exactly the methods that are legal behind
those in front of them. What it reports is put together from what it finds
against each method: errors in the lines of that method, of which there are none
iff it is kept. -/
theorem checkInterface_selects_legal (reachable : r.Reachable) (doc : Document)
    {i : ResolvedInterface} (known : i.Known r) :
    let review := checkInterface doc r i
    let placed := withEarlier [] i.methods
    review.findings.dangling = none ∧
    review.kept =
      { i with methods :=
        (placed.filter fun p => LegalBehind r p.1 p.2).map Prod.snd } ∧
    review.findings.complaints =
      placed.flatMap (fun p => (findingsBehind doc r p.1 p.2).complaints) ∧
    ∀ p ∈ placed,
      doc.Raises p.2.lines (findingsBehind doc r p.1 p.2).complaints ∧
      ((findingsBehind doc r p.1 p.2).complaints = [] ↔
        LegalBehind r p.1 p.2) := by
  intro review placed
  have formed := Registry.Reachable.wellFormed reachable
  have checked : checkMethods doc r [] i.methods = _ :=
    checkMethods_eq formed [] known.methods
  refine ⟨?_, ?_, ?_, fun p listed => ⟨raises_findingsBehind, ?_⟩⟩
  · simp only [review, checkInterface, checked]
  · simp only [review, placed, checkInterface, checked]
  · simp only [review, placed, checkInterface, checked]
  · exact complaints_findingsBehind_eq_nil_iff formed
      (known.methods p.2 (mem_of_mem_withEarlier listed))

/-- An interface whose first method repeats the name of a parameter, and whose
second one is legal but for the name of the first. -/
def repeating : Document where
  package := "a.b"
  file := "Store.aidl"
  items := [.interface ⟨"Store", 1, false,
    [⟨"put", 2, false, ⟨"void", false, 2⟩, [⟨.input, ⟨"int", false, 2⟩, "key",
        2⟩, ⟨.input, ⟨"String", false, 3⟩, "key", 3⟩]⟩, ⟨"put", 4, false,
          ⟨"void", false, 4⟩, [⟨.input, ⟨"int", false, 4⟩, "key", 4⟩]⟩,
      ⟨"fill", 5, false, ⟨"int", false, 5⟩, [⟨.output, ⟨"long", true, 5⟩,
          "cells", 5⟩]⟩, ⟨"name", 6, true, ⟨"String", false, 6⟩, []⟩]⟩]

def repeatingStore : ResolvedInterface :=
  ⟨⟨24⟩, 1,
    [⟨"put", 2, false, ⟨.void, false⟩,
        [⟨"key", .input, ⟨⟨4⟩, false⟩, 2⟩, ⟨"key", .input, ⟨⟨9⟩, false⟩, 3⟩]⟩,
      ⟨"put", 4, false, ⟨.void, false⟩, [⟨"key", .input, ⟨⟨4⟩, false⟩, 4⟩]⟩,
      ⟨"fill", 5, false, ⟨⟨4⟩, false⟩, [⟨"cells", .output, ⟨⟨5⟩, true⟩, 5⟩]⟩,
      ⟨"name", 6, true, ⟨⟨9⟩, false⟩, []⟩]⟩

theorem checkInterface_selects_legal_repeating :
    let resolved := repeating.resolve (repeating.declare .standard).1
    let review := checkInterface repeating resolved.registry repeatingStore
    resolved.registry.Reachable ∧ repeatingStore.Known resolved.registry ∧
    review.kept.methods.map ResolvedMethod.name = ["fill"] ∧
    review.findings.complaints.map Diagnostic.code =
      [.duplicateName, .duplicateName, .invalidOneway] := by
  intro resolved review
  have reachable : resolved.registry.Reachable :=
    (Registry.reachable_standard.grows (declareItems_grows repeating _ _)).grows
      (resolve_orderly repeating _).grows
  have stored : resolved.result = [repeatingStore] := by decide +kernel
  have known : repeatingStore.Known resolved.registry :=
    known_of_mem_resolve (stored ▸ List.mem_singleton_self repeatingStore)
  obtain ⟨_, kept, complaints, _⟩ :=
    checkInterface_selects_legal reachable repeating known
  refine ⟨reachable, known, ?_, ?_⟩
  · rw [kept]
    decide +kernel
  · rw [complaints]
    decide +kernel

end BinderIdl.Document
