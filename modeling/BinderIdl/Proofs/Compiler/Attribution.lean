import BinderIdl.Proofs.Compiler.Policy
import BinderIdl.Proofs.Diagnostic.History

namespace BinderIdl

open Diagnostic Diagnostic.Queue Document Source BinderIdl.Types

def Diagnostic.line (d : Diagnostic) :
    Nat := (d.primarySite.map Site.line).getD 0

namespace Compiler

variable {r : Registry} {doc : Document} {options : Options}

/-- An output shows the errors that the queue of its document has taken of the
reports, and what else it shows is the note. -/
structure Output.Shows (policy : Policy) (doc : Document)
    (reports : List Diagnostic) (o : Output) (errors : List Diagnostic)
    (note : Option Diagnostic) : Prop where
  file : o.file = doc.file
  diagnostics : o.diagnostics = errors ++ note.toList
  points : ∀ d ∈ errors,
    d.isError ∧ ∃ line ∈ doc.lines, d.PointsAt (doc.site line)
  sorted : SortedBy Nat.ble Diagnostic.line
    ((Queue.empty policy).addAll reports).held errors
  taken : ((Queue.empty policy).addAll reports).held.Sublist reports
  note : ∀ d ∈ note, d.isError = false ∧ d.code = .tooManyErrors

/-- Whatever an output shows is a report on its document, or the note. -/
def Output.Attributed (policy : Policy) (doc : Document)
    (reports : List Diagnostic) (o : Output) : Prop :=
  ∃ errors note, o.Shows policy doc reports errors note

/-- The reports of each document of a batch, on a registry that has declared
them all. -/
def reportsOfAll (r : Registry) :
    List (Document × List Diagnostic) → List (Document × List Diagnostic)
  | [] => []
  | (doc, before) :: rest =>
      (doc, doc.allReports r before) ::
        reportsOfAll (doc.resolve r).registry rest

/-- The documents of a batch with what declaration, resolution and check report
of each. -/
def reportsOfBatch (mode : RegistryMode) (docs : List Document) :
    List (Document × List Diagnostic) :=
  match mode with
  | .shared =>
      reportsOfAll (reportAll .standard docs).2 (reportAll .standard docs).1
  | .perFile =>
      docs.map fun doc =>
        (doc,
          doc.allReports (doc.declare .standard).1 (doc.declare .standard).2)

theorem site_injective (doc : Document) :
    Function.Injective fun line => some (doc.site line) := by
  intro line other same
  exact congrArg Site.line (Option.some.inj same)

theorem primarySite_of_pointsAt {d : Diagnostic} {line : Nat}
    (points : d.PointsAt (doc.site line)) :
    d.primarySite = some (doc.site d.line) := by
  rw [Diagnostic.line, points.primarySite]
  rfl

theorem le_of_optionLe_site {line other : Nat}
    (le : optionLe (some (doc.site line)) (some (doc.site other))) :
    Nat.ble line other := by
  rcases Site.le_iff.mp le with smaller | ⟨_, lines⟩
  · exact absurd smaller (String.lt_irrefl _)
  · exact Nat.ble_eq.mpr lines

theorem attributed_of_account_eq_ok {before : List Diagnostic} {a : Account}
    (reachable : r.Reachable) (reported : Reported r doc before)
    (accounted : account r doc before = .ok a) :
    (a.output options).Attributed options.policy doc
      (doc.allReports r before) := by
  have offered := offered_of_account_eq_ok reachable reported accounted
  have raises := raises_allReports r reported.raises
  let q := (Queue.empty options.policy).addAll (doc.allReports r before)
  have taken : q.held.Sublist (doc.allReports r before) :=
    held_offered_sublist _ _
  have points (d : Diagnostic) (held : d ∈ q.held) :
      ∃ line ∈ doc.lines, d.PointsAt (doc.site line) :=
    (raises d (taken.subset held)).2
  refine ⟨q.sorted,
    if 0 < q.refusedCount then some (limitNote q.errorCount q.refusedCount)
    else none, ?file, ?diagnostics, ?points, ?sorted, taken, ?note⟩
  case file =>
    obtain ⟨_, _, _, rfl⟩ := account_eq_ok accounted
    rfl
  case diagnostics =>
    rw [Account.output, offered]
    change q.flushed = _
    unfold flushed
    split
    · rfl
    · exact (List.append_nil _).symm
  case points =>
    intro d listed
    have held := q.sorted_perm.mem_iff.mp listed
    exact ⟨(raises.isUserError d (taken.subset held)).1, points d held⟩
  case sorted =>
    have bySite : SortedBy optionLe primarySite q.held q.sorted :=
      sortedBy_mergeSort optionLe_trans optionLe_total q.held
    refine bySite.of_embedding (site_injective doc) (fun d held => ?_)
      fun _ _ => le_of_optionLe_site
    obtain ⟨line, _, here⟩ := points d held
    exact primarySite_of_pointsAt here
  case note =>
    intro d added
    split at added
    · cases added
      exact ⟨rfl, rfl⟩
    · cases added

theorem reportAll_grows (r : Registry) (docs : List Document) :
    r.Grows (reportAll r docs).2 := by
  induction docs generalizing r with
  | nil => exact .refl r
  | cons doc rest induction =>
      exact (declareItems_grows doc r doc.items).trans (induction _)

theorem reported_reportAll (r : Registry) (docs : List Document) :
    ∀ entry ∈ (reportAll r docs).1,
      Reported (reportAll r docs).2 entry.1 entry.2 := by
  induction docs generalizing r with
  | nil => nofun
  | cons doc rest induction =>
      exact List.forall_mem_cons.mpr
        ⟨(reported_declare r doc).grows (reportAll_grows _ rest), induction _⟩

theorem documents_reportAll (r : Registry) (docs : List Document) :
    (reportAll r docs).1.map Prod.fst = docs := by
  induction docs generalizing r with
  | nil => rfl
  | cons doc rest induction => exact congrArg (doc :: ·) (induction _)

theorem documents_reportsOfAll (r : Registry)
    (entries : List (Document × List Diagnostic)) :
    (reportsOfAll r entries).map Prod.fst = entries.map Prod.fst := by
  induction entries generalizing r with
  | nil => rfl
  | cons entry rest induction => exact congrArg (entry.1 :: ·) (induction _)

theorem documents_reportsOfBatch (mode : RegistryMode) (docs : List Document) :
    (reportsOfBatch mode docs).map Prod.fst = docs := by
  cases mode with
  | shared =>
      exact (documents_reportsOfAll _ _).trans (documents_reportAll _ docs)
  | perFile => simp [reportsOfBatch, Function.comp_def]

theorem attributed_accountAll {entries : List (Document × List Diagnostic)}
    {accounts : List Account} (reachable : r.Reachable)
    (reported : ∀ entry ∈ entries, Reported r entry.1 entry.2)
    (counted : accountAll r entries = .ok accounts) :
    List.Forall₂ (fun entry => Output.Attributed options.policy entry.1 entry.2)
      (reportsOfAll r entries) (accounts.map (Account.output · options)) := by
  induction entries generalizing r accounts with
  | nil =>
      cases counted
      exact .nil
  | cons entry rest induction =>
      obtain ⟨doc, before⟩ := entry
      obtain ⟨here, later⟩ := List.forall_mem_cons.mp reported
      obtain ⟨a, accounted, rested⟩ := bind_eq_ok_iff.mp counted
      obtain ⟨others, othersCounted, done⟩ := bind_eq_ok_iff.mp rested
      cases done
      refine .cons (attributed_of_account_eq_ok reachable here accounted) ?_
      obtain ⟨_, _, _, rfl⟩ := account_eq_ok accounted
      have grew := (resolve_orderly doc r).grows
      exact induction (reachable.grows grew)
        (fun entry listed => (later entry listed).grows grew) othersCounted

theorem attributed_accountBatch {docs : List Document} {accounts : List Account}
    (counted : accountBatch options.registryMode docs = .ok accounts) :
    List.Forall₂ (fun entry => Output.Attributed options.policy entry.1 entry.2)
      (reportsOfBatch options.registryMode docs)
      (accounts.map (Account.output · options)) := by
  unfold accountBatch at counted
  unfold reportsOfBatch
  cases mode : options.registryMode with
  | shared =>
      rw [mode] at counted
      exact attributed_accountAll
        (Registry.reachable_standard.grows (reportAll_grows _ docs))
        (reported_reportAll _ docs) counted
  | perFile =>
      rw [mode] at counted
      rw [List.forall₂_map_left_iff, List.forall₂_map_right_iff]
      refine (mapM_eq_ok_iff.mp counted).imp fun doc a accounted => ?_
      have declared := Registry.reachable_standard.grows
        (declareItems_grows doc .standard doc.items)
      exact attributed_of_account_eq_ok declared
        (reported_declare .standard doc) accounted

/-- Whatever a compiler has been asked before, the errors that it gives for a
document have one primary label, which points at a line of an item, method,
parameter or type of the document. They are what the queue has taken of the
reports of declaration, resolution and check, line by line, in the order of
these passes on one line. At most the note about the limit follows. It is the
same for each document of a batch. -/
theorem errors_point_into_their_document (options : Options)
    (requests : List Request) (docs : List Document) :
    (∃ s, (Session.new options).run requests = .ok s ∧ ∀ doc : Document,
      let (declared, before) := doc.declare s.compiler.registry
      ∃ output next, s.compiler.compile doc = .ok (output, next) ∧
        output.Attributed options.policy doc (doc.allReports declared before)) ∧
      ∃ outputs, compileBatch options docs = .ok outputs ∧
        (reportsOfBatch options.registryMode docs).map Prod.fst = docs ∧
        List.Forall₂
          (fun entry => Output.Attributed options.policy entry.1 entry.2)
          (reportsOfBatch options.registryMode docs) outputs := by
  constructor
  · obtain ⟨s, done, sound⟩ := (Session.sound_new options).run requests
    refine ⟨s, done, fun doc => ?_⟩
    obtain ⟨output, next, compiled, _⟩ := exists_compiled sound.reachable doc
    have viewed := compiled
    rw [compile_eq, options_of_run done] at viewed
    obtain ⟨a, accounted, view⟩ := map_eq_ok_iff.mp viewed
    cases view
    have declared := sound.reachable.grows (declareItems_grows doc
      s.compiler.registry doc.items)
    exact ⟨_, _, compiled, attributed_of_account_eq_ok declared
      (reported_declare s.compiler.registry doc) accounted⟩
  · obtain ⟨accounts, counted⟩ := exists_accountBatch options.registryMode docs
    refine ⟨_, ?_, documents_reportsOfBatch _ docs,
      attributed_accountBatch counted⟩
    rw [compileBatch_eq, counted]
    rfl

end Compiler

end BinderIdl
