import BinderIdl.Proofs.Compiler.Session
import BinderIdl.Proofs.Diagnostic.Filtering

/-! Compilation without a policy. What is made of a document is decided before
its queue has refused anything: the methods, the registry, and the diagnostics
that the queue is offered. The outputs under all policies are views of this
one account. -/

namespace BinderIdl.Compiler

open Diagnostic Diagnostic.Queue Document BinderIdl.Types

/-- What a document comes to, whatever the policy. -/
structure Account where
  file : String
  registry : Registry
  methods : List Method.Generated
  /-- Everything that is offered to the queue, from declaration
  to generation. -/
  offered : List Diagnostic

/-- Accounts for a document whose declaration has given the reports `before`. -/
def account (r : Registry) (doc : Document) (before : List Diagnostic) :
    Except Handle Account :=
  let resolved := doc.resolve r
  let review := checkInterfaces doc resolved.registry resolved.result
  match review.findings.dangling with
  | some h => .error h
  | none => do
      let found := before ++ resolved.reports ++ review.findings.complaints
      let generation ← generateUnless (found.any isError) resolved.registry doc
          review.kept
      return { file := doc.file
               registry := resolved.registry
               methods := generation.methods
               offered := found ++ generation.reports }

theorem account_eq_ok {r : Registry} {doc : Document} {before : List Diagnostic}
    {a : Account} (accounted : account r doc before = .ok a) :
    let resolved := doc.resolve r
    let review := checkInterfaces doc resolved.registry resolved.result
    let found := before ++ resolved.reports ++ review.findings.complaints
    review.findings.dangling = none ∧
    ∃ generation,
      generateUnless (found.any isError) resolved.registry doc review.kept =
        .ok generation ∧ a = ⟨doc.file, resolved.registry, generation.methods,
          found ++ generation.reports⟩ := by
  intro resolved review found
  unfold account at accounted
  dsimp only at accounted
  split at accounted
  · cases accounted
  · next going =>
      obtain ⟨generation, made, done⟩ := bind_eq_ok_iff.mp accounted
      exact ⟨going, generation, made, (Except.ok.inj done).symm⟩

/-- What the declaration of a document has reported, and which interfaces it
has accepted. -/
structure Reported (r : Registry) (doc : Document) (before : List Diagnostic) :
    Prop where
  raises : doc.Raises doc.lines before
  accepted : before = [] →
    ∀ i ∈ doc.interfaces, ∃ h, acceptedHandle? doc r i = some h

theorem Reported.grows {r grown : Registry} {doc : Document}
    {before : List Diagnostic} (reported : Reported r doc before)
    (growth : r.Grows grown) : Reported grown doc before where
  raises := reported.raises
  accepted silent i listed :=
    (reported.accepted silent i listed).imp fun _ here =>
      acceptedHandle?_of_grows growth here

theorem reported_declare (r : Registry) (doc : Document) :
    Reported (doc.declare r).1 doc (doc.declare r).2 where
  raises := raises_declare doc r
  accepted silent _ listed := acceptedHandle?_of_declare silent listed

/-- Generation has nothing to add to what the passes before it report. -/
theorem offered_of_account_eq_ok {r : Registry} (reachable : r.Reachable)
    {doc : Document} {before : List Diagnostic}
    (reported : Reported r doc before) {a : Account}
    (accounted : account r doc before = .ok a) :
    a.offered = doc.allReports r before := by
  obtain ⟨_, generation, generated, rfl⟩ := account_eq_ok accounted
  change doc.allReports r before ++ generation.reports = _
  suffices generation.reports = [] by rw [this, List.append_nil]
  change generateUnless ((doc.allReports r before).any isError) _ _ _ =
    _ at generated
  cases found : (doc.allReports r before).any isError with
  | true =>
      rw [found] at generated
      cases generated
      rfl
  | false =>
      rw [found] at generated
      obtain ⟨undeclared, unresolved, unchecked⟩ :=
        silent_of_allReports reported.raises found
      obtain ⟨methods, made, _⟩ :=
        exists_generated_of_silent (c := ⟨⟨.shared, .standard, false⟩, r⟩)
          reachable (reported.accepted undeclared) unresolved unchecked
      cases made.symm.trans generated
      rfl

def Account.output (a : Account) (options : Options) : Output where
  file := a.file
  methods := a.methods
  diagnostics := ((Queue.empty options.policy).addAll a.offered).flushed
  typeDump := if options.dumpTypes then some a.registry.dump else none

theorem finish_eq (c : Compiler) (doc : Document) (before : List Diagnostic) :
    c.finish doc ((Queue.empty c.options.policy).addAll before) =
      (account c.registry doc before).map fun a =>
        (a.output c.options, { c with registry := a.registry }) := by
  unfold Compiler.finish account
  dsimp only
  generalize doc.resolve c.registry = resolved
  generalize checkInterfaces doc resolved.registry resolved.result = review
  cases review.findings.dangling with
  | some h => rfl
  | none =>
      dsimp only
      rw [← addAll_append, ← addAll_append, hasErrors_offered,
        ← List.append_assoc]
      cases generateUnless _ resolved.registry doc review.kept with
      | error h => rfl
      | ok generation =>
          simp only [bind, Except.bind, pure, Except.pure, Except.map,
            ← addAll_append]
          rfl

theorem compile_eq (c : Compiler) (doc : Document) :
    c.compile doc =
      (account (doc.declare c.registry).1 doc (doc.declare c.registry).2).map
        fun a => (a.output c.options, { c with registry := a.registry }) :=
  finish_eq (c.declare doc).2 doc (doc.declare c.registry).2

/-- What a session has come to, whatever the policy. -/
structure Ledger where
  registry : Registry
  declared : List (Document × List Diagnostic)
  accounts : List Account

namespace Ledger

def new : Ledger := ⟨.standard, [], []⟩

def enter (l : Ledger) (a : Account) : Ledger :=
  { l with registry := a.registry, accounts := l.accounts ++ [a] }

def step (l : Ledger) : Request → Except Handle Ledger
  | .declare doc =>
      let (registry, reports) := doc.declare l.registry
      .ok { l with registry := registry, declared :=
        l.declared ++ [(doc, reports)] }
  | .finish position =>
      match l.declared[position]? with
      | none => .ok l
      | some (doc, reports) => (account l.registry doc reports).map l.enter
  | .compile doc =>
      let (registry, reports) := doc.declare l.registry
      (account registry doc reports).map l.enter

def run (l : Ledger) : List Request → Except Handle Ledger
  | [] => .ok l
  | request :: rest =>
      match l.step request with
      | .ok next => next.run rest
      | .error h => .error h

/-- The queue of a declared document under a policy. -/
def queued (policy : Policy) (entry : Document × List Diagnostic) :
    Document × Queue :=
  (entry.1, (Queue.empty policy).addAll entry.2)

def session (l : Ledger) (options : Options) : Session where
  compiler := ⟨options, l.registry⟩
  declared := l.declared.map (queued options.policy)
  outputs := l.accounts.map (Account.output · options)

variable (l : Ledger) (options : Options)

theorem session_enter (a : Account) :
    (l.enter a).session options = { l.session options with
      compiler := ⟨options, a.registry⟩
      outputs := (l.session options).outputs ++ [a.output options] } := by
  simp [enter, session]

theorem step_session (request : Request) :
    (l.session options).step request =
      (l.step request).map (Ledger.session · options) := by
  cases request with
  | declare doc =>
      simp [Session.step, step, session, queued, Compiler.declare, Except.map]
  | finish position =>
      simp only [Session.step, step, session, List.getElem?_map]
      cases found : l.declared[position]? with
      | none => rfl
      | some entry =>
          obtain ⟨doc, reports⟩ := entry
          have finished := finish_eq ⟨options, l.registry⟩ doc reports
          dsimp only [Option.map_some, queued] at finished ⊢
          rw [finished]
          cases account l.registry doc reports with
          | error h => rfl
          | ok a => exact congrArg Except.ok (l.session_enter options a).symm
  | compile doc =>
      have compiled := compile_eq ⟨options, l.registry⟩ doc
      simp only [Session.step, step, session]
      rw [compiled]
      cases account (doc.declare l.registry).1 doc
        (doc.declare l.registry).2 with
      | error h => rfl
      | ok a => exact congrArg Except.ok (l.session_enter options a).symm

theorem run_session (requests : List Request) :
    (l.session options).run requests =
      (l.run requests).map (Ledger.session · options) := by
  induction requests generalizing l with
  | nil => rfl
  | cons request rest induction =>
      simp only [Session.run, run, step_session]
      cases l.step request with
      | error h => rfl
      | ok next => exact induction next

end Ledger

theorem options_of_run {options : Options} {requests : List Request}
    {s : Session} (done : (Session.new options).run requests = .ok s) :
    s.compiler.options = options := by
  obtain ⟨l, _, rfl⟩ :=
    map_eq_ok_iff.mp ((Ledger.new.run_session options requests).symm.trans done)
  rfl

/-- The documents with the reports of their declarations, on one registry. -/
def reportAll (r : Registry) :
    List Document → List (Document × List Diagnostic) × Registry
  | [] => ([], r)
  | doc :: rest =>
      let (declared, reports) := doc.declare r
      let (others, final) := reportAll declared rest
      ((doc, reports) :: others, final)

def accountAll (r : Registry) :
    List (Document × List Diagnostic) → Except Handle (List Account)
  | [] => .ok []
  | (doc, reports) :: rest => do
      let a ← account r doc reports
      let others ← accountAll a.registry rest
      return a :: others

def accountBatch (mode : RegistryMode) (docs : List Document) :
    Except Handle (List Account) :=
  match mode with
  | .shared =>
      let (declared, r) := reportAll .standard docs
      accountAll r declared
  | .perFile =>
      docs.mapM fun doc =>
        account (doc.declare .standard).1 doc (doc.declare .standard).2

theorem declareAll_eq (c : Compiler) (docs : List Document) :
    c.declareAll docs =
      ((reportAll c.registry docs).1.map (Ledger.queued c.options.policy),
        { c with registry := (reportAll c.registry docs).2 }) := by
  induction docs generalizing c with
  | nil => rfl
  | cons doc rest induction =>
      simp only [declareAll, induction]
      rfl

theorem finishAll_eq (c : Compiler)
    (entries : List (Document × List Diagnostic)) :
    c.finishAll (entries.map (Ledger.queued c.options.policy)) =
      (accountAll c.registry entries).map
        (List.map (Account.output · c.options)) := by
  induction entries generalizing c with
  | nil => rfl
  | cons entry rest induction =>
      obtain ⟨doc, reports⟩ := entry
      simp only [List.map_cons, Ledger.queued, finishAll, finish_eq, accountAll]
      cases account c.registry doc reports with
      | error h => rfl
      | ok a =>
          have others := induction { c with registry := a.registry }
          simp only [Except.map, bind, Except.bind] at others ⊢
          rw [others]
          cases accountAll a.registry rest with
          | error h => rfl
          | ok more => rfl

theorem compileBatch_eq (options : Options) (docs : List Document) :
    compileBatch options docs = (accountBatch options.registryMode docs).map
      (List.map (Account.output · options)) := by
  unfold compileBatch accountBatch
  cases options.registryMode with
  | shared =>
      simp only [compileShared, declareAll_eq]
      exact finishAll_eq ⟨options, (reportAll .standard docs).2⟩
        (reportAll .standard docs).1
  | perFile =>
      simp only [compilePerFile, compile_eq, new]
      induction docs with
      | nil => rfl
      | cons doc rest induction =>
          rw [List.mapM_cons, List.mapM_cons, induction]
          cases account (doc.declare .standard).1 doc
            (doc.declare .standard).2 with
          | error h => rfl
          | ok a =>
              cases rest.mapM fun doc =>
                  account (doc.declare .standard).1 doc
                    (doc.declare .standard).2 with
              | error h => rfl
              | ok more => rfl

end BinderIdl.Compiler
