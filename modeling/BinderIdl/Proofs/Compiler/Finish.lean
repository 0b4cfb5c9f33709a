import BinderIdl.Compiler.Basic
import BinderIdl.Proofs.Diagnostic.Queue
import BinderIdl.Proofs.Method.Generation

namespace BinderIdl

open Diagnostic Diagnostic.Queue Document BinderIdl.Types

/-- The methods of the interfaces of a document, each under the name of
its interface. -/
def Document.headers (doc : Document) : List (String × String) :=
  doc.interfaces.flatMap (Interface.headers doc)

namespace Compiler

def Output.headers (o : Output) : List (String × String) :=
  o.methods.map fun m => (m.interface, m.name)

/-- Nothing is lost silently. -/
def Output.Complete (doc : Document) (o : Output) : Prop :=
  o.hasErrors = true ∧
    o.methods = [] ∨ o.hasErrors = false ∧ o.headers = doc.headers

/-- No diagnostic blames the compiler. -/
def Output.NoInternalError (o : Output) : Prop :=
  ∀ d ∈ o.diagnostics, d.code ≠ .internalError

theorem generateMethods_eq_ok {r : Registry} (formed : r.WellFormed)
    (doc : Document) {i : ResolvedInterface} {owner : Descriptor}
    (known : r.get? i.handle = some owner) {methods : List ResolvedMethod}
    (legal : ∀ m ∈ methods, LegalMethod r m) :
    ∃ generated, generateMethods r doc i methods = .ok ⟨generated, []⟩ ∧
      generated.map (fun g => (g.interface, g.name)) =
        methods.map fun m => (owner.qualifiedName, m.name) := by
  induction methods with
  | nil => exact ⟨[], rfl, rfl⟩
  | cons m rest induction =>
      obtain ⟨here, later⟩ := List.forall_mem_cons.mp legal
      obtain ⟨g, made, interface, name⟩ :=
        Method.exists_generated formed known here
      obtain ⟨others, done, names⟩ := induction later
      refine ⟨g :: others, ?_, ?_⟩
      · simp [generateMethods, made, done, bind, Except.bind, pure, Except.pure]
      · rw [List.map_cons, List.map_cons, names, interface, name]

theorem generateInterfaces_eq_ok {r : Registry} (formed : r.WellFormed)
    (doc : Document) {interfaces : List ResolvedInterface}
    (known : ∀ i ∈ interfaces, ∃ owner, r.get? i.handle = some owner)
    (legal : ∀ i ∈ interfaces, ∀ m ∈ i.methods, LegalMethod r m) :
    ∃ generated, generateInterfaces r doc interfaces = .ok ⟨generated, []⟩ ∧
      generated.map (fun g => (some g.interface, g.name)) =
        interfaces.flatMap (ResolvedInterface.headers r) := by
  induction interfaces with
  | nil => exact ⟨[], rfl, rfl⟩
  | cons i rest induction =>
      obtain ⟨⟨owner, here⟩, knownLater⟩ := List.forall_mem_cons.mp known
      obtain ⟨legalHere, legalLater⟩ := List.forall_mem_cons.mp legal
      obtain ⟨first, made, headers⟩ :=
        generateMethods_eq_ok formed doc here legalHere
      obtain ⟨others, done, otherHeaders⟩ := induction knownLater legalLater
      refine ⟨first ++ others, ?_, ?_⟩
      · simp [generateInterfaces, made, done, bind, Except.bind, pure,
          Except.pure]
      · have own :
            first.map (fun g => (some g.interface, g.name)) = i.headers r := by
          simpa [ResolvedInterface.headers, here, Function.comp_def] using
            congrArg (List.map fun header => (some header.1, header.2)) headers
        rw [List.map_append, List.flatMap_cons, own, otherHeaders]

/-- A document that a compiler has declared, with the queue of its
declaration. -/
structure Declared (c : Compiler) (doc : Document) (queue : Queue) : Prop where
  counted : queue.Counted
  held : ∀ d ∈ queue.held, d.IsUserError
  accepted : queue.hasErrors = false →
    ∀ i ∈ doc.interfaces, ∃ h, acceptedHandle? doc c.registry i = some h

theorem Declared.grows {c grown : Compiler} {doc : Document} {queue : Queue}
    (declared : Declared c doc queue)
    (growth : c.registry.Grows grown.registry) :
    Declared grown doc queue where
  counted := declared.counted
  held := declared.held
  accepted silent i listed :=
    (declared.accepted silent i listed).imp fun _ here =>
      acceptedHandle?_of_grows growth here

/-- A later compiler: the same options, on a registry that has grown. -/
structure Later (c next : Compiler) : Prop where
  options : next.options = c.options
  grows : c.registry.Grows next.registry

theorem Later.refl (c : Compiler) : Later c c := ⟨rfl, .refl _⟩

theorem Later.trans {first second third : Compiler} (early : Later first second)
    (late : Later second third) : Later first third :=
  ⟨late.options.trans early.options, early.grows.trans late.grows⟩

theorem later_declare (c : Compiler) (doc : Document) :
    Later c (c.declare doc).2 :=
  ⟨rfl, declareItems_grows doc c.registry doc.items⟩

theorem declared_declare (c : Compiler) (doc : Document) :
    Declared (c.declare doc).2 doc (c.declare doc).1 := by
  have counted := counted_empty c.options.policy
  refine ⟨counted.addAll _, ?_, ?_⟩
  · intro d held
    rcases mem_of_mem_addAll held with before | reported
    · cases before
    · exact isUserError_of_mem_declareItems reported
  · intro silent i listed
    apply acceptedHandle?_of_declare _ listed
    apply List.eq_nil_iff_forall_not_mem.mpr
    intro d reported
    have error := (isUserError_of_mem_declareItems reported).1
    have loud := counted.hasErrors_addAll reported error
    cases silent.symm.trans loud

theorem hasErrors_of_mem_addAll {q : Queue} (counted : q.Counted)
    {ds : List Diagnostic} (errors : ∀ d ∈ ds, d.IsUserError)
    (silent : (q.addAll ds).hasErrors = false) :
    q.hasErrors = false ∧ ds = [] := by
  constructor
  · by_contra had
    have loud := hasErrors_addAll_of_hasErrors (by simpa using had) ds
    cases silent.symm.trans loud
  · apply List.eq_nil_iff_forall_not_mem.mpr
    intro d offered
    have loud := counted.hasErrors_addAll offered (errors d offered).1
    cases silent.symm.trans loud

theorem code_ne_internalError_of_mem_flushed {q : Queue}
    (held : ∀ d ∈ q.held, d.IsUserError) {d : Diagnostic}
    (out : d ∈ q.flushed) : d.code ≠ .internalError := by
  rcases mem_flushed out with known | rfl
  · exact (held d known).2
  · exact nofun

/-- What finishing a declared document comes to. -/
structure Finished (c : Compiler) (doc : Document) (output : Output)
    (next : Compiler) : Prop where
  complete : output.Complete doc
  noInternalError : output.NoInternalError
  later : Later c next

theorem exists_generated_of_silent {c : Compiler}
    (reachable : c.registry.Reachable) {doc : Document}
    (accepted : ∀ i ∈ doc.interfaces,
      ∃ h, acceptedHandle? doc c.registry i = some h)
    (resolved : (doc.resolve c.registry).reports = [])
    (checked : (checkInterfaces doc (doc.resolve c.registry).registry
        (doc.resolve c.registry).result).findings.complaints = []) :
    ∃ generated, generateInterfaces (doc.resolve c.registry).registry doc
        (checkInterfaces doc (doc.resolve c.registry).registry
          (doc.resolve c.registry).result).kept = .ok ⟨generated, []⟩ ∧
      generated.map (fun g => (g.interface, g.name)) = doc.headers := by
  have orderly := resolve_orderly doc c.registry
  have formed := (reachable.grows orderly.grows).wellFormed
  have review :=
    checkInterfaces_complete formed doc fun _ => known_of_mem_resolve
  have kept := review.silent checked
  have legal : ∀ i ∈ (doc.resolve c.registry).result, ∀ m ∈ i.methods,
      LegalMethod (doc.resolve c.registry).registry m := by
    intro i listed m member
    obtain ⟨_, _, _, methods⟩ := review.kept i (by rwa [kept])
    exact (methods m member).2
  obtain ⟨generated, made, names⟩ := generateInterfaces_eq_ok formed doc
    (fun i listed => (known_of_mem_resolve listed).handle) legal
  refine ⟨generated, by rwa [kept], ?_⟩
  have headers := headers_of_resolveInterfaces accepted resolved (.refl _)
  have wrap : Function.Injective fun header :
      String × String => (some header.1, header.2) := by
    rintro ⟨interface, name⟩ ⟨otherInterface, otherName⟩ same
    simpa using same
  apply List.map_injective_iff.mpr wrap
  rw [List.map_map, Document.headers, List.map_flatMap]
  exact names.trans headers

theorem exists_finished {c : Compiler} (reachable : c.registry.Reachable)
    {doc : Document} {queue : Queue} (declared : Declared c doc queue) :
    ∃ output next,
      c.finish doc queue = .ok (output, next) ∧ Finished c doc output next := by
  have orderly := resolve_orderly doc c.registry
  have formed := (reachable.grows orderly.grows).wellFormed
  have review :=
    checkInterfaces_complete formed doc fun _ => known_of_mem_resolve
  let resolved := doc.resolve c.registry
  let found := (checkInterfaces doc resolved.registry resolved.result).findings
  let checked := (queue.addAll resolved.reports).addAll found.complaints
  have going : found.dangling = none := review.dangling
  have counted : checked.Counted := (declared.counted.addAll _).addAll _
  have held : ∀ d ∈ checked.held, d.IsUserError := by
    intro d known
    rcases mem_of_mem_addAll known with before | complained
    · rcases mem_of_mem_addAll before with first | reported
      · exact declared.held d first
      · exact orderly.reports d reported
    · exact review.reports d complained
  let next : Compiler := { c with registry := resolved.registry }
  have later : Later c next := ⟨rfl, orderly.grows⟩
  let output (methods : List Method.Generated) : Output :=
    { file := doc.file
      methods := methods
      diagnostics := checked.flushed
      typeDump :=
        if c.options.dumpTypes then some resolved.registry.dump else none }
  have clean (methods : List Method.Generated) :
      (output methods).NoInternalError :=
    fun _ out => code_ne_internalError_of_mem_flushed held out
  have finish {methods : List Method.Generated}
      (generated : generateUnless checked.hasErrors resolved.registry doc
        (checkInterfaces doc resolved.registry resolved.result).kept =
        .ok ⟨methods, []⟩) :
      c.finish doc queue = .ok (output methods, next) := by
    unfold Compiler.finish
    dsimp only
    split
    · next h dangles => cases going.symm.trans dangles
    · change (generateUnless checked.hasErrors _ _ _ >>= _) = _
      rw [generated]
      rfl
  cases errors : checked.hasErrors with
  | true =>
      refine ⟨output [], next, finish (by rw [errors]; rfl), .inl ⟨?_, rfl⟩,
        clean [], later⟩
      exact counted.any_isError_flushed.trans errors
  | false =>
      obtain ⟨silent, noComplaints⟩ :=
        hasErrors_of_mem_addAll (declared.counted.addAll _)
          review.reports errors
      obtain ⟨quiet, noReports⟩ :=
        hasErrors_of_mem_addAll declared.counted orderly.reports silent
      obtain ⟨methods, made, headers⟩ :=
        exists_generated_of_silent reachable (declared.accepted quiet) noReports
          noComplaints
      refine ⟨output methods, next, finish (by rw [errors]; exact made),
        .inr ⟨?_, headers⟩, clean methods, later⟩
      exact counted.any_isError_flushed.trans errors

end Compiler

end BinderIdl
