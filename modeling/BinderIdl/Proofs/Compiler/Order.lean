import BinderIdl.Proofs.Compiler.Session
import BinderIdl.Proofs.Document.Declaration
import BinderIdl.Proofs.Method.Alike

/-! The order of the documents of a batch. Documents on one registry may refer
to each other, so the order decides about handles and about the moment when an
instance is made; but the registries are alike at every moment, so no document
comes out differently. -/

namespace BinderIdl.Compiler

open Diagnostic Document BinderIdl.Types Registry

variable {r s : Registry}

theorem generateMethods_eq (peers : r.Peers s) (doc : Document)
    {i j : ResolvedInterface} (owner : SameType r s i.handle j.handle)
    {ms ns : List ResolvedMethod}
    (same : List.Forall₂ (ResolvedMethod.Same r s) ms ns) :
    generateMethods r doc i ms = generateMethods s doc j ns := by
  induction same with
  | nil => rfl
  | cons here _ induction =>
      simp only [generateMethods, Method.generate_eq peers owner here,
        here.line, induction]

theorem generateInterfaces_eq (peers : r.Peers s) (doc : Document)
    {is js : List ResolvedInterface}
    (same : List.Forall₂ (ResolvedInterface.Same r s) is js) :
    generateInterfaces r doc is = generateInterfaces s doc js := by
  induction same with
  | nil => rfl
  | cons here _ induction =>
      simp only [generateInterfaces,
        generateMethods_eq peers doc here.handle here.methods, induction]

theorem generateUnless_eq (peers : r.Peers s) (errors : Bool) (doc : Document)
    {is js : List ResolvedInterface}
    (same : List.Forall₂ (ResolvedInterface.Same r s) is js) :
    generateUnless errors r doc is = generateUnless errors s doc js := by
  unfold generateUnless
  rw [generateInterfaces_eq peers doc same]

/-- What is made of a document, but for the dump of the registry. -/
structure View where
  file : String
  methods : List Method.Generated
  diagnostics : List Diagnostic

def Output.view (o : Output) : View := ⟨o.file, o.methods, o.diagnostics⟩

theorem unmarked_interfaces {doc : Document} (unmarked : doc.Unmarked) :
    ∀ i ∈ doc.interfaces, Types.Unmarked (qualify doc.package i.name) := by
  intro i listed
  obtain ⟨package, name⟩ :=
    unmarked _ (List.mem_map_of_mem (mem_interfaces_iff.mp listed))
  exact package.qualify name

theorem finish_alike {c d : Compiler} (alike : c.registry.Alike d.registry)
    {doc : Document} (unmarked : doc.Unmarked) (queue : Queue) :
    Matched (fun first second => first.1.view = second.1.view)
      (c.finish doc queue) (d.finish doc queue) := by
  have resolved := resolveInterfaces_alike alike (unmarked_interfaces unmarked)
  obtain ⟨kept, findings⟩ :=
    checkInterfaces_alike resolved.after.peers doc resolved.result
  unfold Compiler.finish
  dsimp only [Document.resolve]
  rw [findings, resolved.reports]
  split
  · exact .error _
  · rw [generateUnless_eq resolved.after.peers _ doc kept]
    cases generateUnless _
      (resolveInterfaces doc d.registry doc.interfaces).registry doc _ with
    | error h => exact .error h
    | ok generation => exact .ok rfl

theorem registry_of_finish_eq_ok {c next : Compiler} {doc : Document}
    {queue : Queue} {output : Output}
    (finished : c.finish doc queue = .ok (output, next)) :
    next.registry = (doc.resolve c.registry).registry := by
  unfold Compiler.finish at finished
  dsimp only at finished
  split at finished
  · cases finished
  · obtain ⟨generation, _, done⟩ := bind_eq_ok_iff.mp finished
    cases done
    rfl

/-- What a compiler would make of a document at once. -/
def viewOf (c : Compiler) (entry : Document × Queue) : Option View :=
  (c.finish entry.1 entry.2).toOption.map fun done => done.1.view

theorem views_of_finishAll {c base : Compiler}
    (alike : c.registry.Alike base.registry) {entries : List (Document × Queue)}
    (unmarked : ∀ entry ∈ entries, entry.1.Unmarked) {outputs : List Output}
    (finished : c.finishAll entries = .ok outputs) :
    outputs.map (fun o => some o.view) = entries.map base.viewOf := by
  induction entries generalizing c outputs with
  | nil =>
      cases finished
      rfl
  | cons entry rest induction =>
      obtain ⟨doc, queue⟩ := entry
      obtain ⟨here, others⟩ := List.forall_mem_cons.mp unmarked
      have matched := finish_alike alike here queue
      obtain ⟨⟨output, next⟩, done, rest⟩ := bind_eq_ok_iff.mp finished
      obtain ⟨more, later, listed⟩ := bind_eq_ok_iff.mp rest
      cases listed
      have looks := resolveInterfaces_looks doc c.registry doc.interfaces
      have after : next.registry.Alike base.registry := by
        rw [registry_of_finish_eq_ok done]
        exact (alike.left.looks looks).symm.trans alike
      rw [List.map_cons, List.map_cons, induction after others later]
      congr 1
      rw [done] at matched
      unfold viewOf
      generalize base.finish doc queue = other at matched ⊢
      cases matched with
      | ok same => exact congrArg some same

/-- The queue of a document whose types were declared on the way to `r`. -/
def queueOf (options : Options) (r : Registry) (doc : Document) : Queue :=
  (Queue.empty options.policy).addAll <| doc.items.flatMap fun item =>
    objections doc item (r.ownerType? (item.descriptor doc).qualifiedName)

theorem declareAll_queues (c : Compiler) (docs : List Document)
    {later : Registry}
    (grew : (c.declareAll docs).2.registry.types <+: later.types) :
    (c.declareAll docs).1 =
      docs.map fun doc => (doc, queueOf c.options later doc) := by
  induction docs generalizing c with
  | nil => rfl
  | cons doc rest induction =>
      have first :=
        (later_declareAll (c.declare doc).2 rest).grows.types_grow.trans grew
      have reports := congrArg (Queue.empty c.options.policy).addAll
        (reports_declareItems first)
      exact congrArg₂ List.cons (Prod.ext rfl reports)
        (induction (c.declare doc).2 grew)

theorem settled_declareAll {c : Compiler} (settled : Settled c.registry)
    {docs : List Document} (unmarked : ∀ doc ∈ docs, doc.Unmarked) :
    Settled (c.declareAll docs).2.registry ∧
      (c.declareAll docs).2.registry.templates = c.registry.templates := by
  induction docs generalizing c with
  | nil => exact ⟨settled, rfl⟩
  | cons doc rest induction =>
      obtain ⟨here, others⟩ := List.forall_mem_cons.mp unmarked
      obtain ⟨first, kept⟩ :=
        settled_declareItems settled doc.items fun item listed =>
          here _ (List.mem_map_of_mem listed)
      obtain ⟨final, keptLater⟩ :=
        induction (c := (c.declare doc).2) first others
      exact ⟨final, keptLater.trans kept⟩

theorem ownerType?_declareAll (c : Compiler) (docs : List Document)
    (name : String) :
    (c.declareAll docs).2.registry.ownerType? name =
      (c.registry.ownerType? name).or ((docs.flatMap Document.declared).find?
        fun d => d.qualifiedName == name) := by
  induction docs generalizing c with
  | nil => exact (Option.or_none).symm
  | cons doc rest induction =>
      have first := ownerType?_declareItems doc c.registry doc.items name
      change ((c.declare doc).2.declareAll rest).2.registry.ownerType? name = _
      rw [induction, List.flatMap_cons, List.find?_append, ← Option.or_assoc]
      exact congrArg (Option.or · _) first

/-- No name is declared by two different documents. -/
def Disjoint (docs : List Document) : Prop :=
  ∀ a ∈ docs, ∀ b ∈ docs, a ≠ b → ∀ d ∈ a.declared, ∀ e ∈ b.declared,
    d.qualifiedName ≠ e.qualifiedName

theorem Disjoint.of_subset {docs fewer : List Document}
    (disjoint : Disjoint docs) (subset : fewer ⊆ docs) : Disjoint fewer :=
  fun a first b second => disjoint a (subset first) b (subset second)

theorem find?_declared_of_perm {docs others : List Document}
    (perm : docs.Perm others) (disjoint : Disjoint docs) (name : String) :
    ((docs.flatMap Document.declared).find? fun d => d.qualifiedName == name) =
      (others.flatMap Document.declared).find? fun d =>
        d.qualifiedName == name := by
  induction perm with
  | nil => rfl
  | cons doc _ induction =>
      rw [List.flatMap_cons, List.flatMap_cons, List.find?_append,
        List.find?_append,
        induction (disjoint.of_subset (List.subset_cons_self ..))]
  | swap a b rest =>
      by_cases same : a = b
      · rw [same]
      · simp only [List.flatMap_cons, List.find?_append, ← Option.or_assoc]
        congr 1
        cases first : b.declared.find? fun d => d.qualifiedName == name with
        | none => simp
        | some d =>
            cases second : a.declared.find? fun d =>
              d.qualifiedName == name with
            | none => simp
            | some e =>
                have here := List.find?_some first
                have there := List.find?_some second
                refine absurd ?_ (disjoint a (by simp) b (by simp) same e
                  (List.mem_of_find?_eq_some second) d
                  (List.mem_of_find?_eq_some first))
                exact (beq_iff_eq.mp there).trans (beq_iff_eq.mp here).symm
  | trans first _ early late =>
      exact (early disjoint).trans (late (disjoint.of_subset first.symm.subset))

theorem declareAll_alike (options : Options) {docs others : List Document}
    (perm : docs.Perm others) (unmarked : ∀ doc ∈ docs, doc.Unmarked)
    (disjoint : Disjoint docs) :
    ((new options).declareAll docs).2.registry.Alike
        ((new options).declareAll others).2.registry ∧
      ∀ name, ((new options).declareAll docs).2.registry.ownerType? name =
        ((new options).declareAll others).2.registry.ownerType? name := by
  have settled : Settled (new options).registry :=
    ⟨wellFormed_standard, canonical_standard⟩
  obtain ⟨first, templates⟩ := settled_declareAll settled unmarked
  obtain ⟨second, otherTemplates⟩ :=
    settled_declareAll settled fun doc (listed : doc ∈ others) =>
      unmarked doc (perm.symm.subset listed)
  have owners (name : String) :
      ((new options).declareAll docs).2.registry.ownerType? name =
        ((new options).declareAll others).2.registry.ownerType? name := by
    rw [ownerType?_declareAll, ownerType?_declareAll,
      find?_declared_of_perm perm disjoint]
  refine ⟨⟨first, second, templates.trans otherTemplates.symm, fun d _ => ?_⟩,
    owners⟩
  rw [mem_types_iff first.formed.distinct,
    mem_types_iff second.formed.distinct, owners]

/-- Each document of a batch comes out as a compiler would finish it that knows
the same types. -/
theorem views_of_batch {options : Options}
    (shared : options.registryMode = .shared) {base : Compiler}
    {docs : List Document}
    (alike : ((new options).declareAll docs).2.registry.Alike base.registry)
    (owners : ∀ name, ((new options).declareAll docs).2.registry.ownerType?
      name = base.registry.ownerType? name)
    (unmarked : ∀ doc ∈ docs, doc.Unmarked) {outputs : List Output}
    (done : compileBatch options docs = .ok outputs) :
    outputs.map (fun o => some o.view) = docs.map fun doc =>
      base.viewOf (doc, queueOf options base.registry doc) := by
  have queues := declareAll_queues (new options) docs (List.prefix_refl _)
  have same :
      queueOf (new options).options ((new options).declareAll docs).2.registry =
        queueOf options base.registry := by
    funext doc
    simp only [queueOf, owners]
    rfl
  rw [same] at queues
  unfold compileBatch at done
  rw [shared] at done
  change ((new options).declareAll docs).2.finishAll
    ((new options).declareAll docs).1 = _ at done
  rw [queues] at done
  rw [views_of_finishAll alike (by simpa using unmarked) done, List.map_map]
  rfl

/-- A batch on one registry, if no name is declared by two different documents,
makes the same of each document in every order: the file, the methods and the
diagnostics. -/
theorem order_of_documents_is_irrelevant (options : Options)
    (shared : options.registryMode = .shared) (docs others : List Document)
    (perm : docs.Perm others)
    (unmarked : ∀ doc ∈ docs, ∀ d ∈ doc.declared,
      Types.Unmarked d.package ∧ Types.Unmarked d.name)
    (disjoint : ∀ a ∈ docs, ∀ b ∈ docs, a ≠ b →
      ∀ d ∈ a.declared, ∀ e ∈ b.declared, d.qualifiedName ≠ e.qualifiedName) :
    ∃ outputs otherOutputs, compileBatch options docs = .ok outputs ∧
      compileBatch options others = .ok otherOutputs ∧
      ∃ answer : Document → View, outputs.map Output.view = docs.map answer ∧
        otherOutputs.map Output.view = others.map answer := by
  obtain ⟨outputs, done, _⟩ := exists_batch options docs
  obtain ⟨otherOutputs, otherDone, _⟩ := exists_batch options others
  obtain ⟨alike, owners⟩ := declareAll_alike options perm unmarked disjoint
  -- The compiler that has declared the documents in the first order
  -- answers for both.
  have first :=
    views_of_batch shared alike.left.alike (fun _ => rfl) unmarked done
  have second :=
    views_of_batch shared alike.symm (fun name => (owners name).symm)
      (fun doc listed => unmarked doc (perm.symm.subset listed)) otherDone
  have strip {results : List Output} {batch : List Document} {f : Document →
        Option View} (all : results.map (fun o => some o.view) = batch.map f) :
      results.map Output.view =
        batch.map fun doc => (f doc).getD ⟨"", [], []⟩ := by
    simpa [Function.comp_def] using
      congrArg (List.map (Option.getD · ⟨"", [], []⟩)) all
  exact ⟨outputs, otherOutputs, done, otherDone, _, strip first, strip second⟩

def point : Document where
  package := "a.b"
  file := "Point.aidl"
  items := [.parcelable "Point" 1]

def plotter : Document where
  package := "a.b"
  file := "Plotter.aidl"
  items := [.interface ⟨"Plotter", 1, false, [⟨"draw", 2, false,
    ⟨"void", false, 2⟩, [⟨.input, ⟨"List<Point>", false, 2⟩, "points", 2⟩]⟩]⟩]

/-- The interface comes first or last; the record that it needs is declared
either way. -/
theorem order_of_documents_is_irrelevant_plotter :
    let options : Options := ⟨.shared, .standard, true⟩
    ∃ outputs otherOutputs,
      compileBatch options [point, plotter] = .ok outputs ∧
      compileBatch options [plotter, point] = .ok otherOutputs ∧
      outputs.map Output.view = (otherOutputs.map Output.view).reverse := by
  intro options
  obtain ⟨outputs, otherOutputs, done, otherDone, answer, first, second⟩ :=
    order_of_documents_is_irrelevant options rfl [point, plotter] [plotter,
      point] (.swap plotter point []) (by decide +kernel) (by decide +kernel)
  exact ⟨outputs, otherOutputs, done, otherDone, by rw [first, second]; rfl⟩

end BinderIdl.Compiler
