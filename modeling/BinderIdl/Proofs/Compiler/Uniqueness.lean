import BinderIdl.Proofs.Compiler.Policy
import BinderIdl.Proofs.Document.Declaration

namespace BinderIdl

open Diagnostic Document BinderIdl.Types

namespace Document

variable {r : Registry} {doc : Document}

def Interface.methodNames (i : Interface) :
    List String := i.methods.map Method.name

/-- The names seen so far stand for the methods in front. -/
theorem distinct_of_checkMethods (formed : r.WellFormed) {seen : List String}
    {methods : List ResolvedMethod} (known : ∀ m ∈ methods, m.Known r)
    (silent : (checkMethods doc r seen methods).findings.complaints = []) :
    (∀ m ∈ methods, m.name ∉ seen) ∧
    (methods.map ResolvedMethod.name).Nodup := by
  induction methods generalizing seen with
  | nil => exact ⟨nofun, List.nodup_nil⟩
  | cons m rest induction =>
      obtain ⟨here, later⟩ := List.forall_mem_cons.mp known
      have going :=
        Findings.dangling_append (dangling_checkMethod doc formed here)
          (Findings.dangling_complaintIf (seen.contains m.name)
            (.errorAt .duplicateName (doc.site m.line) ("method " ++ m.name ++
                " is declared more than once") "redeclared here"))
      simp only [checkMethods, going, Findings.complaints_append _ going,
        List.append_eq_nil_iff] at silent
      have clean := (Findings.isClean_iff _).mpr ⟨silent.1, going⟩
      have unseen := (Findings.isClean_complaintIf _ _).mp
        ((Findings.isClean_append _ _).mp clean).2
      obtain ⟨others, distinct⟩ := induction later silent.2
      refine ⟨List.forall_mem_cons.mpr
        ⟨by simpa using unseen, fun k listed member => ?_⟩, ?_⟩
      · exact others k listed (List.mem_cons_of_mem _ member)
      · refine List.nodup_cons.mpr ⟨fun repeated => ?_, distinct⟩
        obtain ⟨k, listed, same⟩ := List.mem_map.mp repeated
        exact others k listed (same ▸ List.mem_cons_self)

theorem distinct_of_checkInterfaces (formed : r.WellFormed)
    {interfaces : List ResolvedInterface} (known : ∀ i ∈ interfaces, i.Known r)
    (silent : (checkInterfaces doc r interfaces).findings.complaints = []) :
    ∀ i ∈ interfaces, (i.methods.map ResolvedMethod.name).Nodup := by
  induction interfaces with
  | nil => nofun
  | cons i rest induction =>
      obtain ⟨here, later⟩ := List.forall_mem_cons.mp known
      have going := (checkMethods_complete formed doc [] here.methods).dangling
      simp only [checkInterfaces, checkInterface, going,
        Findings.complaints_append _ going, List.append_eq_nil_iff] at silent
      exact List.forall_mem_cons.mpr ⟨(distinct_of_checkMethods formed
          here.methods silent.1).2, induction later silent.2⟩

theorem methodNames_of_resolveInterfaces {interfaces : List Interface}
    (accepted : ∀ i ∈ interfaces, ∃ h, acceptedHandle? doc r i = some h)
    (silent : (resolveInterfaces doc r interfaces).reports = []) :
    (resolveInterfaces doc r interfaces).result.map
      (fun i => i.methods.map ResolvedMethod.name) =
      interfaces.map Interface.methodNames := by
  induction interfaces generalizing r with
  | nil => rfl
  | cons i rest induction =>
      obtain ⟨⟨h, here⟩, later⟩ := List.forall_mem_cons.mp accepted
      simp only [resolveInterfaces, here, List.append_eq_nil_iff] at silent ⊢
      have grew := (resolveMethods_orderly doc i r i.methods).grows
      have others := induction
        (fun k listed => (later k listed).imp fun _ known =>
          acceptedHandle?_of_grows grew known)
        silent.2
      rw [List.map_cons, List.map_cons, others,
        names_of_resolveMethods silent.1]
      rfl

theorem qualify_injective (package : String) :
    Function.Injective (qualify package) := by
  intro name other same
  unfold qualify at same
  split at same
  · exact same
  · exact (String.append_right_inj _).mp same

/-- Declarations of one name that are all accepted are the same. -/
theorem eq_of_declareItems {items : List Item}
    (silent : (declareItems doc r items).2 = []) {i j : Interface}
    (listed : Item.interface i ∈ items) (also : Item.interface j ∈ items)
    (name : i.name = j.name) : i.line = j.line ∧ i.oneway = j.oneway := by
  have first := ownerType?_of_declareItems silent (List.mem_map_of_mem listed)
  have second := ownerType?_of_declareItems silent (List.mem_map_of_mem also)
  have names : (Item.descriptor doc (.interface i)).qualifiedName =
      (Item.descriptor doc (.interface j)).qualifiedName :=
    congrArg (qualify doc.package) name
  rw [names, second] at first
  simp only [Option.some.injEq, Item.descriptor, Descriptor.interface,
    Descriptor.mk.injEq, Strategy.interface.injEq, site, Source.Site.mk.injEq,
    true_and] at first
  exact ⟨first.2.1.symm, first.2.2.symm⟩

theorem headers_eq (doc : Document) (i : Interface) :
    i.headers doc =
      i.methodNames.map (Prod.mk (qualify doc.package i.name)) := by
  simp [Interface.headers, Interface.methodNames]

theorem disjoint_headers_iff (doc : Document) (i j : Interface) :
    (i.headers doc).Disjoint (j.headers doc) ↔
      (i.name = j.name → i.methodNames.Disjoint j.methodNames) := by
  rw [headers_eq, headers_eq]
  constructor
  · intro apart name word one other
    exact apart (List.mem_map_of_mem one) (name ▸ List.mem_map_of_mem other)
  · intro apart header one other
    obtain ⟨word, listed, rfl⟩ := List.mem_map.mp one
    obtain ⟨word', also, same⟩ := List.mem_map.mp other
    obtain ⟨names, rfl⟩ := Prod.mk.inj same
    exact apart (qualify_injective _ names).symm listed also

/-- The headers of a document are distinct iff no name is shared, neither within
an interface item nor between items of one name. -/
theorem nodup_headers_iff (doc : Document) :
    doc.headers.Nodup ↔ (∀ i ∈ doc.interfaces, i.methodNames.Nodup) ∧
      doc.interfaces.Pairwise fun i j =>
        i.name = j.name → i.methodNames.Disjoint j.methodNames := by
  rw [headers, List.nodup_flatMap]
  refine and_congr (forall₂_congr fun i _ => ?_) (List.Pairwise.iff fun i j =>
    disjoint_headers_iff doc i j)
  rw [headers_eq, List.nodup_map_iff fun _ _ same => (Prod.mk.inj same).2]

end Document

namespace Compiler

/-- Without an error, the methods of a document are all generated, and an
interface item names each of its methods once. Items of one name are then the
same declaration, on one line and with one oneway flag; and the methods have
different headers unless such items share a name. -/
theorem generated_methods_are_unique_iff {c : Compiler}
    (reachable : c.registry.Reachable) (doc : Document) :
    ∃ output next, c.compile doc = .ok (output, next) ∧
      (output.hasErrors = false → output.headers = doc.headers ∧
        (∀ i ∈ doc.interfaces, i.methodNames.Nodup) ∧
        (∀ i ∈ doc.interfaces, ∀ j ∈ doc.interfaces,
          i.name = j.name → i.line = j.line ∧ i.oneway = j.oneway) ∧
        (output.headers.Nodup ↔ doc.interfaces.Pairwise fun i j =>
          i.name = j.name → i.methodNames.Disjoint j.methodNames)) := by
  obtain ⟨output, next, compiled, finished⟩ := exists_compiled reachable doc
  refine ⟨output, next, compiled, fun clean => ?_⟩
  have headers : output.headers = doc.headers := by
    rcases finished.complete with ⟨errors, _⟩ | ⟨_, headers⟩
    · cases clean.symm.trans errors
    · exact headers
  rw [compile_eq] at compiled
  obtain ⟨a, accounted, done⟩ := map_eq_ok_iff.mp compiled
  cases done
  rw [a.hasErrors_output] at clean
  have declared := reachable.grows (declareItems_grows doc c.registry doc.items)
  have reported := reported_declare c.registry doc
  rw [offered_of_account_eq_ok declared reported accounted] at clean
  obtain ⟨silent, resolved, checked⟩ :=
    silent_of_allReports reported.raises clean
  have formed := (declared.grows (resolve_orderly doc _).grows).wellFormed
  have names := methodNames_of_resolveInterfaces
    (fun i listed => acceptedHandle?_of_declare silent listed) resolved
  have distinct : ∀ i ∈ doc.interfaces, i.methodNames.Nodup := by
    intro i listed
    obtain ⟨made, member, same⟩ :=
      List.mem_map.mp (names ▸ List.mem_map_of_mem listed)
    exact same ▸ distinct_of_checkInterfaces formed
      (fun _ => known_of_mem_resolve) checked made member
  -- The check goes through one item at a time, so nothing is known of two items
  -- of one name.
  refine ⟨headers, distinct, ?_, ?_⟩
  · intro i listed j also name
    exact eq_of_declareItems silent (mem_interfaces_iff.mp listed)
      (mem_interfaces_iff.mp also) name
  · rw [headers, nodup_headers_iff]
    exact and_iff_right distinct

theorem generated_methods_are_unique_iff_echo :
    ∃ output next,
      (new ⟨.shared, .standard, false⟩).compile echo = .ok (output, next) ∧
      output.headers = [("a.b.Echo", "send")] ∧ output.headers.Nodup := by
  let c : Compiler := new ⟨.shared, .standard, false⟩
  have silent : (c.compile echo).toOption.map (fun made => made.1.hasErrors) =
      some false := by
    decide +kernel
  obtain ⟨output, next, compiled, unique⟩ :=
    generated_methods_are_unique_iff (c := c) Registry.reachable_standard echo
  rw [compiled] at silent
  obtain ⟨headers, _, _, nodup⟩ := unique (Option.some.inj silent)
  exact ⟨output, next, compiled, headers,
    nodup.mpr (List.pairwise_singleton _ _)⟩

/-- An interface that is declared twice on one line, with the same method in
both places. -/
def doubled : Document where
  package := "a.b"
  file := "Doubled.aidl"
  items := [.interface
    ⟨"Doubled", 1, false, [⟨"send", 2, false, ⟨"void", false, 2⟩, []⟩]⟩,
    .interface ⟨"Doubled", 1, false,
      [⟨"send", 3, false, ⟨"void", false, 3⟩, []⟩]⟩]

/-- It compiles without an error, and the method is generated twice. -/
theorem generated_methods_are_not_unique_doubled :
    ∃ output next,
      (new ⟨.shared, .standard, false⟩).compile doubled = .ok (output, next) ∧
      output.hasErrors = false ∧ ¬ output.headers.Nodup := by
  have twice : ((new ⟨.shared, .standard, false⟩).compile doubled).toOption.map
      (fun made => (made.1.hasErrors, decide made.1.headers.Nodup)) =
        some (false, false) := by decide +kernel
  cases made : (new ⟨.shared, .standard, false⟩).compile doubled with
  | error h => simp [made, Except.toOption] at twice
  | ok result => exact ⟨_, _, rfl, by simpa [made, Except.toOption] using twice⟩

end Compiler

end BinderIdl
