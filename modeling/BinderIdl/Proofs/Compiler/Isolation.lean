import BinderIdl.Proofs.Compiler.Order
import BinderIdl.Proofs.Compiler.Policy
import BinderIdl.Proofs.Document.Again
import BinderIdl.Proofs.Types.Within

namespace BinderIdl.Compiler

open Diagnostic Document BinderIdl.Types Registry

variable {r s : Registry} {doc : Document} {docs : List Document}
  {methods : List Method.Generated} {a : Account}

/-- Nothing is wrong with a document that the registry has declared. -/
structure Clean (r : Registry) (doc : Document)
    (methods : List Method.Generated) : Prop where
  resolved : (doc.resolve r).reports = []
  checked :
    (checkInterfaces doc (doc.resolve r).registry
      (doc.resolve r).result).findings = .empty
  generated : generateInterfaces (doc.resolve r).registry doc
    (checkInterfaces doc (doc.resolve r).registry (doc.resolve r).result).kept =
    .ok ⟨methods, []⟩

theorem Clean.account_eq (clean : Clean r doc methods) :
    account r doc [] =
      .ok ⟨doc.file, (doc.resolve r).registry, methods, []⟩ := by
  unfold account
  dsimp only
  rw [clean.checked, clean.resolved]
  change (generateInterfaces _ _ _ >>= _) = _
  rw [clean.generated]
  rfl

theorem Clean.within (clean : Clean r doc methods) (within : Within r s)
    (unmarked : doc.Unmarked)
    (owned : ∀ i ∈ doc.interfaces, (r.find? doc.package i.name).isSome) :
    Clean s doc methods := by
  have related := resolveInterfaces_related simulation_within within
    (unmarked_interfaces unmarked) (fun _ => owned) fun _ => clean.resolved
  have peers := related.after.peers
  obtain ⟨kept, findings⟩ := checkInterfaces_alike peers doc related.result
  exact ⟨related.reports.symm.trans clean.resolved,
    findings.symm.trans clean.checked,
    (generateInterfaces_eq peers doc kept).symm.trans clean.generated⟩

/-- A document of which a registry of its own makes an account
without errors. -/
structure Alone (doc : Document) (a : Account) : Prop where
  declared : (doc.declare .standard).2 = []
  clean : Clean (doc.declare .standard).1 doc a.methods
  file : a.file = doc.file
  offered : a.offered = []

theorem alone_of_account_eq_ok
    (accounted :
      account (doc.declare .standard).1 doc (doc.declare .standard).2 = .ok a)
    (silent : a.offered.any isError = false) : Alone doc a := by
  have grown : (doc.declare .standard).1.Reachable :=
    reachable_standard.grows (declareItems_grows doc .standard doc.items)
  have reported := reported_declare .standard doc
  -- Whatever is reported is an error, so nothing is.
  rw [offered_of_account_eq_ok grown reported accounted] at silent
  obtain ⟨declaration, resolution, complaints⟩ :=
    silent_of_allReports reported.raises silent
  obtain ⟨going, generation, generated, rfl⟩ := account_eq_ok accounted
  obtain ⟨methods, made, _⟩ :=
    exists_generated_of_silent (c := ⟨⟨.shared, .standard, false⟩, _⟩) grown
      (fun _ => acceptedHandle?_of_declare declaration) resolution complaints
  have same : (Except.ok generation : Except Handle Generation) =
      .ok ⟨methods, []⟩ := by
    rw [← generated, ← made, declaration, resolution, complaints]
    rfl
  cases same
  exact ⟨declaration,
    ⟨resolution, congrArg₂ Findings.mk complaints going, made⟩, rfl,
    by simp [declaration, resolution, complaints]⟩

/-- Documents whose types have proper names, and simple names that are found
nowhere else. -/
structure Independent (docs : List Document) : Prop where
  unmarked : ∀ doc ∈ docs, ∀ d ∈ doc.declared,
    Types.Unmarked d.package ∧ Types.Unmarked d.name
  dotless : ∀ doc ∈ docs, ∀ d ∈ doc.declared, '.' ∉ d.name.toList
  apart : ∀ a ∈ docs, ∀ b ∈ docs,
    a ≠ b → ∀ d ∈ a.declared, ∀ e ∈ b.declared, d.name ≠ e.name
  fresh : ∀ doc ∈ docs, ∀ d ∈ doc.declared, ∀ b ∈ BuiltIn.types, d.name ≠ b.name

theorem Independent.singleton (independent : Independent docs)
    (listed : doc ∈ docs) :
    Independent [doc] where
  unmarked := by simpa using independent.unmarked doc listed
  dotless := by simpa using independent.dotless doc listed
  apart := by simp
  fresh := by simpa using independent.fresh doc listed

theorem plain_of_mem_declared {d : Descriptor} (declared : d ∈ doc.declared) :
    d.kind ≠ .generic := by
  obtain ⟨item, _, rfl⟩ := List.mem_map.mp declared
  exact plain_descriptor doc item

theorem dotless_of_mem_builtIn {d : Descriptor} (listed : d ∈ BuiltIn.types) :
    '.' ∉ d.name.toList :=
  (by decide +kernel : ∀ d ∈ BuiltIn.types, '.' ∉ d.name.toList) d listed

def declaredBy (docs : List Document) : Registry := (reportAll .standard docs).2

theorem registry_declareAll (options : Options) (docs : List Document) :
    ((new options).declareAll docs).2.registry = declaredBy docs := by
  rw [declareAll_eq]
  rfl

theorem ownerType?_declaredBy (docs : List Document) (name : String) :
    (declaredBy docs).ownerType? name = (Registry.standard.ownerType? name).or
      ((docs.flatMap Document.declared).find? fun d =>
        d.qualifiedName == name) := by
  rw [← registry_declareAll ⟨.shared, .standard, false⟩, ownerType?_declareAll]
  rfl

theorem mem_types_declaredBy {d : Descriptor}
    (formed : WellFormed (declaredBy docs))
    (listed : d ∈ (declaredBy docs).types) :
    d ∈ BuiltIn.types ∨ ∃ doc ∈ docs, d ∈ doc.declared := by
  have owned := (mem_types_iff formed.distinct).mp listed
  rw [ownerType?_declaredBy, Option.or_eq_some_iff] at owned
  rcases owned with standard | ⟨_, declared⟩
  · exact .inl (mem_types_of_ownerType?_eq_some standard).1
  · exact .inr (List.mem_flatMap.mp (List.mem_of_find?_eq_some declared))

theorem Independent.settled (independent : Independent docs) :
    Settled (declaredBy docs) ∧
    (declaredBy docs).templates = Registry.standard.templates := by
  rw [← registry_declareAll ⟨.shared, .standard, false⟩]
  exact settled_declareAll ⟨wellFormed_standard, canonical_standard⟩
    independent.unmarked

theorem builtIn_mem_types_declaredBy (docs : List Document) {d : Descriptor}
    (listed : d ∈ BuiltIn.types) : d ∈ (declaredBy docs).types := by
  rw [← registry_declareAll ⟨.shared, .standard, false⟩]
  exact (later_declareAll _ docs).grows.types_grow.subset listed

section

variable (independent : Independent docs)
  (silent : ∀ doc ∈ docs, (doc.declare .standard).2 = [])

include independent

theorem Independent.ownerType?_standard (listed : doc ∈ docs) {d : Descriptor}
    (declared : d ∈ doc.declared) :
    Registry.standard.ownerType? d.qualifiedName = none := by
  cases owned : Registry.standard.ownerType? d.qualifiedName with
  | none => rfl
  | some b =>
      obtain ⟨member, same⟩ := mem_types_of_ownerType?_eq_some owned
      have names :=
        name_eq_of_qualifiedName_eq (plain_of_mem_declared declared)
          (kind_ne_generic_of_mem_types b member)
          (independent.dotless doc listed d declared)
          (dotless_of_mem_builtIn member) same.symm
      exact absurd names (independent.fresh doc listed d declared b member)

include silent

theorem Independent.ownerType?_declared (listed : doc ∈ docs) {d : Descriptor}
    (declared : d ∈ doc.declared) :
    (declaredBy docs).ownerType? d.qualifiedName = some d := by
  rw [ownerType?_declaredBy, independent.ownerType?_standard listed declared,
    Option.none_or]
  have found : ((docs.flatMap Document.declared).find? fun e =>
      e.qualifiedName == d.qualifiedName).isSome :=
    List.find?_isSome.mpr ⟨d, List.mem_flatMap.mpr ⟨doc, listed, declared⟩,
      beq_self_eq_true _⟩
  obtain ⟨e, first⟩ := Option.isSome_iff_exists.mp found
  have same : e.qualifiedName = d.qualifiedName := by
    simpa using List.find?_some first
  obtain ⟨other, otherListed, otherDeclared⟩ :=
    List.mem_flatMap.mp (List.mem_of_find?_eq_some first)
  have names :=
    name_eq_of_qualifiedName_eq (plain_of_mem_declared otherDeclared)
      (plain_of_mem_declared declared)
      (independent.dotless other otherListed e otherDeclared)
      (independent.dotless doc listed d declared) same
  -- The first type of that name is of the same document, which declares no
  -- other one.
  by_cases here : other = doc
  · subst here
    have mine := ownerType?_of_declareItems (silent other listed) declared
    have theirs :=
      ownerType?_of_declareItems (silent other listed) otherDeclared
    rw [same, mine] at theirs
    rw [first, Option.some.inj theirs]
  · exact absurd names (independent.apart other otherListed doc listed here e
      otherDeclared d declared)

/-- What is declared for all documents says of one of them what is declared for
it alone. -/
theorem Independent.within (listed : doc ∈ docs) :
    Within (doc.declare .standard).1 (declaredBy docs) := by
  obtain ⟨left, templates⟩ := (independent.singleton listed).settled
  obtain ⟨right, otherTemplates⟩ := independent.settled
  have mem {e : Descriptor} (declared : e ∈ doc.declared) :
      e ∈ (declaredBy [doc]).types :=
    (mem_types_iff left.formed.distinct).mpr
      (ownerType?_of_declareItems (silent doc listed) declared)
  have own {d : Descriptor} (member : d ∈ (declaredBy [doc]).types) :
      d ∈ BuiltIn.types ∨ d ∈ doc.declared := by
    simpa using mem_types_declaredBy left.formed member
  refine ⟨left, right, templates.trans otherTemplates.symm, ?plain, ?apart,
    ?dotless⟩
  case plain =>
    intro d member _
    rcases own member with builtIn | declared
    · exact builtIn_mem_types_declaredBy docs builtIn
    · exact (mem_types_iff right.formed.distinct).mpr
        (independent.ownerType?_declared silent listed declared)
  case apart =>
    intro d member _ e there _ names
    rcases mem_types_declaredBy right.formed there with
      builtIn | ⟨other, otherListed, declared⟩
    · exact builtIn_mem_types_declaredBy [doc] builtIn
    · rcases own member with builtIn | mine
      · exact absurd names.symm
          (independent.fresh other otherListed e declared d builtIn)
      · by_cases here : other = doc
        · exact mem (here ▸ declared)
        · exact absurd names.symm (independent.apart other otherListed doc
            listed here e declared d mine)
  case dotless =>
    intro d member _
    rcases own member with builtIn | declared
    · exact dotless_of_mem_builtIn builtIn
    · exact independent.dotless doc listed d declared

theorem Independent.declareAll (options : Options) :
    (new options).declareAll docs = (docs.map fun doc =>
      (doc, Queue.empty options.policy), ⟨options, declaredBy docs⟩) := by
  refine Prod.ext ?_ (by rw [declareAll_eq]; rfl)
  rw [declareAll_queues (new options) docs (List.prefix_refl _),
    registry_declareAll]
  apply List.map_congr_left
  intro doc listed
  have quiet :
      (doc.items.flatMap fun item => objections doc item
        ((declaredBy docs).ownerType? (item.descriptor doc).qualifiedName)) =
        [] := by
    apply List.flatMap_eq_nil_iff.mpr
    intro item member
    rw [independent.ownerType?_declared silent listed
      (List.mem_map_of_mem member)]
    exact if_pos rfl
  rw [queueOf, quiet]
  rfl

end

theorem Alone.finish (alone : Alone doc a) (unmarked : doc.Unmarked)
    {c : Compiler} (within : Within (doc.declare .standard).1 c.registry) :
    ∃ output, c.finish doc (Queue.empty c.options.policy) =
        .ok (output, { c with registry := (doc.resolve c.registry).registry }) ∧
      output.view = ⟨a.file, a.methods, []⟩ := by
  have owned : ∀ i ∈ doc.interfaces,
      ((doc.declare .standard).1.find? doc.package i.name).isSome := by
    intro i listed
    obtain ⟨h, accepted⟩ := acceptedHandle?_of_declare alone.declared listed
    obtain ⟨k, found, _⟩ := Option.bind_eq_some_iff.mp accepted
    exact Option.isSome_of_eq_some found
  have clean := alone.clean.within within unmarked owned
  refine ⟨_, (finish_eq c doc []).trans (congrArg _ clean.account_eq), ?_⟩
  simp [Output.view, Account.output, alone.file, Queue.addAll]

theorem finishAll_alone {accounts : List Account}
    (alone : List.Forall₂ Alone docs accounts)
    (unmarked : ∀ doc ∈ docs, doc.Unmarked) {c : Compiler}
    (within : ∀ doc ∈ docs, Within (doc.declare .standard).1 c.registry) :
    ∃ outputs,
      c.finishAll (docs.map fun doc => (doc, Queue.empty c.options.policy)) =
        .ok outputs ∧ outputs.map Output.view =
          accounts.map fun a => ⟨a.file, a.methods, []⟩ := by
  induction alone generalizing c with
  | nil => exact ⟨[], rfl, rfl⟩
  | @cons doc a docs accounts here _ induction =>
      obtain ⟨unmarkedHere, unmarkedLater⟩ := List.forall_mem_cons.mp unmarked
      obtain ⟨withinHere, withinLater⟩ := List.forall_mem_cons.mp within
      obtain ⟨output, finished, view⟩ := here.finish unmarkedHere withinHere
      -- What the first document refers to changes nothing for the others.
      have looked := withinHere.right.looks
        (resolveInterfaces_looks doc c.registry doc.interfaces)
      obtain ⟨outputs, later, views⟩ := induction
        (c := { c with registry := (doc.resolve c.registry).registry })
        unmarkedLater fun other listed =>
          (withinLater other listed).of_alike
            (withinLater other listed).left.alike looked
      refine ⟨output :: outputs, ?_, congrArg₂ List.cons view views⟩
      simp only [List.map_cons, finishAll, finished]
      change (Compiler.finishAll _ _ >>= _) = _
      rw [later]
      rfl

theorem alone_of_accountBatch_eq_ok {accounts : List Account}
    (counted : accountBatch .perFile docs = .ok accounts)
    (silent : ∀ a ∈ accounts, a.offered.any isError = false) :
    List.Forall₂ Alone docs accounts := by
  have each :=
    (List.forall₂_and_left _ _).mpr ⟨silent, (mapM_eq_ok_iff.mp counted).flip⟩
  exact (each.imp fun _ _ here => alone_of_account_eq_ok here.2 here.1).flip

theorem declared_of_alone {accounts : List Account}
    (alone : List.Forall₂ Alone docs accounts) :
    ∀ doc ∈ docs, (doc.declare .standard).2 = [] :=
  ((List.forall₂_and_left (p := fun doc => (doc.declare .standard).2 = []) _
      _).mp (alone.imp fun _ _ here => ⟨here.declared, here⟩)).1

theorem view_of_alone {accounts : List Account}
    (alone : List.Forall₂ Alone docs accounts) (options : Options) :
    (accounts.map (Account.output · options)).map Output.view =
      accounts.map fun a => ⟨a.file, a.methods, []⟩ := by
  induction alone with
  | nil => rfl
  | cons here _ induction =>
      refine congrArg₂ List.cons ?_ induction
      simp [Output.view, Account.output, here.offered, Queue.addAll]

/-- Documents that come out without errors from registries of their own come out
of a shared one the same, if no other document and no built-in type has their
simple names. -/
theorem independent_documents_compile_alike (policy : Policy) (dump : Bool)
    (docs : List Document) (independent : Independent docs)
    (outputs : List Output)
    (done : compileBatch ⟨.perFile, policy, dump⟩ docs = .ok outputs)
    (silent : ∀ o ∈ outputs, o.hasErrors = false) :
    ∃ shared, compileBatch ⟨.shared, policy, dump⟩ docs = .ok shared ∧
      shared.map Output.view = outputs.map Output.view ∧
      ∀ o ∈ shared, o.diagnostics = [] := by
  rw [compileBatch_eq] at done
  obtain ⟨accounts, counted, rfl⟩ := map_eq_ok_iff.mp done
  have alone := alone_of_accountBatch_eq_ok counted
    (by simpa [Account.hasErrors_output] using silent)
  have declared := declared_of_alone alone
  obtain ⟨shared, finished, views⟩ := finishAll_alone alone independent.unmarked
    (c := ⟨⟨.shared, policy, dump⟩, declaredBy docs⟩) fun doc listed =>
      independent.within declared listed
  refine ⟨shared, ?_, views.trans (view_of_alone alone _).symm, ?_⟩
  · simp only [compileBatch, compileShared, independent.declareAll declared,
      finished]
  · intro o listed
    have view : o.view ∈ accounts.map fun a => ⟨a.file, a.methods, []⟩ :=
      views ▸ List.mem_map_of_mem listed
    obtain ⟨a, _, same⟩ := List.mem_map.mp view
    exact (congrArg View.diagnostics same).symm

def atlas : Document where
  package := "a.maps"
  file := "Atlas.aidl"
  items := [.parcelable "Town" 1, .interface ⟨"Atlas", 2, false,
    [⟨"towns", 3, false, ⟨"Map<String,Town>", false, 3⟩,
      [⟨.input, ⟨"List<Town>", false, 3⟩, "known", 3⟩]⟩]⟩]

/-- In the default package, so its simple names are qualified ones. -/
def diary : Document where
  package := ""
  file := "Diary.aidl"
  items := [.interface ⟨"Diary", 1, false,
    [⟨"search", 2, false, ⟨"List<String>", false, 2⟩,
      [⟨.input, ⟨"Diary", false, 2⟩, "other", 2⟩]⟩]⟩]

theorem independent_atlas_diary : Independent [atlas, diary] :=
  ⟨by decide +kernel, by decide +kernel, by decide +kernel, by decide +kernel⟩

theorem independent_documents_compile_alike_atlas :
    ∃ outputs shared,
      compileBatch ⟨.perFile, .standard, false⟩ [atlas, diary] = .ok outputs ∧
      outputs.map Output.headers =
        [[("a.maps.Atlas", "towns")], [("Diary", "search")]] ∧
      compileBatch ⟨.shared, .standard, false⟩ [atlas, diary] = .ok shared ∧
      shared.map Output.view = outputs.map Output.view := by
  obtain ⟨outputs, done, _⟩ :=
    exists_batch ⟨.perFile, .standard, false⟩ [atlas, diary]
  have known :
      (compileBatch ⟨.perFile, .standard, false⟩ [atlas, diary]).toOption.map
        (List.map fun o => (o.hasErrors, o.headers)) =
        some [(false, [("a.maps.Atlas", "towns")]),
          (false, [("Diary", "search")])] := by
    decide +kernel
  rw [done] at known
  have flags : outputs.map Output.hasErrors = [false, false] := by
    simpa [Function.comp_def] using
      congrArg (List.map Prod.fst) (Option.some.inj known)
  have headers : outputs.map Output.headers =
      [[("a.maps.Atlas", "towns")], [("Diary", "search")]] := by
    simpa [Function.comp_def] using
      congrArg (List.map Prod.snd) (Option.some.inj known)
  have silent : ∀ o ∈ outputs, o.hasErrors = false := by
    intro o listed
    have member := List.mem_map_of_mem (f := Output.hasErrors) listed
    rw [flags] at member
    simpa using member
  obtain ⟨shared, compiled, views, _⟩ :=
    independent_documents_compile_alike .standard false [atlas, diary]
      independent_atlas_diary outputs done silent
  exact ⟨outputs, shared, done, headers, compiled, views⟩

end BinderIdl.Compiler
