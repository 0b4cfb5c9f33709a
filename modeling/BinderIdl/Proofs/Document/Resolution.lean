import BinderIdl.Proofs.Document.Attribution
import BinderIdl.Proofs.Types.WellFormed

namespace BinderIdl

open Source BinderIdl.Types

namespace Document

theorem declareItem_grows (doc : Document) (r : Registry) (item : Item) :
    r.Grows (declareItem doc r item).1 := by
  unfold declareItem
  split
  · next h grown accepted =>
      cases item with
      | parcelable name line => exact (Registry.Step.parcelable accepted).grows
      | interface i => exact (Registry.Step.interface accepted).grows
  · exact .refl r

theorem declareItems_grows (doc : Document) (r : Registry) (items : List Item) :
    r.Grows (declareItems doc r items).1 := by
  induction items generalizing r with
  | nil => exact .refl r
  | cons item rest induction =>
      exact (declareItem_grows doc r item).trans (induction _)

theorem isUserError_of_mem_declareItems {doc : Document} {r : Registry}
    {items : List Item} {report : Diagnostic}
    (reported : report ∈ (declareItems doc r items).2) : report.IsUserError :=
  (raises_declareItems doc r items).isUserError report reported

theorem acceptedHandle?_of_grows {doc : Document} {r grown : Registry}
    {i : Interface} (growth : r.Grows grown) {h : Handle}
    (accepted : acceptedHandle? doc r i = some h) :
    acceptedHandle? doc grown i = some h := by
  simp only [acceptedHandle?, Registry.find?, Registry.findQualified?,
    Option.bind_eq_bind, Option.bind_eq_some_iff] at accepted ⊢
  obtain ⟨k, found, d, known, declared⟩ := accepted
  obtain ⟨entry, owned, rfl⟩ := Option.map_eq_some_iff.mp found
  refine ⟨entry.1, ?_, d, growth.get?_eq_some known, declared⟩
  rw [growth.owner?_eq_some owned]
  rfl

theorem acceptedHandle?_of_declareItem {doc : Document} {r : Registry}
    {i : Interface} (silent : (declareItem doc r (.interface i)).2 = []) :
    ∃ h,
      acceptedHandle? doc (declareItem doc r (.interface i)).1 i = some h := by
  unfold declareItem at silent ⊢
  split at silent
  · next h grown accepted =>
      refine ⟨h, ?_⟩
      simp only [acceptedHandle?, Registry.find?, Option.bind_eq_bind,
        Option.bind_eq_some_iff]
      refine ⟨h, Registry.findQualified?_of_register_eq_ok accepted, _,
        Registry.get?_of_register_eq_ok accepted, ?_⟩
      exact if_pos ⟨rfl, rfl⟩
  · cases silent

theorem acceptedHandle?_of_declareItems {doc : Document} {r : Registry}
    {items : List Item} (silent : (declareItems doc r items).2 = [])
    {i : Interface} (listed : .interface i ∈ items) :
    ∃ h, acceptedHandle? doc (declareItems doc r items).1 i = some h := by
  induction items generalizing r with
  | nil => cases listed
  | cons item rest induction =>
      obtain ⟨first, later⟩ := List.append_eq_nil_iff.mp silent
      rcases List.mem_cons.mp listed with rfl | listedLater
      · obtain ⟨h, accepted⟩ := acceptedHandle?_of_declareItem first
        exact ⟨h,
          acceptedHandle?_of_grows (declareItems_grows doc _ rest) accepted⟩
      · exact induction later listedLater

theorem acceptedHandle?_of_declare {doc : Document} {r : Registry}
    (silent : (doc.declare r).2 = []) {i : Interface}
    (listed : i ∈ doc.interfaces) :
    ∃ h, acceptedHandle? doc (doc.declare r).1 i = some h :=
  acceptedHandle?_of_declareItems silent (mem_interfaces_iff.mp listed)

def ResolvedType.Known (r : Registry) (t : ResolvedType) :
    Prop := ∃ d, r.get? t.handle = some d

structure ResolvedMethod.Known (r : Registry) (m : ResolvedMethod) : Prop where
  returnType : m.returnType.Known r
  parameters : ∀ p ∈ m.parameters, p.type.Known r

structure ResolvedInterface.Known (r : Registry) (i : ResolvedInterface) :
    Prop where
  handle : ∃ d, r.get? i.handle = some d
  methods : ∀ m ∈ i.methods, m.Known r

theorem ResolvedType.Known.grows {r grown : Registry} {t : ResolvedType}
    (known : t.Known r) (growth : r.Grows grown) : t.Known grown := by
  obtain ⟨d, here⟩ := known
  exact ⟨d, growth.get?_eq_some here⟩

theorem ResolvedMethod.Known.grows {r grown : Registry} {m : ResolvedMethod}
    (known : m.Known r) (growth : r.Grows grown) : m.Known grown where
  returnType := known.returnType.grows growth
  parameters p listed := (known.parameters p listed).grows growth

/-- The registry has only grown, and every report is an error of
the document. -/
structure Resolved.Orderly {α : Type} (r : Registry) (resolved : Resolved α) :
    Prop where
  grows : r.Grows resolved.registry
  reports : ∀ report ∈ resolved.reports, report.IsUserError

theorem resolveType_orderly (doc : Document) (r : Registry) (type : TypeText) :
    (resolveType doc r type).Orderly r := by
  refine ⟨?_, (raises_resolveType doc r type).isUserError⟩
  unfold resolveType
  split
  · next h grown resolved => exact .resolve resolved
  · exact .refl r

theorem known_of_resolveType {doc : Document} {r : Registry} {type : TypeText}
    {t : ResolvedType} (resolved : (resolveType doc r type).result = some t) :
    t.Known (resolveType doc r type).registry := by
  unfold resolveType at resolved ⊢
  split at resolved
  · next h grown made =>
      cases resolved
      exact Registry.get?_of_resolve_eq_ok made
  · cases resolved

theorem exists_of_resolveType {doc : Document} {r : Registry} {type : TypeText}
    (silent : (resolveType doc r type).reports = []) :
    ∃ t, (resolveType doc r type).result = some t := by
  unfold resolveType at silent ⊢
  split at silent
  · exact ⟨_, rfl⟩
  · cases silent

theorem resolveParameters_orderly (doc : Document) (r : Registry)
    (parameters : List Parameter) :
    (resolveParameters doc r parameters).Orderly r := by
  refine ⟨?_, (raises_resolveParameters doc r parameters).isUserError⟩
  induction parameters generalizing r with
  | nil => exact .refl r
  | cons p rest induction =>
      exact (resolveType_orderly doc r p.type).grows.trans (induction _)

theorem known_of_resolveParameters {doc : Document} {r : Registry}
    {parameters : List Parameter} {resolved : List ResolvedParameter}
    (done : (resolveParameters doc r parameters).result = some resolved) :
    ∀ p ∈ resolved,
      p.type.Known (resolveParameters doc r parameters).registry := by
  induction parameters generalizing r resolved with
  | nil =>
      cases done
      simp
  | cons p rest induction =>
      simp only [resolveParameters, resolveParameter, Option.bind_eq_bind,
        Option.bind_eq_some_iff, Option.map_eq_some_iff] at done
      obtain ⟨_, ⟨t, typeDone, rfl⟩, others, othersDone, same⟩ := done
      cases same
      intro q listed
      rcases List.mem_cons.mp listed with rfl | later
      · exact (known_of_resolveType typeDone).grows
          (resolveParameters_orderly doc _ rest).grows
      · exact induction othersDone q later

theorem exists_of_resolveParameters {doc : Document} {r : Registry}
    {parameters : List Parameter}
    (silent : (resolveParameters doc r parameters).reports = []) :
    ∃ resolved,
      (resolveParameters doc r parameters).result = some resolved := by
  induction parameters generalizing r with
  | nil => exact ⟨[], rfl⟩
  | cons p rest induction =>
      obtain ⟨first, later⟩ := List.append_eq_nil_iff.mp silent
      obtain ⟨t, typeDone⟩ := exists_of_resolveType first
      obtain ⟨others, othersDone⟩ := induction later
      simp only [resolveParameter] at othersDone
      simp [resolveParameters, resolveParameter, typeDone, othersDone]

theorem resolveMethod_orderly (doc : Document) (owner : Interface)
    (r : Registry) (m : Method) :
    (resolveMethod doc owner r m).Orderly r := by
  refine ⟨?_, (raises_resolveMethod doc owner r m).isUserError⟩
  have returned := resolveType_orderly doc r m.returnType
  have parameters := resolveParameters_orderly doc
    (resolveType doc r m.returnType).registry m.parameters
  exact returned.grows.trans parameters.grows

theorem known_of_resolveMethod {doc : Document} {owner : Interface}
    {r : Registry} {m : Method} {resolved : ResolvedMethod}
    (done : (resolveMethod doc owner r m).result = some resolved) :
    resolved.Known (resolveMethod doc owner r m).registry := by
  simp only [resolveMethod, Option.bind_eq_bind,
    Option.bind_eq_some_iff] at done
  obtain ⟨returnType, returned, parameters, parametersDone, same⟩ := done
  cases same
  exact ⟨(known_of_resolveType returned).grows
    (resolveParameters_orderly doc _ _).grows,
    known_of_resolveParameters parametersDone⟩

theorem exists_of_resolveMethod {doc : Document} {owner : Interface}
    {r : Registry} {m : Method}
    (silent : (resolveMethod doc owner r m).reports = []) :
    ∃ resolved, (resolveMethod doc owner r m).result = some resolved ∧
      resolved.name = m.name := by
  obtain ⟨first, later⟩ := List.append_eq_nil_iff.mp silent
  obtain ⟨returnType, returned⟩ := exists_of_resolveType first
  obtain ⟨parameters, parametersDone⟩ := exists_of_resolveParameters later
  refine ⟨⟨m.name, m.line, m.oneway || owner.oneway, returnType, parameters⟩,
    ?_, rfl⟩
  simp [resolveMethod, returned, parametersDone]

theorem resolveMethods_orderly (doc : Document) (owner : Interface)
    (r : Registry) (methods : List Method) :
    (resolveMethods doc owner r methods).Orderly r := by
  refine ⟨?_, (raises_resolveMethods doc owner r methods).isUserError⟩
  induction methods generalizing r with
  | nil => exact .refl r
  | cons m rest induction =>
      exact (resolveMethod_orderly doc owner r m).grows.trans (induction _)

theorem known_of_mem_resolveMethods {doc : Document} {owner : Interface}
    {r : Registry} {methods : List Method} {m : ResolvedMethod}
    (listed : m ∈ (resolveMethods doc owner r methods).result) :
    m.Known (resolveMethods doc owner r methods).registry := by
  induction methods generalizing r with
  | nil => cases listed
  | cons first rest induction =>
      rcases List.mem_append.mp listed with here | there
      · exact (known_of_resolveMethod (Option.mem_toList.mp here)).grows
          (resolveMethods_orderly doc owner _ rest).grows
      · exact induction there

theorem names_of_resolveMethods {doc : Document} {owner : Interface}
    {r : Registry} {methods : List Method}
    (silent : (resolveMethods doc owner r methods).reports = []) :
    (resolveMethods doc owner r methods).result.map ResolvedMethod.name =
      methods.map Method.name := by
  induction methods generalizing r with
  | nil => rfl
  | cons m rest induction =>
      obtain ⟨first, later⟩ := List.append_eq_nil_iff.mp silent
      obtain ⟨resolved, done, name⟩ := exists_of_resolveMethod first
      simp only [resolveMethods, done, Option.toList_some, List.cons_append,
        List.nil_append, List.map_cons, name, induction later]

theorem get?_of_acceptedHandle? {doc : Document} {r : Registry} {i : Interface}
    {h : Handle} (accepted : acceptedHandle? doc r i = some h) :
    ∃ d, r.get? h = some d ∧ d.qualifiedName = qualify doc.package i.name := by
  simp only [acceptedHandle?, Registry.find?, Option.bind_eq_bind,
    Option.bind_eq_some_iff] at accepted
  obtain ⟨k, found, d, known, declared⟩ := accepted
  split at declared
  · cases declared
    exact Registry.get?_of_findQualified?_eq_some found
  · cases declared

theorem resolveInterfaces_orderly (doc : Document) (r : Registry)
    (interfaces : List Interface) :
    (resolveInterfaces doc r interfaces).Orderly r := by
  refine ⟨?_, (raises_resolveInterfaces doc r interfaces).isUserError⟩
  induction interfaces generalizing r with
  | nil => exact .refl r
  | cons i rest induction =>
      unfold resolveInterfaces
      split
      · exact induction r
      · exact (resolveMethods_orderly doc i r i.methods).grows.trans
          (induction _)

theorem known_of_mem_resolveInterfaces {doc : Document} {r : Registry}
    {interfaces : List Interface} {i : ResolvedInterface}
    (listed : i ∈ (resolveInterfaces doc r interfaces).result) :
    i.Known (resolveInterfaces doc r interfaces).registry := by
  induction interfaces generalizing r with
  | nil => cases listed
  | cons first rest induction =>
      unfold resolveInterfaces at listed ⊢
      split at listed
      · exact induction listed
      · next h accepted =>
          have later := (resolveInterfaces_orderly doc
            (resolveMethods doc first r first.methods).registry rest).grows
          rcases List.mem_cons.mp listed with rfl | there
          · obtain ⟨d, known, _⟩ := get?_of_acceptedHandle? accepted
            have here :=
              (resolveMethods_orderly doc first r first.methods).grows
            refine ⟨⟨d, later.get?_eq_some (here.get?_eq_some known)⟩, ?_⟩
            intro m member
            exact (known_of_mem_resolveMethods member).grows later
          · exact induction there

theorem resolve_orderly (doc : Document) (r : Registry) :
    (doc.resolve r).Orderly r :=
  resolveInterfaces_orderly doc r doc.interfaces

theorem known_of_mem_resolve {doc : Document} {r : Registry}
    {i : ResolvedInterface} (listed : i ∈ (doc.resolve r).result) :
    i.Known (doc.resolve r).registry :=
  known_of_mem_resolveInterfaces listed

/-- The names of the methods of an interface, each with the qualified name of
the interface. -/
def Interface.headers (doc : Document) (i : Interface) :
    List (String × String) :=
  i.methods.map fun m => (qualify doc.package i.name, m.name)

def ResolvedInterface.headers (r : Registry) (i : ResolvedInterface) :
    List (Option String × String) :=
  i.methods.map fun m =>
    ((r.get? i.handle).map Descriptor.qualifiedName, m.name)

theorem headers_of_resolveInterfaces {doc : Document} {r final : Registry}
    {interfaces : List Interface}
    (accepted : ∀ i ∈ interfaces, ∃ h, acceptedHandle? doc r i = some h)
    (silent : (resolveInterfaces doc r interfaces).reports = [])
    (growth : (resolveInterfaces doc r interfaces).registry.Grows final) :
    (resolveInterfaces doc r interfaces).result.flatMap
      (ResolvedInterface.headers final) = interfaces.flatMap fun i =>
        (i.headers doc).map fun header => (some header.1, header.2) := by
  induction interfaces generalizing r with
  | nil => rfl
  | cons i rest induction =>
      obtain ⟨h, here⟩ := accepted i (List.mem_cons_self ..)
      simp only [resolveInterfaces, here] at silent growth ⊢
      obtain ⟨first, later⟩ := List.append_eq_nil_iff.mp silent
      have grew := (resolveMethods_orderly doc i r i.methods).grows
      have more := (resolveInterfaces_orderly doc
        (resolveMethods doc i r i.methods).registry rest).grows
      have others := induction
        (fun k listed => (accepted k (List.mem_cons_of_mem i listed)).imp
          fun _ known => acceptedHandle?_of_grows grew known)
        later growth
      obtain ⟨d, known, name⟩ := get?_of_acceptedHandle? here
      have owner :=
        growth.get?_eq_some (more.get?_eq_some (grew.get?_eq_some known))
      have names : (resolveMethods doc i r i.methods).result.map
          (fun m => (some (qualify doc.package i.name), m.name)) = i.methods.map
            (fun m => (some (qualify doc.package i.name), m.name)) := by
        simpa [Function.comp_def] using congrArg
          (List.map fun name => (some (qualify doc.package i.name), name))
          (names_of_resolveMethods first)
      simp only [List.flatMap_cons, others, ResolvedInterface.headers, owner,
        Option.map_some, name, names, Interface.headers, List.map_map,
        Function.comp_def]

end Document

end BinderIdl
