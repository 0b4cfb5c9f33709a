import BinderIdl.Proofs.Document.Again

/-! Accepted declarations. Resolution is not told which declarations were
accepted: it takes an interface for accepted whose name belongs to an interface
declared at the same site. That is so for all accepted interfaces, and for a
rejected one that differs from the owner of its name in nothing but the oneway
flag or the place where the qualified name is split. -/

namespace BinderIdl.Document

open BinderIdl.Types Registry

variable {r later : Registry} {doc : Document}

theorem declareItems_append (doc : Document) (r : Registry)
    (before after : List Item) :
    (declareItems doc r (before ++ after)).1 =
      (declareItems doc (declareItems doc r before).1 after).1 := by
  induction before generalizing r with
  | nil => rfl
  | cons item rest induction => exact induction (declareItem doc r item).1

theorem isOk_register_iff {item : Item} :
    (r.register (item.descriptor doc)).isOk ↔
      (declareItem doc r item).2 = [] := by
  unfold declareItem
  cases r.register (item.descriptor doc) with
  | ok _ => exact ⟨fun _ => rfl, fun _ => rfl⟩
  | error _ => exact ⟨nofun, nofun⟩

/-- A declaration is accepted at its turn iff its type owns its
name in the end. -/
theorem isOk_register_iff_owned {before after : List Item} {item : Item}
    (split : doc.items = before ++ item :: after) :
    ((declareItems doc r before).1.register (item.descriptor doc)).isOk ↔
      (doc.declare r).1.ownerType? (item.descriptor doc).qualifiedName =
        some (item.descriptor doc) := by
  have listed : item ∈ doc.items :=
    split ▸ List.mem_append_right _ List.mem_cons_self
  obtain ⟨owner, owned⟩ :=
    Option.isSome_iff_exists.mp (isSome_ownerType?_declareItems doc r listed)
  -- A name keeps its owner, so the owner at the turn of the item is the one in
  -- the end.
  have grew : (declareItem doc (declareItems doc r before).1 item).1.types <+:
      (doc.declare r).1.types := by
    rw [declare, split, declareItems_append]
    exact (declareItems_grows doc _ after).types_grow
  rw [isOk_register_iff, reports_declareItem grew, declare, owned, objections]
  split <;> simp_all

theorem acceptedHandle?_eq_some_iff {i : Interface} {h : Handle} :
    acceptedHandle? doc r i = some h ↔
      ∃ d, r.owner? (qualify doc.package i.name) = some (h, d) ∧
        d.kind = .interface ∧ d.site = some (doc.site i.line) := by
  simp only [acceptedHandle?, find?, findQualified?, Option.bind_eq_bind,
    Option.bind_eq_some_iff]
  constructor
  · rintro ⟨k, found, d, known, here⟩
    obtain ⟨⟨k, e⟩, owned, rfl⟩ := Option.map_eq_some_iff.mp found
    cases Option.some.inj ((get?_of_owner?_eq_some owned).symm.trans known)
    split at here
    · next stands =>
        cases here
        exact ⟨d, owned, stands⟩
    · cases here
  · rintro ⟨d, owned, stands⟩
    exact ⟨h, by rw [owned]; rfl, d, get?_of_owner?_eq_some owned,
      if_pos stands⟩

theorem eq_interface_of_kind (formed : r.WellFormed) {h : Handle}
    {d : Descriptor} (known : r.get? h = some d) (kind : d.kind = .interface)
    {site : Source.Site} (declared : d.site = some site) :
    ∃ package name oneway, d = .interface package name oneway site := by
  cases formed.origin known with
  | builtIn listed =>
      have none : ∀ d ∈ BuiltIn.types, d.kind ≠ .interface := by decide
      exact absurd kind (none d listed)
  | parcelable package name site => cases kind
  | interface package name oneway site =>
      cases declared
      exact ⟨package, name, oneway, rfl⟩
  | ofTemplate _ _ _ =>
      rw [kind_apply] at kind
      cases kind

theorem isSome_acceptedHandle?_iff (formed : r.WellFormed) {i : Interface} :
    (acceptedHandle? doc r i).isSome ↔ ∃ package name oneway,
      r.ownerType? (qualify doc.package i.name) =
        some (.interface package name oneway (doc.site i.line)) := by
  simp only [Option.isSome_iff_exists, acceptedHandle?_eq_some_iff, ownerType?,
    Option.map_eq_some_iff]
  constructor
  · rintro ⟨h, d, owned, kind, declared⟩
    obtain ⟨package, name, oneway, rfl⟩ :=
      eq_interface_of_kind formed (get?_of_owner?_eq_some owned) kind declared
    exact ⟨package, name, oneway, _, owned, rfl⟩
  · rintro ⟨package, name, oneway, ⟨h, d⟩, owned, rfl⟩
    exact ⟨h, _, owned, rfl, rfl⟩

/-- The name of every interface belongs to some type. -/
def NamesOwned (doc : Document) (r : Registry)
    (interfaces : List Interface) : Prop :=
  ∀ i ∈ interfaces, ∃ entry, r.owner? (qualify doc.package i.name) = some entry

theorem NamesOwned.mono {interfaces : List Interface}
    (owned : NamesOwned doc r interfaces) (grew : r.types <+: later.types) :
    NamesOwned doc later interfaces :=
  fun i listed =>
    (owned i listed).imp fun _ here => owner?_eq_some_of_types_grow grew here

theorem NamesOwned.acceptedHandle?_eq {interfaces : List Interface}
    (owned : NamesOwned doc r interfaces) (grew : r.types <+: later.types) :
    ∀ i ∈ interfaces, acceptedHandle? doc later i = acceptedHandle? doc r i :=
  fun i listed =>
    have ⟨_, owner⟩ := owned i listed
    acceptedHandle?_of_types_grow doc grew owner

/-- What is not taken for accepted leaves no trace. -/
theorem resolveInterfaces_filter {interfaces : List Interface}
    (owned : NamesOwned doc r interfaces) :
    resolveInterfaces doc r interfaces = resolveInterfaces doc r
      (interfaces.filter fun i => (acceptedHandle? doc r i).isSome) := by
  induction interfaces generalizing r with
  | nil => rfl
  | cons i rest induction =>
      have others : NamesOwned doc r rest := fun j listed =>
        owned j (List.mem_cons_of_mem i listed)
      cases accepted : acceptedHandle? doc r i with
      | none =>
          rw [List.filter_cons_of_neg (by simp [accepted])]
          simpa only [resolveInterfaces, accepted] using induction others
      | some h =>
          have grew :=
            (resolveMethods_orderly doc i r i.methods).grows.types_grow
          have same :
              (rest.filter fun j =>
                (acceptedHandle? doc
                  (resolveMethods doc i r i.methods).registry j).isSome) =
              rest.filter fun j => (acceptedHandle? doc r j).isSome :=
            List.filter_congr fun j listed =>
              by rw [others.acceptedHandle?_eq grew j listed]
          rw [List.filter_cons_of_pos (by simp [accepted])]
          simp only [resolveInterfaces, accepted]
          rw [induction (others.mono grew), same]

theorem handles_of_resolveInterfaces {interfaces : List Interface}
    (owned : NamesOwned doc r interfaces) :
    (resolveInterfaces doc r interfaces).result.map
      (fun i => (i.handle, i.line)) = interfaces.filterMap fun i =>
        (acceptedHandle? doc r i).map fun h => (h, i.line) := by
  induction interfaces generalizing r with
  | nil => rfl
  | cons i rest induction =>
      have others : NamesOwned doc r rest := fun j listed =>
        owned j (List.mem_cons_of_mem i listed)
      cases accepted : acceptedHandle? doc r i with
      | none =>
          simpa only [resolveInterfaces, accepted, List.filterMap_cons,
            Option.map_none] using induction others
      | some h =>
          have grew :=
            (resolveMethods_orderly doc i r i.methods).grows.types_grow
          have same :
              (rest.filterMap fun j =>
                (acceptedHandle? doc
                  (resolveMethods doc i r i.methods).registry j).map
                  fun h => (h, j.line)) =
              rest.filterMap fun j =>
                (acceptedHandle? doc r j).map fun h => (h, j.line) :=
            List.filterMap_congr fun j listed =>
              by rw [others.acceptedHandle?_eq grew j listed]
          simp only [resolveInterfaces, accepted, List.map_cons,
            List.filterMap_cons, Option.map_some]
          rw [induction (others.mono grew), same]

theorem namesOwned_declare (doc : Document) (r : Registry) :
    NamesOwned doc (doc.declare r).1 doc.interfaces :=
  fun i listed =>
    owned_declareItems doc r doc.items (.interface i)
      (mem_interfaces_iff.mp listed)

/-- A declaration is accepted iff its type owns its name in the end, but
resolution goes by less. It resolves, in their order, the interfaces
whose names belong to interfaces declared at the same site, and the
others leave no trace. -/
theorem resolution_goes_by_site {r : Registry} (reachable : r.Reachable)
    (doc : Document) :
    let declared := (doc.declare r).1
    (∀ before item after, doc.items = before ++ item :: after →
      (((declareItems doc r before).1.register (item.descriptor doc)).isOk ↔
        declared.ownerType? (item.descriptor doc).qualifiedName =
          some (item.descriptor doc))) ∧
    (∀ i, (acceptedHandle? doc declared i).isSome ↔ ∃ package name oneway,
      declared.ownerType? (qualify doc.package i.name) =
        some (.interface package name oneway (doc.site i.line))) ∧
    doc.resolve declared = resolveInterfaces doc declared
      (doc.interfaces.filter fun i => (acceptedHandle? doc declared i).isSome) ∧
    (doc.resolve declared).result.map (fun i => (i.handle, i.line)) =
      doc.interfaces.filterMap fun i =>
        (acceptedHandle? doc declared i).map fun h => (h, i.line) := by
  intro declared
  have formed : declared.WellFormed :=
    (reachable.grows (declareItems_grows doc r doc.items)).wellFormed
  have owned := namesOwned_declare doc r
  exact ⟨fun _ _ _ => isOk_register_iff_owned,
    fun _ => isSome_acceptedHandle?_iff formed, resolveInterfaces_filter owned,
    handles_of_resolveInterfaces owned⟩

/-- Two interfaces that differ in the oneway flag, on one line. -/
def twins : Document where
  package := "a.b"
  file := "Twins.aidl"
  items :=
    [.interface ⟨"Twin", 1, false, [⟨"a", 2, false, ⟨"void", false, 2⟩, []⟩]⟩,
      .interface ⟨"Twin", 1, true, [⟨"b", 3, false, ⟨"Nope", false, 3⟩, []⟩]⟩]

theorem resolution_goes_by_site_twins :
    ((twins.resolve (twins.declare .standard).1).result.map fun i =>
      (i.handle, i.line)) = [(⟨24⟩, 1), (⟨24⟩, 1)] := by
  obtain ⟨_, _, _, handles⟩ := resolution_goes_by_site reachable_standard twins
  rw [handles]
  decide +kernel

/-- The second of them is rejected, and yet resolved; and a type in it
is reported. -/
theorem rejected_interface_is_resolved_twins :
    ((declareItems twins .standard (twins.items.take 1)).1.register
      ((twins.items.getLast nofun).descriptor twins)).isOk = false ∧
    (twins.declare .standard).2.map Diagnostic.code = [.redefinition] ∧
    (twins.resolve (twins.declare .standard).1).result.length = 2 ∧
    (twins.resolve (twins.declare .standard).1).reports.map Diagnostic.code =
      [.unknownType] := by
  decide +kernel

end BinderIdl.Document
