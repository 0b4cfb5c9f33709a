import BinderIdl.Proofs.Document.Alike
import BinderIdl.Proofs.Document.Declaration
import BinderIdl.Proofs.Types.Again

namespace BinderIdl.Document

open Source BinderIdl.Types Registry

variable {r later : Registry}

theorem resolveType_again (doc : Document) {type : TypeText}
    (looks : Looks (resolveType doc r type).registry later) :
    resolveType doc later type =
      { resolveType doc r type with registry := later } := by
  have all : Looks r later := (resolveType_looks doc r type).trans looks
  have kept : ∀ h grown,
      r.resolve type.name = .ok (h, grown) → grown.types <+: later.types := by
    intro h grown resolved
    simp only [resolveType, resolved] at looks
    exact looks.types_grow
  unfold resolveType
  rw [all.resolve_again kept]
  cases r.resolve type.name with
  | error error => rfl
  | ok entry => rfl

theorem resolveParameters_again (doc : Document) {parameters : List Parameter}
    (looks : Looks (resolveParameters doc r parameters).registry later) :
    resolveParameters doc later parameters =
      { resolveParameters doc r parameters with registry := later } := by
  induction parameters generalizing r with
  | nil => rfl
  | cons p rest induction =>
      have others :=
        resolveParameters_looks doc (resolveParameter doc r p).registry rest
      have here := resolveType_again doc (others.trans looks)
      simp only [resolveParameters, resolveParameter] at induction looks ⊢
      rw [here, induction looks]

theorem resolveMethod_again (doc : Document) (owner : Interface) {m : Method}
    (looks : Looks (resolveMethod doc owner r m).registry later) :
    resolveMethod doc owner later m =
      { resolveMethod doc owner r m with registry := later } := by
  have parameters := resolveParameters_looks doc
    (resolveType doc r m.returnType).registry m.parameters
  have returned := resolveType_again doc (parameters.trans looks)
  simp only [resolveMethod] at looks ⊢
  rw [returned, resolveParameters_again doc looks]

theorem resolveMethods_again (doc : Document) (owner : Interface)
    {methods : List Method}
    (looks : Looks (resolveMethods doc owner r methods).registry later) :
    resolveMethods doc owner later methods =
      { resolveMethods doc owner r methods with registry := later } := by
  induction methods generalizing r with
  | nil => rfl
  | cons m rest induction =>
      have others := resolveMethods_looks doc owner
        (resolveMethod doc owner r m).registry rest
      have here := resolveMethod_again doc owner (others.trans looks)
      simp only [resolveMethods] at looks ⊢
      rw [here, induction looks]

theorem acceptedHandle?_of_types_grow (doc : Document) {i : Interface}
    (grew : r.types <+: later.types) {entry : Handle × Descriptor}
    (owned : r.owner? (qualify doc.package i.name) = some entry) :
    acceptedHandle? doc later i = acceptedHandle? doc r i := by
  have known := get?_of_owner?_eq_some (d := entry.2) owned
  simp only [acceptedHandle?, find?, findQualified?, owned,
    owner?_eq_some_of_types_grow grew owned, Option.map_some,
    Option.bind_eq_bind, Option.bind_some, known,
    get?_eq_some_of_types_grow grew known]

theorem resolveInterfaces_again (doc : Document) {interfaces : List Interface}
    (owned : ∀ i ∈ interfaces,
      ∃ entry, r.owner? (qualify doc.package i.name) = some entry)
    (looks : Looks (resolveInterfaces doc r interfaces).registry later) :
    resolveInterfaces doc later interfaces =
      { resolveInterfaces doc r interfaces with registry := later } := by
  induction interfaces generalizing r with
  | nil => rfl
  | cons i rest induction =>
      obtain ⟨⟨entry, here⟩, others⟩ := List.forall_mem_cons.mp owned
      have all : Looks r later :=
        (resolveInterfaces_looks doc r (i :: rest)).trans looks
      have same := acceptedHandle?_of_types_grow doc all.types_grow here
      unfold resolveInterfaces at looks ⊢
      rw [same]
      cases accepted : acceptedHandle? doc r i with
      | none =>
          rw [accepted] at looks
          exact induction others looks
      | some h =>
          rw [accepted] at looks
          have first := resolveMethods_looks doc i r i.methods
          have rests := resolveInterfaces_looks doc
            (resolveMethods doc i r i.methods).registry rest
          dsimp only at looks ⊢
          rw [resolveMethods_again doc i (rests.trans looks),
            induction ?_ looks]
          intro j listed
          obtain ⟨owner, there⟩ := others j listed
          exact ⟨owner, owner?_eq_some_of_types_grow first.types_grow there⟩

/-- Every item of the document has a name that belongs to some type. -/
def Owned (doc : Document) (r : Registry) (items : List Item) : Prop :=
  ∀ item ∈ items,
    ∃ entry, r.owner? (item.descriptor doc).qualifiedName = some entry

theorem owned_declareItems (doc : Document) (r : Registry) (items : List Item) :
    Owned doc (declareItems doc r items).1 items := by
  intro item listed
  have owned := isSome_ownerType?_declareItems doc r listed
  rw [ownerType?, Option.isSome_map] at owned
  exact Option.isSome_iff_exists.mp owned

theorem declareItems_of_owned {doc : Document} {items : List Item}
    (owned : Owned doc r items) : (declareItems doc r items).1 = r := by
  induction items with
  | nil => rfl
  | cons item rest induction =>
      obtain ⟨⟨entry, here⟩, others⟩ := List.forall_mem_cons.mp owned
      have same : (declareItem doc r item).1 = r := by
        unfold declareItem register
        rw [here]
        dsimp only
        split <;> rename_i outcome
        · split at outcome
          · exact (congrArg Prod.snd (Except.ok.inj outcome)).symm
          · cases outcome
        · rfl
      simp only [declareItems]
      rw [same]
      exact induction others

theorem declare_again (doc : Document)
    (grew : (doc.declare r).1.types <+: later.types) :
    doc.declare later = (later, (doc.declare r).2) := by
  have owned : Owned doc later doc.items := by
    intro item listed
    obtain ⟨entry, owner⟩ := owned_declareItems doc r doc.items item listed
    exact ⟨entry, owner?_eq_some_of_types_grow grew owner⟩
  have same : (doc.declare later).1 = later := declareItems_of_owned owned
  have reports := reports_declareItems grew
  have stays : (declareItems doc later doc.items).1.types <+: later.types := by
    simp [declareItems_of_owned owned]
  exact Prod.ext same ((reports_declareItems stays).trans reports.symm)

/-- A document that was declared is resolved on what came of that as it was the
first time. -/
theorem resolve_again (doc : Document) (r : Registry) :
    let resolved := doc.resolve (doc.declare r).1
    doc.resolve resolved.registry = resolved := by
  apply resolveInterfaces_again doc ?_ .refl
  intro i listed
  exact owned_declareItems doc r doc.items (.interface i)
    (mem_interfaces_iff.mp listed)

end BinderIdl.Document
