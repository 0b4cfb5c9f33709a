import BinderIdl.Document.Declaration
import BinderIdl.Proofs.Document.Resolution
import BinderIdl.Proofs.Types.Alike

namespace BinderIdl

open Source BinderIdl.Types

namespace Types.Registry

variable {r grown : Registry}

/-- The type that a name belongs to. -/
def ownerType? (r : Registry) (name : String) : Option Descriptor :=
  (r.owner? name).map Prod.snd

theorem ownerType?_of_types_grow (grew : r.types <+: grown.types)
    {name : String} {d : Descriptor} (owned : r.ownerType? name = some d) :
    grown.ownerType? name = some d := by
  obtain ⟨entry, owner, rfl⟩ := Option.map_eq_some_iff.mp owned
  rw [ownerType?, owner?_eq_some_of_types_grow grew owner]
  rfl

theorem mem_types_of_ownerType?_eq_some {name : String} {d : Descriptor}
    (owned : r.ownerType? name = some d) :
    d ∈ r.types ∧ d.qualifiedName = name := by
  obtain ⟨entry, owner, rfl⟩ := Option.map_eq_some_iff.mp owned
  exact ⟨mem_types_of_get?_eq_some (get?_of_owner?_eq_some owner),
    qualifiedName_of_owner?_eq_some owner⟩

theorem mem_types_iff (distinct : (r.types.map Descriptor.qualifiedName).Nodup)
    {d : Descriptor} : d ∈ r.types ↔ r.ownerType? d.qualifiedName = some d := by
  constructor
  · intro listed
    obtain ⟨h, known⟩ := exists_get?_of_mem listed
    rw [ownerType?, (owner?_eq_some_iff distinct).mpr ⟨known, rfl⟩]
    rfl
  · exact fun owned => (mem_types_of_ownerType?_eq_some owned).1

theorem templates_of_register_eq_ok {d : Descriptor} {h : Handle}
    (accepted : r.register d = .ok (h, grown)) :
    grown.templates = r.templates := by
  rcases eq_or_push_of_register_eq_ok accepted with rfl | pushed
  · rfl
  · cases pushed
    rfl

end Types.Registry

namespace Document

open Registry

variable {r : Registry}

/-- The types that a document declares, in their order. -/
def declared (doc : Document) :
    List Descriptor := doc.items.map (Item.descriptor doc)

theorem plain_descriptor (doc : Document) (item : Item) :
    (item.descriptor doc).kind ≠ .generic := by
  cases item <;> nofun

theorem ownerType?_declareItem (doc : Document) (r : Registry) (item : Item)
    (name : String) :
    (declareItem doc r item).1.ownerType? name =
      (r.ownerType? name).or (if (item.descriptor doc).qualifiedName ==
        name then some (item.descriptor doc)
        else none) := by
  unfold declareItem register
  cases owned : r.owner? (item.descriptor doc).qualifiedName with
  | none =>
      have pushed := r.owner?_push (item.descriptor doc) name
      simp only [ownerType?]
      rw [pushed]
      cases r.owner? name with
      | some entry => rfl
      | none =>
          simp only [Option.or, Option.map_none]
          split <;> rfl
  | some entry =>
      have same : ∀ s : Registry, s = r → s.ownerType? name =
          (r.ownerType? name).or (if (item.descriptor doc).qualifiedName ==
            name then some (item.descriptor doc)
            else none) := by
        rintro _ rfl
        split
        · next here =>
            rw [ownerType?, ← beq_iff_eq.mp here, owned]
            rfl
        · exact (Option.or_none).symm
      dsimp only
      split
      · next accepted =>
          split at accepted
          · exact same _ (congrArg Prod.snd (Except.ok.inj accepted)).symm
          · cases accepted
      · exact same r rfl

theorem ownerType?_declareItems (doc : Document) (r : Registry)
    (items : List Item) (name : String) :
    (declareItems doc r items).1.ownerType? name =
      (r.ownerType? name).or ((items.map (Item.descriptor doc)).find? fun d =>
        d.qualifiedName == name) := by
  induction items generalizing r with
  | nil => exact (Option.or_none).symm
  | cons item rest induction =>
      have later := induction (declareItem doc r item).1
      rw [ownerType?_declareItem, Option.or_assoc] at later
      simp only [declareItems, later, List.map_cons, List.find?_cons]
      cases (item.descriptor doc).qualifiedName == name with
      | true => rfl
      | false => rfl

theorem isSome_ownerType?_declareItems (doc : Document) (r : Registry)
    {items : List Item} {item : Item} (listed : item ∈ items) :
    ((declareItems doc r items).1.ownerType?
      (item.descriptor doc).qualifiedName).isSome := by
  have declared : ((items.map (Item.descriptor doc)).find? fun d =>
      d.qualifiedName == (item.descriptor doc).qualifiedName).isSome :=
    List.find?_isSome.mpr ⟨_, List.mem_map_of_mem listed, beq_self_eq_true _⟩
  rw [ownerType?_declareItems, Option.isSome_or, declared, Bool.or_true]

/-- The report on a declaration, by the type that its name belongs to. -/
def objections (doc : Document) (item : Item) :
    Option Descriptor → List Diagnostic
  | none => []
  | some owner =>
      if owner = item.descriptor doc then []
      -- The handle of the owner shows in no report.
      else
        [(RegisterError.redefinition (item.descriptor doc) .void owner).report
          (doc.site item.line)]

theorem reports_declareItem {doc : Document} {item : Item} {later : Registry}
    (grew : (declareItem doc r item).1.types <+: later.types) :
    (declareItem doc r item).2 = objections doc item
      (later.ownerType? (item.descriptor doc).qualifiedName) := by
  have owned :=
    ownerType?_declareItem doc r item (item.descriptor doc).qualifiedName
  rw [beq_self_eq_true, if_pos rfl] at owned
  cases before : r.owner? (item.descriptor doc).qualifiedName with
  | none =>
      have unowned :
          r.ownerType? (item.descriptor doc).qualifiedName = none := by
        rw [ownerType?, before]
        rfl
      rw [unowned] at owned
      rw [ownerType?_of_types_grow grew owned]
      simp [declareItem, register, before, objections]
  | some entry =>
      have known :
          r.ownerType? (item.descriptor doc).qualifiedName = some entry.2 := by
        rw [ownerType?, before]
        rfl
      rw [known] at owned
      rw [ownerType?_of_types_grow grew owned]
      simp only [declareItem, register, before, objections]
      split <;> rename_i outcome
      · split at outcome
        · next same => rw [if_pos same]
        · cases outcome
      · split at outcome
        · cases outcome
        · next other =>
            cases outcome
            rw [if_neg other]
            rfl

theorem reports_declareItems {doc : Document} {items : List Item}
    {later : Registry}
    (grew : (declareItems doc r items).1.types <+: later.types) :
    (declareItems doc r items).2 = items.flatMap fun item =>
      objections doc item
        (later.ownerType? (item.descriptor doc).qualifiedName) := by
  induction items generalizing r with
  | nil => rfl
  | cons item rest induction =>
      have more :=
        (declareItems_grows doc (declareItem doc r item).1 rest).types_grow
      exact congrArg₂ _ (reports_declareItem (more.trans grew)) (induction grew)

theorem ownerType?_of_declareItems {doc : Document} {items : List Item}
    (silent : (declareItems doc r items).2 = []) {d : Descriptor}
    (listed : d ∈ items.map (Item.descriptor doc)) :
    (declareItems doc r items).1.ownerType? d.qualifiedName = some d := by
  rw [reports_declareItems (List.prefix_refl _),
    List.flatMap_eq_nil_iff] at silent
  obtain ⟨item, member, rfl⟩ := List.mem_map.mp listed
  obtain ⟨owner, owned⟩ :=
    Option.isSome_iff_exists.mp (isSome_ownerType?_declareItems doc r member)
  have mine := silent item member
  rw [owned, objections] at mine
  split at mine
  · next same => rw [owned, same]
  · cases mine

/-- All declared packages and names are ordinary ones. -/
def Unmarked (doc : Document) : Prop :=
  ∀ d ∈ doc.declared, Types.Unmarked d.package ∧ Types.Unmarked d.name

theorem settled_declareItem (settled : Settled r) {doc : Document} {item : Item}
    (package : Types.Unmarked (item.descriptor doc).package)
    (name : Types.Unmarked (item.descriptor doc).name) :
    Settled (declareItem doc r item).1 ∧
    (declareItem doc r item).1.templates = r.templates := by
  have formed := settled.formed.grows (declareItem_grows doc r item)
  unfold declareItem at formed ⊢
  split at formed
  · next h grown accepted =>
      exact ⟨⟨formed, settled.canonical.register (plain_descriptor doc item)
          package name accepted⟩, templates_of_register_eq_ok accepted⟩
  · exact ⟨settled, rfl⟩

theorem settled_declareItems (settled : Settled r) {doc : Document}
    (items : List Item)
    (unmarked : ∀ item ∈ items, Types.Unmarked (item.descriptor doc).package ∧
      Types.Unmarked (item.descriptor doc).name) :
    Settled (declareItems doc r items).1 ∧
      (declareItems doc r items).1.templates = r.templates := by
  induction items generalizing r with
  | nil => exact ⟨settled, rfl⟩
  | cons item rest induction =>
      obtain ⟨⟨package, name⟩, others⟩ := List.forall_mem_cons.mp unmarked
      obtain ⟨first, kept⟩ := settled_declareItem settled package name
      obtain ⟨final, keptLater⟩ := induction first others
      exact ⟨final, keptLater.trans kept⟩

end Document

end BinderIdl
