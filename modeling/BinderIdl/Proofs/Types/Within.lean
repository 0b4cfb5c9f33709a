import BinderIdl.Proofs.Types.Alike

namespace BinderIdl.Types.Registry

/-- All types that are declared in `r` are declared in `s`, and nothing else in
`s` goes by one of their simple names. -/
structure Within (r s : Registry) : Prop where
  left : Settled r
  right : Settled s
  templates : r.templates = s.templates
  plain : ∀ d ∈ r.types, d.kind ≠ .generic → d ∈ s.types
  apart : ∀ d ∈ r.types, d.kind ≠ .generic → ∀ e ∈ s.types, e.kind ≠ .generic →
    d.name = e.name → e ∈ r.types
  dotless : ∀ d ∈ r.types, d.kind ≠ .generic → '.' ∉ d.name.toList

variable {r s grown final : Registry}

theorem Within.peers (within : Within r s) : Peers r s :=
  ⟨within.left.formed, within.right.formed⟩

theorem Within.of_alike (within : Within r s) (first : Alike r grown)
    (second : Alike s final) :
    Within grown final where
  left := first.right
  right := second.right
  templates :=
    first.templates.symm.trans (within.templates.trans second.templates)
  plain d listed plain := by
    apply (second.plain d plain).mp
    exact within.plain d ((first.plain d plain).mpr listed) plain
  apart d listed plain e known other same := by
    apply (first.plain e other).mp
    exact within.apart d ((first.plain d plain).mpr listed) plain e
      ((second.plain e other).mpr known) other same
  dotless d listed plain :=
    within.dotless d ((first.plain d plain).mpr listed) plain

theorem dot_mem_qualify {package name : String} (some : package ≠ "") :
    '.' ∈ (qualify package name).toList := by
  unfold qualify
  split
  · next empty => exact absurd (String.isEmpty_iff.mp empty) some
  · simp

theorem qualifiedName_of_plain {d : Descriptor} (plain : d.kind ≠ .generic) :
    d.qualifiedName = qualify d.package d.name := by
  rw [Descriptor.qualifiedName.eq_def]
  split
  · next generic => exact absurd generic plain
  · rfl

theorem name_eq_of_dot_not_mem {d : Descriptor} (plain : d.kind ≠ .generic)
    (dotless : '.' ∉ d.qualifiedName.toList) : d.qualifiedName = d.name := by
  rw [qualifiedName_of_plain plain] at dotless ⊢
  have default : d.package = "" := by
    by_contra some
    exact dotless (dot_mem_qualify some)
  rw [default]
  rfl

theorem takeWhile_reverse_qualify (package : String) {name : String}
    (dotless : '.' ∉ name.toList) :
    (qualify package name).toList.reverse.takeWhile (· != '.') =
      name.toList.reverse := by
  have free : ∀ c ∈ name.toList.reverse, (c != '.') = true := by
    intro c listed
    rw [List.mem_reverse] at listed
    exact bne_iff_ne.mpr fun same => dotless (same ▸ listed)
  unfold qualify
  split
  · exact List.takeWhile_eq_self_iff.mpr free
  · simp [List.takeWhile_append_of_pos free]

theorem name_eq_of_qualifiedName_eq {d e : Descriptor}
    (plain : d.kind ≠ .generic) (other : e.kind ≠ .generic)
    (dotless : '.' ∉ d.name.toList) (otherDotless : '.' ∉ e.name.toList)
    (same : d.qualifiedName = e.qualifiedName) : d.name = e.name := by
  rw [qualifiedName_of_plain plain, qualifiedName_of_plain other] at same
  have last := takeWhile_reverse_qualify d.package dotless
  rw [same, takeWhile_reverse_qualify e.package otherDotless] at last
  exact (String.toList_injective (List.reverse_injective last)).symm

theorem Within.findQualified? (within : Within r s) {name : String}
    (free : '<' ∉ name.toList) {h : Handle}
    (found : r.findQualified? name = some h) :
    ∃ k, s.findQualified? name = some k ∧ SamePart r s h k := by
  obtain ⟨d, known, rfl⟩ := get?_of_findQualified?_eq_some found
  have plain := within.left.plain_of_free known free
  obtain ⟨k, there, denoted⟩ :=
    exists_findQualified?_of_mem within.right.formed.distinct
      (within.plain d (mem_types_of_get?_eq_some known) plain)
  exact ⟨k, there, d, known, denoted, plain⟩

/-- A simple name of the smaller registry is a qualified one in the larger, if
it is one at all, because it is one in the smaller. -/
theorem Within.findQualified?_eq_none (within : Within r s) {d : Descriptor}
    (listed : d ∈ r.types) (plain : d.kind ≠ .generic)
    (free : '<' ∉ d.name.toList) (unowned : r.findQualified? d.name = none) :
    s.findQualified? d.name = none := by
  cases found : s.findQualified? d.name with
  | none => rfl
  | some k =>
      obtain ⟨e, known, named⟩ := get?_of_findQualified?_eq_some found
      have other := within.right.plain_of_free known (named ▸ free)
      have simple :=
        name_eq_of_dot_not_mem other (named ▸ within.dotless d listed plain)
      have member := within.apart d listed plain e
        (mem_types_of_get?_eq_some known) other (named.symm.trans simple)
      obtain ⟨h, here, _⟩ :=
        exists_findQualified?_of_mem within.left.formed.distinct member
      rw [named, unowned] at here
      cases here

theorem Within.resolveName (within : Within r s) {name : String}
    (free : '<' ∉ name.toList) {h : Handle}
    (resolved : r.resolveName name = .ok h) :
    ∃ k, s.resolveName name = .ok k ∧ SamePart r s h k := by
  unfold Registry.resolveName at resolved ⊢
  split at resolved
  · next first found =>
      cases resolved
      obtain ⟨k, there, part⟩ := within.findQualified? free found
      rw [there]
      exact ⟨k, rfl, part⟩
  · next unowned =>
      split at resolved
      · cases resolved
      · next entry single =>
          cases resolved
          have member : entry ∈ r.named name := by
            rw [single]; exact List.mem_cons_self
          obtain ⟨known, plain, rfl⟩ := mem_named_iff.mp member
          have listed := mem_types_of_get?_eq_some known
          -- Both registries have the same candidates, and in the larger one too
          -- no qualified name hides them.
          have perm := within.left.legible.named_perm within.right.legible _
            fun e other same =>
              ⟨fun mine => within.plain e mine other, fun theirs =>
                within.apart entry.2 listed plain e theirs other same.symm⟩
          rw [single, List.map_singleton] at perm
          obtain ⟨there, alone, same⟩ :=
            List.map_eq_singleton_iff.mp (List.singleton_perm.mp perm).symm
          have denoted : there ∈ s.named entry.2.name := by
            rw [alone]; exact List.mem_cons_self
          obtain ⟨knownThere, _, _⟩ := mem_named_iff.mp denoted
          rw [within.findQualified?_eq_none listed plain free unowned, alone]
          exact ⟨there.1, rfl, entry.2, known, same ▸ knownThere, plain⟩
      · cases resolved

theorem Within.mapM_resolveName (within : Within r s) {names : List String}
    (free : ∀ name ∈ names, '<' ∉ name.toList) {handles : List Handle}
    (resolved : names.mapM r.resolveName = .ok handles) :
    ∃ others, names.mapM s.resolveName = .ok others ∧
      List.Forall₂ (SamePart r s) handles others := by
  simp only [mapM_eq_ok_iff] at resolved ⊢
  induction resolved with
  | nil => exact ⟨[], .nil, .nil⟩
  | cons here _ induction =>
      obtain ⟨freeHere, freeLater⟩ := List.forall_mem_cons.mp free
      obtain ⟨k, there, part⟩ := within.resolveName freeHere here
      obtain ⟨others, found, parts⟩ := induction freeLater
      exact ⟨k :: others, .cons there found, .cons part parts⟩

theorem Within.instantiate (within : Within r s) {t : Template}
    (member : t ∈ r.templates) {handles others : List Handle}
    (parts : List.Forall₂ (SamePart r s) handles others) :
    Matched (fun entry other => Within entry.2 other.2 ∧
      SameType entry.2 other.2 entry.1 other.1) (r.instantiate t handles)
      (s.instantiate t others) :=
  (within.left.matched_instantiate within.right member
    (within.templates ▸ member) parts).imp fun _ _ ⟨after, otherAfter, same⟩ =>
      ⟨within.of_alike after otherAfter, same⟩

theorem Within.resolve (within : Within r s) {text : String}
    (known : ∃ entry, r.resolve text = .ok entry) :
    Matched (fun entry other =>
        Within entry.2 other.2 ∧ SameType entry.2 other.2 entry.1 other.1)
      (r.resolve text) (s.resolve text) := by
  obtain ⟨⟨h, grown⟩, resolved⟩ := known
  rcases resolve_cases resolved with ⟨name, read, found, _⟩ |
    ⟨base, arguments, t, handles, read, template, found, _⟩
  · obtain ⟨k, there, part⟩ :=
      within.resolveName (Reference.opening_not_mem_of_split_eq_plain read)
        found
    rw [resolve_of_plain read, resolve_of_plain read, found, there]
    exact .ok ⟨within, part.sameType within.left.formed⟩
  · obtain ⟨others, there, parts⟩ :=
      within.mapM_resolveName
        (Reference.opening_not_mem_of_split_eq_generic read) found
    have sameTemplate : s.resolveTemplate base = .ok t := by
      rw [← template]
      unfold Registry.resolveTemplate Registry.template?
      rw [within.templates]
    rw [resolve_of_generic read template found,
      resolve_of_generic read sameTemplate there]
    exact within.instantiate (mem_of_resolveTemplate_eq_ok template).1 parts

theorem simulation_within : Simulation Within True where
  formed within := within.left.formed
  findQualified? within free known := by
    obtain ⟨h, found⟩ := Option.isSome_iff_exists.mp (known trivial)
    obtain ⟨k, there, part⟩ := within.findQualified? free found
    rw [found, there]
    exact .some part
  resolve within known := within.resolve (known trivial)

end BinderIdl.Types.Registry
