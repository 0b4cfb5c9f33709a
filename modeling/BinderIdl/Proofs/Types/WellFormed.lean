import BinderIdl.Parcel.Error
import BinderIdl.Proofs.Types.Growth
import Mathlib.Data.List.Nodup

/-! The invariant of the reachable registries: the built-in types stand at their
handles, no two types share a qualified name, and every type is a built-in, a
declared one, or an instance of a template at earlier types that are no
instances themselves. -/

namespace BinderIdl.Types.Registry

open Source Parcel

/-- Where the type at a handle comes from. -/
inductive Origin (r : Registry) (h : Handle) : Descriptor → Prop where
  | builtIn {d : Descriptor} : d ∈ BuiltIn.types → Origin r h d
  | parcelable (package name : String) (site : Site) :
      Origin r h (.parcelable package name site)
  | interface (package name : String) (oneway : Bool) (site : Site) :
      Origin r h (.interface package name oneway site)
  | ofTemplate {t : Template} {handles : List Handle}
      {arguments : List Descriptor} : handles.length = t.arity →
        r.Arguments handles arguments →
        (∀ part ∈ handles, part.index < h.index) →
        Origin r h (t.apply handles arguments)

structure WellFormed (r : Registry) : Prop where
  seeded : BuiltIn.types <+: r.types
  distinct : (r.types.map Descriptor.qualifiedName).Nodup
  origin : ∀ {h : Handle} {d : Descriptor}, r.get? h = some d → Origin r h d

theorem mem_types_of_get?_eq_some {r : Registry} {h : Handle} {d : Descriptor}
    (known : r.get? h = some d) : d ∈ r.types :=
  List.mem_of_getElem? known

theorem index_lt_size_of_get?_eq_some {r : Registry} {h : Handle}
    {d : Descriptor} (known : r.get? h = some d) : h.index < r.size :=
  (List.getElem?_eq_some_iff.mp known).1

theorem owner?_eq_none_iff {r : Registry} {name : String} :
    r.owner? name = none ↔ name ∉ r.types.map Descriptor.qualifiedName := by
  simp only [owner?, List.find?_eq_none, beq_iff_eq, Prod.forall,
    mem_entries_iff, List.mem_map, not_exists, not_and]
  constructor
  · intro free d listed
    obtain ⟨index, bound, here⟩ := List.mem_iff_getElem.mp listed
    exact free ⟨index⟩ d (List.getElem?_eq_some_iff.mpr ⟨bound, here⟩)
  · exact fun free h d known => free d (mem_types_of_get?_eq_some known)

theorem Arguments.mono {r grown : Registry} (grew : r.types <+: grown.types)
    {handles : List Handle} {arguments : List Descriptor}
    (known : r.Arguments handles arguments) :
    grown.Arguments handles arguments :=
  known.imp fun _ _ part => ⟨get?_eq_some_of_types_grow grew part.1, part.2⟩

theorem Origin.mono {r grown : Registry} (grew : r.types <+: grown.types)
    {h : Handle} {d : Descriptor} (origin : Origin r h d) :
    Origin grown h d := by
  cases origin with
  | builtIn listed => exact .builtIn listed
  | parcelable package name site => exact .parcelable package name site
  | interface package name oneway site =>
      exact .interface package name oneway site
  | ofTemplate arity known earlier =>
      exact .ofTemplate arity (known.mono grew) earlier

theorem wellFormed_standard : WellFormed standard where
  seeded := List.prefix_refl _
  distinct := by decide +kernel
  origin known := .builtIn (mem_types_of_get?_eq_some known)

theorem nodup_push {r : Registry}
    (distinct : (r.types.map Descriptor.qualifiedName).Nodup) {d : Descriptor}
    (free : r.owner? d.qualifiedName = none) :
    ((r.types ++ [d]).map Descriptor.qualifiedName).Nodup := by
  rw [List.map_append, List.map_singleton, ← List.concat_eq_append]
  exact distinct.concat (owner?_eq_none_iff.mp free)

/-- A type may be appended if its name is free and its origin is one of
those allowed. -/
theorem WellFormed.push {r grown : Registry} (formed : WellFormed r)
    {d : Descriptor} {h : Handle} (pushed : (h, grown) = r.push d)
    (free : r.owner? d.qualifiedName = none) (origin : Origin r ⟨r.size⟩ d) :
    WellFormed grown := by
  have grew := types_grow_of_eq_push pushed
  cases pushed
  constructor
  · exact formed.seeded.trans grew
  · exact nodup_push formed.distinct free
  · intro k e known
    rcases get?_push_eq_some known with before | ⟨rfl, rfl⟩
    · exact (formed.origin before).mono grew
    · exact origin.mono grew

theorem WellFormed.register {r grown : Registry} (formed : WellFormed r)
    {d : Descriptor} {h : Handle} (accepted : r.register d = .ok (h, grown))
    (origin : Origin r ⟨r.size⟩ d) :
    WellFormed grown := by
  unfold Registry.register at accepted
  split at accepted
  · next free => exact formed.push (Except.ok.inj accepted).symm free origin
  · split at accepted
    · cases accepted
      exact formed
    · cases accepted

theorem WellFormed.of_types_eq {r grown : Registry} (formed : WellFormed r)
    (same : grown.types = r.types) : WellFormed grown where
  seeded := same ▸ formed.seeded
  distinct := same ▸ formed.distinct
  origin known :=
    (formed.origin (get?_eq_some_of_types_grow (same ▸ List.prefix_refl _)
        known)).mono (same ▸ List.prefix_refl _)

theorem WellFormed.instantiate {r grown : Registry} (formed : WellFormed r)
    {t : Template} {handles : List Handle} {h : Handle}
    (made : r.instantiate t handles = .ok (h, grown)) :
    WellFormed grown := by
  obtain ⟨arguments, arity, known, ⟨_, rfl⟩ | ⟨free, pushed⟩⟩ :=
    instantiate_eq_ok made
  · exact formed
  · apply formed.push pushed
    · rw [Template.qualifiedName_apply]
      exact owner?_eq_none_of_findQualified?_eq_none free
    · refine .ofTemplate arity known ?_
      intro part listed
      obtain ⟨_, _, partKnown, _⟩ := exists_mem_of_forall₂ known listed
      exact index_lt_size_of_get?_eq_some partKnown

theorem WellFormed.step {r grown : Registry} (formed : WellFormed r)
    (step : Step r grown) :
    WellFormed grown := by
  cases step with
  | parcelable accepted => exact formed.register accepted (.parcelable _ _ _)
  | interface accepted => exact formed.register accepted (.interface _ _ _ _)
  | template accepted =>
      exact formed.of_types_eq (types_of_registerTemplate_eq_ok accepted)
  | resolve resolved =>
      rcases resolve_eq_ok resolved with ⟨rfl, _⟩ | ⟨t, _, handles, made⟩
      · exact formed
      · exact formed.instantiate made
  | instantiate made => exact formed.instantiate made

theorem WellFormed.grows {r grown : Registry} (formed : WellFormed r)
    (growth : Grows r grown) : WellFormed grown := by
  induction growth with
  | refl => exact formed
  | tail _ step induction => exact induction.step step

theorem Reachable.wellFormed {r : Registry} (reachable : Reachable r) :
    WellFormed r :=
  wellFormed_standard.grows reachable

theorem WellFormed.get?_builtIn {r : Registry} (formed : WellFormed r)
    {h : Handle} {d : Descriptor} (seeded : BuiltIn.types[h.index]? = some d) :
    r.get? h = some d :=
  get?_eq_some_of_types_grow (r := standard) formed.seeded seeded

theorem WellFormed.require_builtIn {r : Registry} (formed : WellFormed r)
    {h : Handle} {d : Descriptor} (seeded : BuiltIn.types[h.index]? = some d) :
    r.require h = .ok d := by
  simp [require, formed.get?_builtIn seeded]

theorem kind_apply (t : Template) (handles : List Handle)
    (arguments : List Descriptor) :
    (t.apply handles arguments).kind = .generic := by
  unfold Template.apply
  split <;> rfl

theorem argumentHandles_apply (t : Template) (handles : List Handle)
    (arguments : List Descriptor) :
    (t.apply handles arguments).argumentHandles = handles := by
  unfold Template.apply
  split <;> rfl

theorem arguments?_eq_none_of_mem_types :
    ∀ d ∈ BuiltIn.types, d.strategy.arguments? = none := by
  decide +kernel

theorem kind_ne_generic_of_mem_types :
    ∀ d ∈ BuiltIn.types, d.kind ≠ .generic := by
  decide +kernel

theorem WellFormed.arguments?_eq_none {r : Registry} (formed : WellFormed r)
    {h : Handle} {d : Descriptor} (known : r.get? h = some d)
    (plain : d.kind ≠ .generic) :
    d.strategy.arguments? = none := by
  cases formed.origin known with
  | builtIn seeded => exact arguments?_eq_none_of_mem_types d seeded
  | parcelable => rfl
  | interface => rfl
  | ofTemplate => exact absurd (kind_apply _ _ _) plain

/-- An instance was made of a template, at types that were there before it. -/
theorem WellFormed.exists_apply {r : Registry} (formed : WellFormed r)
    {h : Handle} {d : Descriptor} (known : r.get? h = some d)
    (generic : d.kind = .generic) :
    ∃ (t : Template) (handles : List Handle) (types : List Descriptor),
      handles.length = t.arity ∧ r.Arguments handles types ∧
      (∀ part ∈ handles, part.index < h.index) ∧ d = t.apply handles types := by
  cases formed.origin known with
  | builtIn seeded =>
      exact absurd generic (kind_ne_generic_of_mem_types d seeded)
  | parcelable => cases generic
  | interface => cases generic
  | ofTemplate arity given earlier =>
      exact ⟨_, _, _, arity, given, earlier, rfl⟩

theorem WellFormed.kind_eq_generic {r : Registry} (formed : WellFormed r)
    {h : Handle} {d : Descriptor} (known : r.get? h = some d)
    {arguments : TypeArguments}
    (given : d.strategy.arguments? = some arguments) : d.kind = .generic := by
  by_contra plain
  cases given.symm.trans (formed.arguments?_eq_none known plain)

theorem WellFormed.argument_known {r : Registry} (formed : WellFormed r)
    {h part : Handle} {d : Descriptor} (known : r.get? h = some d)
    (listed : part ∈ d.argumentHandles) :
    ∃ e, r.get? part = some e ∧ e.kind ≠ .generic := by
  cases formed.origin known with
  | builtIn seeded =>
      rw [Descriptor.argumentHandles,
        arguments?_eq_none_of_mem_types d seeded] at listed
      cases listed
  | parcelable => cases listed
  | interface => cases listed
  | ofTemplate arity arguments earlier =>
      rw [argumentHandles_apply] at listed
      obtain ⟨e, _, argument⟩ := exists_mem_of_forall₂ arguments listed
      exact ⟨e, argument⟩

theorem eq_of_qualifiedName_eq {r : Registry}
    (distinct : (r.types.map Descriptor.qualifiedName).Nodup) {h k : Handle}
    {d e : Descriptor} (known : r.get? h = some d) (other : r.get? k = some e)
    (same : d.qualifiedName = e.qualifiedName) : h = k ∧ d = e := by
  have indices : h.index = k.index := by
    have names (l : Handle) {f : Descriptor} (here : r.get? l = some f) :
        (r.types.map Descriptor.qualifiedName)[l.index]? =
          some f.qualifiedName := by
      rw [List.getElem?_map]
      exact congrArg (Option.map Descriptor.qualifiedName) here
    have bound : h.index < (r.types.map Descriptor.qualifiedName).length := by
      simpa [size] using index_lt_size_of_get?_eq_some known
    apply (List.getElem?_inj bound distinct).mp
    rw [names h known, names k other, same]
  obtain ⟨index⟩ := h
  obtain ⟨otherIndex⟩ := k
  simp only at indices
  subst indices
  exact ⟨rfl, Option.some.inj (known.symm.trans other)⟩

theorem WellFormed.eq_of_qualifiedName_eq {r : Registry} (formed : WellFormed r)
    {h k : Handle} {d e : Descriptor} (known : r.get? h = some d)
    (other : r.get? k = some e) (same : d.qualifiedName = e.qualifiedName) :
    h = k ∧ d = e :=
  Registry.eq_of_qualifiedName_eq formed.distinct known other same

theorem WellFormed.qualifiedName_ne_helper {r : Registry}
    (formed : WellFormed r) {h k : Handle} {d e : Descriptor}
    (known : r.get? h = some d) (other : d.strategy ≠ .helper)
    (seeded : BuiltIn.types[k.index]? = some e)
    (helper : e.strategy = .helper) :
    d.qualifiedName ≠ e.qualifiedName := by
  intro same
  obtain ⟨_, rfl⟩ :=
    formed.eq_of_qualifiedName_eq known (formed.get?_builtIn seeded) same
  exact other helper

end BinderIdl.Types.Registry
