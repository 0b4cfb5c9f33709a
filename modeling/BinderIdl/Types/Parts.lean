import BinderIdl.Types.Registry

/-! The parts of a type: the types whose values are marshalled one by one for
one of its values. Parts have parts themselves, and the same type may be met
many times or lead back to itself, so the types that are reached are gathered
each once. -/

namespace BinderIdl.Types

def Descriptor.partHandles (d : Descriptor) : List Handle :=
  match d.strategy with
  | .generic arguments => arguments.handles
  | _ => []

namespace Registry

def handles (r : Registry) : List Handle := (List.range r.size).map Handle.mk

theorem mem_handles_iff {r : Registry} {h : Handle} :
    h ∈ r.handles ↔ ∃ d, r.get? h = some d := by
  obtain ⟨index⟩ := h
  simp only [handles, get?, size, List.mem_map, List.mem_range, Handle.mk.injEq,
    exists_eq_right]
  constructor
  · exact fun hbound => ⟨r.types[index], List.getElem?_eq_getElem hbound⟩
  · rintro ⟨d, hknown⟩
    exact (List.getElem?_eq_some_iff.mp hknown).1

/-- The parts of a type of the registry; a handle that it does not
hold has none. -/
def parts (r : Registry) (h : Handle) : List Handle :=
  ((r.get? h).map Descriptor.partHandles).getD []

/-- The handles among `fresh` that are reached from `pending`. Each step takes
one of them away. -/
def gatherParts (r : Registry) : Nat → List Handle → List Handle → List Handle
  | 0, _, _ => []
  | steps + 1, fresh, pending =>
      match pending.find? fresh.contains with
      | none => []
      | some h =>
          h :: r.gatherParts steps (fresh.erase h) (r.parts h ++ pending)

def reached (r : Registry) (start : List Handle) : List Handle :=
  r.gatherParts r.size r.handles start

/-- A way from one of the given handles along parts, with all its stations
among `fresh`. -/
inductive ReachedWithin (r : Registry) (fresh start : List Handle) :
    Handle → Prop where
  | start {h : Handle} : h ∈ fresh → h ∈ start → ReachedWithin r fresh start h
  | part {whole h : Handle} : ReachedWithin r fresh start whole → h ∈ fresh →
      h ∈ r.parts whole → ReachedWithin r fresh start h

theorem ReachedWithin.of_erase {r : Registry} {fresh pending : List Handle}
    {taken h : Handle} (hfresh : taken ∈ fresh) (hpending : taken ∈ pending)
    (hreached :
      ReachedWithin r (fresh.erase taken) (r.parts taken ++ pending) h) :
    ReachedWithin r fresh pending h := by
  induction hreached with
  | start hin hstart =>
      rcases List.mem_append.mp hstart with hpart | hgiven
      · exact .part (.start hfresh hpending) (List.mem_of_mem_erase hin) hpart
      · exact .start (List.mem_of_mem_erase hin) hgiven
  | part _ hin hpart induction =>
      exact .part induction (List.mem_of_mem_erase hin) hpart

theorem ReachedWithin.erase {r : Registry} {fresh pending : List Handle}
    {taken h : Handle} (hreached : ReachedWithin r fresh pending h)
    (hother : h ≠ taken) :
    ReachedWithin r (fresh.erase taken) (r.parts taken ++ pending) h := by
  induction hreached with
  | start hin hgiven =>
      exact .start ((List.mem_erase_of_ne hother).mpr hin)
        (List.mem_append_right _ hgiven)
  | @part whole h _ hin hpart induction =>
      have hleft := (List.mem_erase_of_ne hother).mpr hin
      by_cases hwhole : whole = taken
      · exact .start hleft (List.mem_append_left _ (hwhole ▸ hpart))
      · exact .part (induction hwhole) hleft hpart

theorem not_reachedWithin_of_find?_eq_none {r : Registry}
    {fresh pending : List Handle} (hnone : pending.find? fresh.contains = none)
    (h : Handle) :
    ¬ ReachedWithin r fresh pending h := by
  intro hreached
  induction hreached with
  | start hin hgiven =>
      have hout := List.find?_eq_none.mp hnone _ hgiven
      exact hout (List.contains_iff_mem.mpr hin)
  | part _ _ _ induction => exact induction

theorem mem_gatherParts_iff {r : Registry} {steps : Nat}
    {fresh pending : List Handle} {h : Handle}
    (henough : fresh.length ≤ steps) :
    h ∈ r.gatherParts steps fresh pending ↔
      ReachedWithin r fresh pending h := by
  induction steps generalizing fresh pending with
  | zero =>
      have hempty := List.length_eq_zero_iff.mp (Nat.le_zero.mp henough)
      subst hempty
      have hnone : pending.find? ([] : List Handle).contains = none := by simp
      simpa [gatherParts] using not_reachedWithin_of_find?_eq_none hnone h
  | succ steps induction =>
      unfold gatherParts
      split
      · next hnone => simpa using not_reachedWithin_of_find?_eq_none hnone h
      · next taken hfound =>
          have hpending := List.mem_of_find?_eq_some hfound
          have hfresh : taken ∈ fresh :=
            List.contains_iff_mem.mp (List.find?_some hfound)
          have hshorter : (fresh.erase taken).length ≤ steps := by
            rw [List.length_erase_of_mem hfresh]
            omega
          rw [List.mem_cons, induction hshorter]
          constructor
          · rintro (rfl | hrest)
            · exact .start hfresh hpending
            · exact hrest.of_erase hfresh hpending
          · intro hreached
            by_cases hsame : h = taken
            · exact .inl hsame
            · exact .inr (hreached.erase hsame)

theorem mem_reached_iff {r : Registry} {start : List Handle} {h : Handle} :
    h ∈ r.reached start ↔ ReachedWithin r r.handles start h :=
  mem_gatherParts_iff (by simp [handles])

/-- A type is reached from given ones if it is one of them or is reached from
the parts of one of them. -/
theorem mem_reached_iff_exists {r : Registry} {start : List Handle}
    {h : Handle} :
    h ∈ r.reached start ↔
      ∃ first ∈ start,
        first ∈ r.handles ∧ (h = first ∨ h ∈ r.reached (r.parts first)) := by
  simp only [mem_reached_iff]
  constructor
  · intro hreached
    induction hreached with
    | start hin hgiven => exact ⟨_, hgiven, hin, .inl rfl⟩
    | part _ hin hpart induction =>
        obtain ⟨first, hgiven, hfirst, hway⟩ := induction
        refine ⟨first, hgiven, hfirst, .inr ?_⟩
        rcases hway with hsame | hlater
        · exact .start hin (hsame ▸ hpart)
        · exact .part hlater hin hpart
  · rintro ⟨first, hgiven, hfirst, hsame | hlater⟩
    · exact hsame ▸ .start hfirst hgiven
    · induction hlater with
      | start hin hpart => exact .part (.start hfirst hgiven) hin hpart
      | part _ hin hpart induction => exact .part induction hin hpart

end Registry

end BinderIdl.Types
