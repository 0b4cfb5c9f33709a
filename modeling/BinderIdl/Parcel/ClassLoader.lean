import BinderIdl.Types.Parts

/-! Which types can only be created or read with a class loader: those whose
values the parcel carries without their types, and those that have such a type
among their parts. -/

namespace BinderIdl.Types

/-- The parcel call that makes a value looks its class up. -/
def Strategy.looksUpClasses : Strategy → Bool
  | .map | .list | .genericList _ .untyped => true
  | _ => false

namespace Registry

def looksUpClasses (r : Registry) (h : Handle) : Bool :=
  (r.get? h).any fun d => d.strategy.looksUpClasses

def needsClassLoader (r : Registry) (d : Descriptor) : Bool :=
  d.strategy.looksUpClasses || (r.reached d.partHandles).any r.looksUpClasses

theorem needsClassLoader_iff {r : Registry} {d : Descriptor} :
    r.needsClassLoader d ↔ d.strategy.looksUpClasses ∨
      ∃ h, ReachedWithin r r.handles d.partHandles h ∧ r.looksUpClasses h := by
  simp [needsClassLoader, mem_reached_iff]

theorem needsClassLoader_eq_of_not_generic {r : Registry} {d : Descriptor}
    (hwhole : ∀ arguments, d.strategy ≠ .generic arguments) :
    r.needsClassLoader d = d.strategy.looksUpClasses := by
  have hparts : d.partHandles = [] := by
    unfold Descriptor.partHandles
    split
    · next arguments hgeneric => exact absurd hgeneric (hwhole arguments)
    · rfl
  have hnone : r.reached [] = [] := by
    apply List.eq_nil_iff_forall_not_mem.mpr
    intro h hreached
    obtain ⟨_, hgiven, _⟩ := mem_reached_iff_exists.mp hreached
    cases hgiven
  simp [needsClassLoader, hparts, hnone]

/-- A container needs a class loader if one of its known parts does. -/
theorem needsClassLoader_eq_any_parts {r : Registry} {d : Descriptor}
    {arguments : TypeArguments} (hgeneric : d.strategy = .generic arguments) :
    r.needsClassLoader d =
      arguments.handles.any fun h => (r.get? h).any r.needsClassLoader := by
  have hparts : d.partHandles = arguments.handles := by
    simp [Descriptor.partHandles, hgeneric]
  have hlookup : d.strategy.looksUpClasses = false := by
    rw [hgeneric]
    rfl
  apply Bool.eq_iff_iff.mpr
  simp only [needsClassLoader, hparts, hlookup, Bool.false_or, List.any_eq_true,
    Option.any_eq_true]
  constructor
  · rintro ⟨h, hreached, hlooks⟩
    obtain ⟨first, hgiven, hin, hway⟩ := mem_reached_iff_exists.mp hreached
    obtain ⟨part, hknown⟩ := mem_handles_iff.mp hin
    refine ⟨first, hgiven, part, hknown, ?_⟩
    rcases hway with rfl | hlater
    · simp only [Registry.looksUpClasses, hknown, Option.any_some] at hlooks
      exact Bool.or_eq_true_iff.mpr (.inl hlooks)
    · simp only [parts, hknown, Option.map_some, Option.getD_some] at hlater
      exact Bool.or_eq_true_iff.mpr (.inr (List.any_eq_true.mpr ⟨h, hlater,
        hlooks⟩))
  · rintro ⟨first, hgiven, part, hknown, hneeds⟩
    have hin := mem_handles_iff.mpr ⟨part, hknown⟩
    rcases Bool.or_eq_true_iff.mp hneeds with hlooks | hlater
    · exact ⟨first, mem_reached_iff_exists.mpr ⟨first, hgiven, hin, .inl rfl⟩,
        by simpa [Registry.looksUpClasses, hknown] using hlooks⟩
    · obtain ⟨h, hreached, hlooks⟩ := List.any_eq_true.mp hlater
      have hparts : h ∈ r.reached (r.parts first) := by
        simpa [parts, hknown] using hreached
      exact ⟨h,
        mem_reached_iff_exists.mpr ⟨first, hgiven, hin, .inr hparts⟩, hlooks⟩

end Registry

end BinderIdl.Types
