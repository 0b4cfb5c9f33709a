/-! Where something is declared in interface source. Built-in types have no
site, so most uses are optional; an absent site comes first in every order. -/

namespace BinderIdl.Source

structure Site where
  file : String
  line : Nat
deriving DecidableEq

namespace Site

def text (site : Site) : String :=
  site.file ++ ":" ++ toString site.line

/-- By file in code point order, then by line. -/
def le (first second : Site) : Bool :=
  decide (first.file < second.file) ||
    (first.file == second.file && decide (first.line ≤ second.line))

theorem le_iff {first second : Site} :
    first.le second ↔ first.file < second.file ∨
      first.file = second.file ∧ first.line ≤ second.line := by
  simp [le]

theorem le_total (first second : Site) :
    first.le second || second.le first := by
  rw [Bool.or_eq_true, le_iff, le_iff]
  by_cases hlt : first.file < second.file
  · exact .inl (.inl hlt)
  · by_cases hgt : second.file < first.file
    · exact .inr (.inl hgt)
    · have hfile :=
        String.le_antisymm (String.not_lt.mp hgt) (String.not_lt.mp hlt)
      rcases Nat.le_total first.line second.line with hline | hline
      · exact .inl (.inr ⟨hfile, hline⟩)
      · exact .inr (.inr ⟨hfile.symm, hline⟩)

theorem le_trans {first second third : Site} (h : first.le second)
    (g : second.le third) :
    first.le third := by
  rw [le_iff] at h g ⊢
  rcases h with hfile | ⟨hfile, hline⟩
  · rcases g with gfile | ⟨gfile, _⟩
    · exact .inl (String.lt_trans hfile gfile)
    · exact .inl (gfile ▸ hfile)
  · rcases g with gfile | ⟨gfile, gline⟩
    · exact .inl (hfile ▸ gfile)
    · exact .inr ⟨hfile.trans gfile, Nat.le_trans hline gline⟩

end Site

/-- The file of a declaration, empty for a built-in. -/
def fileOf (site : Option Site) : String :=
  (site.map Site.file).getD ""

/-- The largest line that a signed 32-bit number can hold. -/
def lineLimit : Nat := 2147483647

/-- The line of a declaration, clamped to `lineLimit`; a built-in
is on line -1. -/
def lineOf : Option Site → Int
  | none => -1
  | some site => min site.line lineLimit

/-- The order in which reports are given: what has no site comes first. -/
def optionLe : Option Site → Option Site → Bool
  | none, _ => true
  | some _, none => false
  | some first, some second => first.le second

theorem optionLe_total (first second : Option Site) :
    optionLe first second || optionLe second first := by
  cases first with
  | none => rfl
  | some first =>
      cases second with
      | none => rfl
      | some second => exact first.le_total second

theorem optionLe_trans (first second third : Option Site)
    (h : optionLe first second) (g : optionLe second third) :
    optionLe first third := by
  cases first with
  | none => rfl
  | some first =>
      cases second with
      | none => exact absurd h (by simp [optionLe])
      | some second =>
          cases third with
          | none => exact absurd g (by simp [optionLe])
          | some third => exact Site.le_trans h g

end BinderIdl.Source
