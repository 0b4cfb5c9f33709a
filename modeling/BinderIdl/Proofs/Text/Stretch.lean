namespace BinderIdl.Text

variable {p : Char → Prop} {first second rest more : List Char}

/-- A stretch reaches to the first character of another kind, so a text shows
where it ends. -/
theorem stretch_inj (inside : ∀ c ∈ first, p c)
    (otherInside : ∀ c ∈ second, p c) (outside : ∀ c ∈ rest.head?, ¬ p c)
    (otherOutside : ∀ c ∈ more.head?, ¬ p c)
    (same : first ++ rest = second ++ more) : first = second ∧ rest = more := by
  induction first generalizing second with
  | nil =>
      cases second with
      | nil => exact ⟨rfl, same⟩
      | cons c second =>
          rw [List.nil_append] at same
          exact absurd (otherInside c List.mem_cons_self)
            (outside c (by simp [same]))
  | cons c first induction =>
      cases second with
      | nil =>
          rw [List.nil_append] at same
          exact absurd (inside c List.mem_cons_self)
            (otherOutside c (by simp [← same]))
      | cons d second =>
          obtain ⟨rfl, later⟩ := List.cons.inj same
          obtain ⟨rfl, ends⟩ :=
            induction (fun d listed => inside d (List.mem_cons_of_mem c listed))
              (fun d listed => otherInside d (List.mem_cons_of_mem c listed))
              later
          exact ⟨rfl, ends⟩

end BinderIdl.Text
