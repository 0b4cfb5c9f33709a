import BinderIdl.Diagnostic.Queue

namespace BinderIdl.Diagnostic.Queue

/-- The queue has counted an error iff it holds one. -/
def Counted (q : Queue) : Prop := q.hasErrors ↔ ∃ d ∈ q.held, d.isError

theorem counted_empty (policy : Policy) : (empty policy).Counted := by
  simp [Counted, hasErrors, empty]

theorem hasErrors_of_isFull {q : Queue} (full : q.isFull) : q.hasErrors := by
  simp only [isFull, hasErrors, Bool.and_eq_true, decide_eq_true_eq] at full ⊢
  omega

theorem Counted.add {q : Queue} (counted : q.Counted) (d : Diagnostic) :
    (q.add d).Counted := by
  unfold Queue.add
  split
  · by_cases error : d.isError
    · simp [Counted, hasErrors, error]
    · simpa [Counted, hasErrors, error, or_and_right, exists_or] using counted
  · exact counted
  · exact counted

theorem hasErrors_add_of_hasErrors {q : Queue} (had : q.hasErrors)
    (d : Diagnostic) :
    (q.add d).hasErrors := by
  unfold add
  split
  · simp only [hasErrors, decide_eq_true_eq] at had ⊢
    split <;> omega
  · exact had
  · exact had

/-- A refused error is beyond a limit that errors have reached, and a repeated
one is held. -/
theorem Counted.hasErrors_add {q : Queue} (counted : q.Counted) {d : Diagnostic}
    (error : d.isError) : (q.add d).hasErrors := by
  unfold Queue.add
  cases judged : q.judge d with
  | accepted => simp [hasErrors, error]
  | refused =>
      unfold judge at judged
      split at judged
      · next condition =>
          exact hasErrors_of_isFull (Bool.and_eq_true_iff.mp condition).2
      · split at judged <;> cases judged
  | repeated =>
      unfold judge at judged
      split at judged
      · cases judged
      · split at judged
        · next condition =>
            have held :=
              List.contains_iff_mem.mp (Bool.and_eq_true_iff.mp condition).2
            exact counted.mpr ⟨d, held, error⟩
        · cases judged

theorem mem_of_mem_add {q : Queue} {d e : Diagnostic}
    (held : e ∈ (q.add d).held) :
    e ∈ q.held ∨ e = d := by
  unfold add at held
  split at held
  · simpa using held
  · exact .inl held
  · exact .inl held

theorem Counted.addAll {q : Queue} (counted : q.Counted)
    (ds : List Diagnostic) :
    (q.addAll ds).Counted := by
  induction ds generalizing q with
  | nil => exact counted
  | cons d rest induction => exact induction (counted.add d)

theorem hasErrors_addAll_of_hasErrors {q : Queue} (had : q.hasErrors)
    (ds : List Diagnostic) :
    (q.addAll ds).hasErrors := by
  induction ds generalizing q with
  | nil => exact had
  | cons d rest induction => exact induction (hasErrors_add_of_hasErrors had d)

theorem Counted.hasErrors_addAll {q : Queue} (counted : q.Counted)
    {ds : List Diagnostic} {d : Diagnostic} (offered : d ∈ ds)
    (error : d.isError) : (q.addAll ds).hasErrors := by
  induction ds generalizing q with
  | nil => cases offered
  | cons first rest induction =>
      rcases List.mem_cons.mp offered with rfl | later
      · exact hasErrors_addAll_of_hasErrors (counted.hasErrors_add error) rest
      · exact induction (counted.add first) later

theorem mem_of_mem_addAll {q : Queue} {ds : List Diagnostic} {e : Diagnostic}
    (held : e ∈ (q.addAll ds).held) : e ∈ q.held ∨ e ∈ ds := by
  induction ds generalizing q with
  | nil => exact .inl held
  | cons d rest induction =>
      rcases induction held with before | later
      · rcases mem_of_mem_add before with old | rfl
        · exact .inl old
        · exact .inr (List.mem_cons_self ..)
      · exact .inr (List.mem_cons_of_mem d later)

theorem mem_flushed {q : Queue} {d : Diagnostic} (out : d ∈ q.flushed) :
    d ∈ q.held ∨ d = limitNote q.errorCount q.refusedCount := by
  unfold flushed at out
  split at out
  · rcases List.mem_append.mp out with held | note
    · exact .inl (q.sorted_perm.mem_iff.mp held)
    · exact .inr (List.mem_singleton.mp note)
  · exact .inl (q.sorted_perm.mem_iff.mp out)

theorem mem_flushed_of_mem_held {q : Queue} {d : Diagnostic}
    (held : d ∈ q.held) :
    d ∈ q.flushed := by
  have sorted := q.sorted_perm.mem_iff.mpr held
  unfold flushed
  split
  · exact List.mem_append_left _ sorted
  · exact sorted

/-- The note about the limit is no error, so what is handed out has errors iff
the queue has. -/
theorem Counted.any_isError_flushed {q : Queue} (counted : q.Counted) :
    q.flushed.any Diagnostic.isError = q.hasErrors := by
  refine Bool.eq_iff_iff.mpr
    (List.any_eq_true.trans (Iff.trans ?_ (Iff.symm counted)))
  constructor
  · rintro ⟨d, out, error⟩
    rcases mem_flushed out with held | rfl
    · exact ⟨d, held, error⟩
    · cases error
  · rintro ⟨d, held, error⟩
    exact ⟨d, mem_flushed_of_mem_held held, error⟩

end BinderIdl.Diagnostic.Queue
