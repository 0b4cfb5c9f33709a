import BinderIdl.Proofs.Diagnostic.Queue

namespace BinderIdl

variable {α : Type} {le : α → α → Bool}

theorem mergeSort_sublist (trans : ∀ a b c, le a b → le b c → le a c)
    (total : ∀ a b, le a b || le b a) {xs ys : List α} (part : xs.Sublist ys) :
    (xs.mergeSort le).Sublist (ys.mergeSort le) := by
  induction part with
  | slnil => exact .refl _
  | @cons _ ys y _ induction =>
      obtain ⟨front, back, sorted, rest, _⟩ :=
        List.mergeSort_cons trans total y ys
      rw [rest] at induction
      rw [sorted]
      exact induction.trans ((List.sublist_cons_self y back).append_left front)
  | @cons_cons xs ys y _ induction =>
      -- What precedes the new member is what it is not below of, in
      -- either list.
      have split (zs : List α) : ∃ front back,
          (y :: zs).mergeSort le = front ++ y :: back ∧
          (zs.mergeSort le).filter (fun b => !le y b) = front ∧
          (zs.mergeSort le).filter (fun b => le y b) = back := by
        obtain ⟨front, back, sorted, rest, before⟩ :=
          List.mergeSort_cons trans total y zs
        have ordered := List.pairwise_mergeSort trans total (y :: zs)
        rw [sorted] at ordered
        have after : ∀ b ∈ back, le y b := by
          intro b listed
          exact List.rel_of_pairwise_cons (List.pairwise_append.mp ordered).2.1
            listed
        refine ⟨front, back, sorted, ?_, ?_⟩
        · rw [rest, List.filter_append, List.filter_eq_self.mpr before,
            List.filter_eq_nil_iff.mpr (by simpa using after), List.append_nil]
        · rw [rest, List.filter_append, List.filter_eq_self.mpr after,
            List.filter_eq_nil_iff.mpr (by simpa using before), List.nil_append]
      obtain ⟨front, back, sorted, rfl, rfl⟩ := split xs
      obtain ⟨otherFront, otherBack, otherSorted, rfl, rfl⟩ := split ys
      rw [sorted, otherSorted]
      exact (induction.filter _).append ((induction.filter _).cons_cons y)

namespace Diagnostic.Queue

theorem Counted.hasErrors_addAll_eq {q : Queue} (counted : q.Counted)
    (ds : List Diagnostic) :
    (q.addAll ds).hasErrors = (q.hasErrors || ds.any Diagnostic.isError) := by
  apply Bool.eq_iff_iff.mpr
  rw [Bool.or_eq_true, List.any_eq_true]
  constructor
  · intro loud
    obtain ⟨d, held, error⟩ := (counted.addAll ds).mp loud
    rcases mem_of_mem_addAll held with before | offered
    · exact .inl (counted.mpr ⟨d, before, error⟩)
    · exact .inr ⟨d, offered, error⟩
  · rintro (had | ⟨d, offered, error⟩)
    · exact hasErrors_addAll_of_hasErrors had ds
    · exact counted.hasErrors_addAll offered error

/-- Whether a queue has errors is decided by what it was offered,
whatever its policy. -/
theorem hasErrors_offered (policy : Policy) (ds : List Diagnostic) :
    ((empty policy).addAll ds).hasErrors = ds.any Diagnostic.isError :=
  (counted_empty policy).hasErrors_addAll_eq ds

theorem any_isError_flushed_offered (policy : Policy) (ds : List Diagnostic) :
    ((empty policy).addAll ds).flushed.any Diagnostic.isError =
      ds.any Diagnostic.isError := by
  rw [((counted_empty policy).addAll ds).any_isError_flushed, hasErrors_offered]

@[simp] theorem flushed_empty (policy : Policy) :
    (empty policy).flushed = [] := by
  simp [flushed, sorted, empty]

theorem held_add_sublist (q : Queue) (d : Diagnostic) :
    (q.add d).held.Sublist (q.held ++ [d]) := by
  unfold add
  split
  · exact .refl _
  · exact List.sublist_append_left ..
  · exact List.sublist_append_left ..

theorem held_addAll_sublist (q : Queue) (ds : List Diagnostic) :
    (q.addAll ds).held.Sublist (q.held ++ ds) := by
  induction ds generalizing q with
  | nil => exact List.sublist_append_left ..
  | cons d rest induction =>
      refine (induction (q.add d)).trans ?_
      simpa using (held_add_sublist q d).append_right rest

theorem held_offered_sublist (policy : Policy) (ds : List Diagnostic) :
    ((empty policy).addAll ds).held.Sublist ds :=
  held_addAll_sublist (empty policy) ds

theorem add_of_unlimited {q : Queue} (unlimited : q.policy = .unlimited)
    (d : Diagnostic) :
    (q.add d).held = q.held ++ [d] ∧
    (q.add d).refusedCount = q.refusedCount := by
  have accepted : q.judge d = .accepted := by
    simp [judge, isFull, unlimited, Policy.unlimited]
  simp [add, accepted]

theorem addAll_of_unlimited {q : Queue} (unlimited : q.policy = .unlimited)
    (ds : List Diagnostic) :
    (q.addAll ds).held = q.held ++ ds ∧
    (q.addAll ds).refusedCount = q.refusedCount := by
  induction ds generalizing q with
  | nil => exact ⟨(List.append_nil _).symm, rfl⟩
  | cons d rest induction =>
      obtain ⟨held, refused⟩ := add_of_unlimited unlimited d
      obtain ⟨more, others⟩ := induction ((q.policy_add d).trans unlimited)
      refine ⟨more.trans ?_, others.trans refused⟩
      rw [held, List.append_assoc, List.singleton_append]

theorem sublist_sorted {q other : Queue} (part : q.held.Sublist other.held) :
    q.sorted.Sublist other.sorted :=
  mergeSort_sublist (fun a b c =>
      Source.optionLe_trans a.primarySite b.primarySite c.primarySite)
    (fun a b => Source.optionLe_total a.primarySite b.primarySite) part

theorem flushed_of_unlimited (ds : List Diagnostic) :
    ((empty .unlimited).addAll ds).flushed =
      ((empty .unlimited).addAll ds).sorted := by
  have refused := (addAll_of_unlimited (q := empty .unlimited) rfl ds).2
  rw [flushed, refused]
  rfl

/-- Besides the note about its limit, a queue hands out what an unlimited one
does, or less. -/
theorem flushed_offered_sublist (policy : Policy) (ds : List Diagnostic) :
    (((empty policy).addAll ds).flushed.filter fun d => d.code !=
      .tooManyErrors).Sublist ((empty .unlimited).addAll ds).flushed := by
  have kept : ((empty policy).addAll ds).sorted.Sublist
      ((empty .unlimited).addAll ds).sorted := by
    apply sublist_sorted
    rw [(addAll_of_unlimited (q := empty .unlimited) rfl ds).1]
    exact held_offered_sublist policy ds
  have shown :
      (((empty policy).addAll ds).flushed.filter fun d => d.code !=
        .tooManyErrors) = ((empty policy).addAll ds).sorted.filter fun d =>
          d.code != .tooManyErrors := by
    unfold flushed
    split
    · simp [limitNote, remark]
    · rfl
  rw [shown, flushed_of_unlimited]
  exact List.filter_sublist.trans kept

end Diagnostic.Queue

end BinderIdl
