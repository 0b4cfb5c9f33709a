import BinderIdl.Proofs.Diagnostic.History
import Std.Data.String.ToNat

namespace BinderIdl.Diagnostic.Queue

variable {q : Queue} {d : Diagnostic}

/-- The queue after the limit has refused so many more errors. -/
def refuse (q : Queue) (count : Nat) : Queue :=
  { q with refusedCount := q.refusedCount + count }

@[simp] theorem held_refuse (q : Queue) (count : Nat) :
    (q.refuse count).held = q.held := rfl

@[simp] theorem isFull_refuse (q : Queue) (count : Nat) :
    (q.refuse count).isFull = q.isFull := rfl

theorem refuse_add (q : Queue) (first second : Nat) :
    (q.refuse first).refuse second = q.refuse (first + second) := by
  simp only [refuse, Nat.add_assoc]

/-- What was refused has no say in what is accepted. -/
theorem add_refuse (q : Queue) (count : Nat) (d : Diagnostic) :
    (q.refuse count).add d = (q.add d).refuse count := by
  have same : (q.refuse count).judge d = q.judge d := rfl
  unfold add
  rw [same]
  cases q.judge d with
  | accepted => rfl
  | refused => simp only [refuse, Nat.add_right_comm]
  | repeated => rfl

theorem addAll_refuse (q : Queue) (count : Nat) (ds : List Diagnostic) :
    (q.refuse count).addAll ds = (q.addAll ds).refuse count := by
  induction ds generalizing q with
  | nil => rfl
  | cons d rest induction =>
      change ((q.refuse count).add d).addAll rest =
        ((q.add d).addAll rest).refuse count
      rw [add_refuse, induction]

/-- An error that the queue holds, and that comes when the limit is reached. -/
def IsLate (q : Queue) (d : Diagnostic) :
    Prop := d.isError ∧ q.isFull ∧ d ∈ q.held

instance (q : Queue) (d : Diagnostic) : Decidable (q.IsLate d) :=
  inferInstanceAs (Decidable (_ ∧ _))

theorem add_of_mem (deduplicates : q.policy.deduplicate) (held : d ∈ q.held) :
    q.accepts d = false ∧
    q.add d = if d.isError ∧ q.isFull then q.refuse 1 else q := by
  have outcome := q.outcome_add d
  revert outcome
  generalize q.accepts d = answer
  generalize q.add d = after
  rintro (⟨_, new⟩ | ⟨error, full⟩ | ⟨room, _, _⟩)
  · exact absurd held (new deduplicates)
  · exact ⟨rfl, (if_pos ⟨error, full⟩).symm⟩
  · exact ⟨rfl, (if_neg room).symm⟩

/-- The offers without those that the queue holds at their turn. -/
def withoutRepeats (q : Queue) : List Diagnostic → List Diagnostic
  | [] => []
  | d :: rest =>
      if d ∈ q.held then (q.add d).withoutRepeats rest
      else d :: (q.add d).withoutRepeats rest

/-- The offers that are late repetitions at their turn. -/
def lateRepeats (q : Queue) : List Diagnostic → List Diagnostic
  | [] => []
  | d :: rest =>
      if q.IsLate d then d :: (q.add d).lateRepeats rest
        else (q.add d).lateRepeats rest

theorem withoutRepeats_refuse (q : Queue) (count : Nat) (ds : List Diagnostic) :
    (q.refuse count).withoutRepeats ds = q.withoutRepeats ds := by
  induction ds generalizing q with
  | nil => rfl
  | cons d rest induction =>
      simp only [withoutRepeats, held_refuse, add_refuse, induction]

/-- Late repetitions are counted, and that is all that repetitions do. -/
theorem addAll_eq_refuse (deduplicates : q.policy.deduplicate)
    (ds : List Diagnostic) :
    q.addAll ds =
      (q.addAll (q.withoutRepeats ds)).refuse (q.lateRepeats ds).length := by
  induction ds generalizing q with
  | nil => rfl
  | cons d rest induction =>
      have others := induction (q := q.add d) (by rwa [policy_add])
      change (q.add d).addAll rest = _
      by_cases held : d ∈ q.held
      · obtain ⟨_, added⟩ := add_of_mem deduplicates held
        by_cases beyond : d.isError ∧ q.isFull
        · have late : q.IsLate d := ⟨beyond.1, beyond.2, held⟩
          rw [if_pos beyond] at added
          rw [others, withoutRepeats, if_pos held, lateRepeats, if_pos late,
            List.length_cons, added, addAll_refuse, refuse_add,
            withoutRepeats_refuse, Nat.add_comm]
        · have prompt : ¬ q.IsLate d := fun late => beyond ⟨late.1, late.2.1⟩
          rw [if_neg beyond] at added
          rw [others, withoutRepeats, if_pos held, lateRepeats,
            if_neg prompt, added]
      · have new : ¬ q.IsLate d := fun late => held late.2.2
        rw [others, withoutRepeats, if_neg held, lateRepeats, if_neg new]
        rfl

theorem isFull_add_of_isFull (full : q.isFull) (d : Diagnostic) :
    (q.add d).isFull := by
  simp only [isFull, Bool.and_eq_true, decide_eq_true_eq] at full ⊢
  rw [policy_add]
  unfold add
  split
  · dsimp only
    split <;> omega
  · exact full
  · exact full

theorem isFull_addAll_of_isFull (full : q.isFull) (ds : List Diagnostic) :
    (q.addAll ds).isFull := by
  induction ds generalizing q with
  | nil => exact full
  | cons d rest induction => exact induction (isFull_add_of_isFull full d)

/-- Where the limit is not reached in the end, no repetition was late. -/
theorem lateRepeats_eq_nil_of_room {ds : List Diagnostic}
    (room : (q.addAll ds).isFull = false) : q.lateRepeats ds = [] := by
  induction ds generalizing q with
  | nil => rfl
  | cons d rest induction =>
      have prompt : ¬ q.IsLate d := by
        rintro ⟨_, full, _⟩
        have reached := isFull_addAll_of_isFull full (d :: rest)
        rw [room] at reached
        cases reached
      rw [lateRepeats, if_neg prompt]
      exact induction room

theorem limitNote_inj {shown refused more : Nat}
    (same : limitNote shown refused = limitNote shown more) :
    refused = more := by
  have messages := congrArg Diagnostic.message same
  simp only [limitNote, remark, String.append_assoc] at messages
  have counts := (String.append_right_inj _).mp <|
    (String.append_right_inj _).mp <| (String.append_right_inj _).mp messages
  exact Nat.repr_inj.mp ((String.append_left_inj _).mp counts)

theorem flushed_refuse_eq_iff (q : Queue) (count : Nat) :
    (q.refuse count).flushed = q.flushed ↔ count = 0 := by
  constructor
  · intro same
    rcases Nat.eq_zero_or_pos count with none | some
    · exact none
    · have noted : (q.refuse count).flushed =
          q.sorted ++ [limitNote q.errorCount (q.refusedCount + count)] :=
        if_pos (Nat.add_pos_right q.refusedCount some)
      rw [noted, flushed] at same
      split at same
      · have notes := List.singleton_inj.mp (List.append_cancel_left same)
        have counts := limitNote_inj notes
        omega
      · simp at same
  · rintro rfl
    rfl

/-- A diagnostic that the queue holds is never taken again. If it is an error
and comes when the limit is reached, it counts as refused; otherwise nothing
changes. So a queue that is offered repetitions ends as one that is not, but for
the number of refused errors, which the late ones raise; a flush gives the same
iff there are none, and there are none below the limit. -/
theorem repetitions_are_only_counted (policy : Policy)
    (deduplicates : policy.deduplicate) (requests : List Request) :
    let q := ((Watched.new policy).run requests).queue
    (∀ d ∈ q.held, q.accepts d = false ∧
      q.add d = if d.isError ∧ q.isFull then q.refuse 1 else q) ∧
    ∀ ds,
      let once := q.addAll (q.withoutRepeats ds)
      let late := q.lateRepeats ds
      q.addAll ds = once.refuse late.length ∧
      ((q.addAll ds).flush = once.flush ↔ late = []) ∧
      (once.isFull = false → late = []) := by
  intro q
  have kept := (Watched.kept_new policy).run requests
  have same : q.policy.deduplicate := by rwa [kept.same]
  refine ⟨fun d held => add_of_mem same held, fun ds => ?_⟩
  intro once late
  have counted : q.addAll ds = once.refuse late.length :=
    addAll_eq_refuse same ds
  refine ⟨counted, ?_, fun room => lateRepeats_eq_nil_of_room ?_⟩
  · rw [counted, flush, flush, Prod.mk.injEq, flushed_refuse_eq_iff,
      List.length_eq_zero_iff]
    exact and_iff_left rfl
  · rw [counted, isFull_refuse, room]

def missingType (line : Nat) : Diagnostic := unknownType ⟨"a.aidl", line⟩ "X"

/-- The first repetition leaves no trace; the second one comes when the
limit is reached. -/
theorem repetitions_are_only_counted_missingType :
    let q := ((Watched.new ⟨2, true⟩).run [.flush, .add (missingType 1)]).queue
    let offers := [missingType 1, missingType 2, missingType 1]
    q.accepts (missingType 1) = false ∧ q.add (missingType 1) = q ∧
    q.addAll offers = (q.addAll [missingType 2]).refuse 1 ∧
    (q.addAll offers).flush ≠ (q.addAll [missingType 2]).flush := by
  intro q offers
  obtain ⟨alone, all⟩ := repetitions_are_only_counted ⟨2, true⟩ rfl
    [.flush, .add (missingType 1)]
  obtain ⟨answer, stays⟩ := alone (missingType 1) (by decide +kernel)
  obtain ⟨(counted : q.addAll offers =
        (q.addAll (q.withoutRepeats offers)).refuse
          (q.lateRepeats offers).length), flushed, _⟩ := all offers
  have rest : q.withoutRepeats offers = [missingType 2] := by decide +kernel
  have late : q.lateRepeats offers = [missingType 1] := by decide +kernel
  refine ⟨answer, stays.trans (if_neg (by decide +kernel)), ?_, ?_⟩
  · rw [counted, rest, late, List.length_singleton]
  · rw [← rest]
    exact mt flushed.mp (late ▸ List.cons_ne_nil _ _)

/-- At the limit, an error that is shown is counted among those that are not. -/
theorem repeated_error_is_refused_missingType :
    let q := ((Watched.new ⟨1, true⟩).run [.add (missingType 1)]).queue
    missingType 1 ∈ q.held ∧ q.accepts (missingType 1) = false ∧
    q.add (missingType 1) ≠ q ∧ q.flush.1 = [missingType 1] ∧
    (q.add (missingType 1)).flush.1 = [missingType 1,
      remark .tooManyErrors "aborting after 1 errors (1 more not shown)"] := by
  decide +kernel

end BinderIdl.Diagnostic.Queue
