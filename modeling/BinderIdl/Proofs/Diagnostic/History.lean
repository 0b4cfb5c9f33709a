import BinderIdl.Proofs.Diagnostic.Filtering

namespace BinderIdl

/-- `ys` is `xs` in the order of the keys; members with one key stand in it as
they stand in `xs`. -/
structure SortedBy {α κ : Type} [DecidableEq κ] (le : κ → κ → Bool)
    (key : α → κ) (xs ys : List α) : Prop where
  perm : ys.Perm xs
  ordered : ys.Pairwise fun a b => le (key a) (key b)
  stable : ∀ k, (ys.filter fun a => key a = k) = xs.filter fun a => key a = k

section Sorting

variable {α κ : Type} [DecidableEq κ] {le : κ → κ → Bool} {key : α → κ}

theorem sortedBy_mergeSort (trans : ∀ a b c, le a b → le b c → le a c)
    (total : ∀ a b, le a b || le b a) (xs : List α) :
    SortedBy le key xs (xs.mergeSort fun a b => le (key a) (key b)) where
  perm := List.mergeSort_perm xs _
  ordered :=
    List.pairwise_mergeSort (fun a b c => trans (key a) (key b) (key c))
      (fun a b => total (key a) (key b)) xs
  stable := by
    intro k
    have here (a : α) (listed : a ∈ xs.filter fun a => key a = k) : key a = k :=
      of_decide_eq_true (List.mem_filter.mp listed).2
    -- One key is in order with itself, so the members that have it
    -- need no sorting.
    have unsorted : (xs.filter fun a => key a = k).Pairwise fun a b =>
        le (key a) (key b) := by
      refine List.pairwise_of_forall_mem_list fun a first b second => ?_
      rw [here a first, here b second]
      simpa using total k k
    have kept : (xs.filter fun a => key a = k).Sublist
        (xs.mergeSort fun a b => le (key a) (key b)) :=
      List.sublist_mergeSort (fun a b c => trans (key a) (key b) (key c))
        (fun a b => total (key a) (key b)) unsorted List.filter_sublist
    have counts :
        ((xs.mergeSort fun a b => le (key a) (key b)).filter fun a =>
          key a = k).length = (xs.filter fun a => key a = k).length :=
      ((List.mergeSort_perm xs _).filter _).length_eq
    have part := kept.filter fun a => key a = k
    rw [List.filter_filter] at part
    simp only [Bool.and_self] at part
    exact (part.eq_of_length counts.symm).symm

/-- What is sorted by a key is sorted by an index that the key is made of. -/
theorem SortedBy.of_embedding {ι : Type} [DecidableEq ι] {below : ι → ι → Bool}
    {index : α → ι} {xs ys : List α} (sorted : SortedBy le key xs ys)
    {embed : ι → κ} (injective : Function.Injective embed)
    (keys : ∀ a ∈ xs, key a = embed (index a))
    (order : ∀ i j, le (embed i) (embed j) → below i j) :
    SortedBy below index xs ys where
  perm := sorted.perm
  ordered := by
    refine sorted.ordered.imp_of_mem fun {a b} first second le => order _ _ ?_
    rwa [← keys a (sorted.perm.subset first),
      ← keys b (sorted.perm.subset second)]
  stable := by
    intro i
    have same : ∀ a ∈ xs, decide (index a = i) = decide (key a = embed i) := by
      intro a listed
      simp only [keys a listed, injective.eq_iff]
    rw [List.filter_congr same,
      List.filter_congr fun a listed => same a (sorted.perm.subset listed)]
    exact sorted.stable (embed i)

end Sorting

namespace Diagnostic.Queue

/-- What `add` can do to a queue, with its answer. -/
inductive Outcome (q : Queue) (d : Diagnostic) : Bool → Queue → Prop
  | accepted (room : ¬ (d.isError ∧ q.isFull))
      (new : q.policy.deduplicate → d ∉ q.held) : Outcome q d true { q with
          held := q.held ++ [d]
          errorCount := if d.isError then q.errorCount + 1 else q.errorCount }
  | refused (error : d.isError) (full : q.isFull) :
      Outcome q d false { q with refusedCount := q.refusedCount + 1 }
  | repeated (room : ¬ (d.isError ∧ q.isFull))
      (deduplicates : q.policy.deduplicate) (held : d ∈ q.held) :
      Outcome q d false q

theorem outcome_add (q : Queue) (d : Diagnostic) :
    Outcome q d (q.accepts d) (q.add d) := by
  by_cases beyond : d.isError && q.isFull
  · have judged : q.judge d = .refused := by simp only [judge, beyond, if_true]
    obtain ⟨error, full⟩ := Bool.and_eq_true_iff.mp beyond
    rw [accepts, add, judged]
    exact .refused error full
  · have room : ¬ (d.isError ∧ q.isFull) := by simpa using beyond
    by_cases again : q.policy.deduplicate && q.held.contains d
    · have judged : q.judge d = .repeated := by
        simp only [judge, beyond, again, if_true]; rfl
      obtain ⟨deduplicates, held⟩ := Bool.and_eq_true_iff.mp again
      rw [accepts, add, judged]
      exact .repeated room deduplicates (List.contains_iff_mem.mp held)
    · have judged : q.judge d = .accepted := by
        simp only [judge, beyond, again]; rfl
      rw [accepts, add, judged]
      exact .accepted room (by simpa using again)

theorem held_add (q : Queue) (d : Diagnostic) :
    (q.add d).held = if q.accepts d then q.held ++ [d] else q.held := by
  have outcome := q.outcome_add d
  revert outcome
  generalize q.accepts d = answer
  generalize q.add d = after
  rintro (_ | _ | _) <;> rfl

theorem accepts_iff (q : Queue) (d : Diagnostic) :
    q.accepts d ↔
      ¬ (d.isError ∧ q.isFull) ∧ ¬ (q.policy.deduplicate ∧ d ∈ q.held) := by
  have outcome := q.outcome_add d
  revert outcome
  generalize q.accepts d = answer
  generalize q.add d = after
  rintro (⟨room, new⟩ | ⟨error, full⟩ | ⟨room, deduplicates, held⟩)
  · simpa using ⟨by simpa using room, new⟩
  · simp [error, full]
  · simp [deduplicates, held]

inductive Request where
  | add (d : Diagnostic)
  | flush

/-- A queue, and what it was offered since it was last flushed, the latest
first, each with the answer of `add`. -/
structure Watched where
  queue : Queue
  offers : List (Diagnostic × Bool)

namespace Watched

def new (policy : Policy) : Watched := ⟨empty policy, []⟩

def step (w : Watched) : Request → Watched
  | .add d => ⟨w.queue.add d, (d, w.queue.accepts d) :: w.offers⟩
  | .flush => ⟨w.queue.flush.2, []⟩

def run (w : Watched) (requests : List Request) : Watched :=
  requests.foldl step w

end Watched

/-- What was accepted, in the order of arrival. -/
def taken : List (Diagnostic × Bool) → List Diagnostic
  | [] => []
  | (d, answer) :: earlier =>
      if answer then taken earlier ++ [d] else taken earlier

/-- The errors among the accepted have reached the limit, if there is one. -/
def Exhausted (policy : Policy) (offers : List (Diagnostic × Bool)) : Prop :=
  policy.errorLimit ≠ 0 ∧ policy.errorLimit ≤ (taken offers).countP isError

instance (policy : Policy) (offers : List (Diagnostic × Bool)) :
    Decidable (Exhausted policy offers) :=
  inferInstanceAs (Decidable (_ ∧ _))

/-- The errors that came when the limit was reached, in the order of arrival. -/
def beyond (policy : Policy) : List (Diagnostic × Bool) → List Diagnostic
  | [] => []
  | (d, _) :: earlier =>
      if d.isError ∧ Exhausted policy earlier then beyond policy earlier ++ [d]
      else beyond policy earlier

/-- The queue and the history tell the same. -/
structure Watched.Kept (policy : Policy) (w : Watched) : Prop where
  same : w.queue.policy = policy
  offered : w.queue = (empty policy).addAll (w.offers.reverse.map Prod.fst)
  held : w.queue.held = taken w.offers
  counted : w.queue.errorCount = (taken w.offers).countP isError
  refused : w.queue.refusedCount = (beyond policy w.offers).length
  bounded : policy.errorLimit ≠ 0 → w.queue.errorCount ≤ policy.errorLimit
  distinct : policy.deduplicate → w.queue.held.Nodup

namespace Watched

variable {policy : Policy} {w : Watched}

theorem kept_new (policy : Policy) : (new policy).Kept policy where
  same := rfl
  offered := rfl
  held := rfl
  counted := rfl
  refused := rfl
  bounded := fun _ => Nat.zero_le _
  distinct := fun _ => List.nodup_nil

theorem Kept.isFull_iff (kept : w.Kept policy) :
    w.queue.isFull ↔ Exhausted policy w.offers := by
  simp [isFull, Exhausted, kept.same, kept.counted, Nat.pos_iff_ne_zero]

theorem Kept.of_outcome (kept : w.Kept policy) {d : Diagnostic} {answer : Bool}
    {after : Queue} (outcome : Outcome w.queue d answer after)
    (offered : after =
      (empty policy).addAll (((d, answer) :: w.offers).reverse.map Prod.fst)) :
    Kept policy ⟨after, (d, answer) :: w.offers⟩ := by
  cases outcome with
  | accepted room new =>
      have within : ¬ (d.isError ∧ Exhausted policy w.offers) := by
        rwa [← kept.isFull_iff]
      have counted := kept.counted
      refine ⟨kept.same, offered, ?_, ?_, ?_, fun limited => ?_,
        fun deduplicates => ?_⟩
      · simp [taken, kept.held]
      · cases severity : d.isError <;> simp [taken, counted, severity]
      · simpa [beyond, within] using kept.refused
      · have bounded := kept.bounded limited
        cases severity : d.isError with
        | false => simpa using bounded
        | true =>
            have space :
                ¬ policy.errorLimit ≤ (taken w.offers).countP isError :=
              fun reached => within ⟨severity, limited, reached⟩
            show w.queue.errorCount + 1 ≤ policy.errorLimit
            omega
      · have fresh := new (kept.same ▸ deduplicates)
        exact List.nodup_append.mpr ⟨kept.distinct deduplicates, by simp,
          fun e held f last equal =>
            fresh (List.mem_singleton.mp last ▸ equal ▸ held)⟩
  | refused error full =>
      have reached := kept.isFull_iff.mp full
      refine ⟨kept.same, offered, kept.held, kept.counted, ?_, kept.bounded,
        kept.distinct⟩
      simp [beyond, error, reached, kept.refused]
  | repeated room _ _ =>
      have within : ¬ (d.isError ∧ Exhausted policy w.offers) := by
        rwa [← kept.isFull_iff]
      refine ⟨kept.same, offered, kept.held, kept.counted, ?_, kept.bounded,
        kept.distinct⟩
      simpa [beyond, within] using kept.refused

theorem Kept.add (kept : w.Kept policy) (d : Diagnostic) :
    (w.step (.add d)).Kept policy := by
  refine kept.of_outcome (w.queue.outcome_add d) ?_
  rw [List.reverse_cons, List.map_append, addAll_append, ← kept.offered]
  rfl

theorem Kept.step (kept : w.Kept policy) (request : Request) :
    (w.step request).Kept policy := by
  cases request with
  | add d => exact kept.add d
  | flush =>
      have afresh := kept_new policy
      rw [← kept.same] at afresh ⊢
      exact afresh

theorem Kept.run (kept : w.Kept policy) (requests : List Request) :
    (w.run requests).Kept policy := by
  induction requests generalizing w with
  | nil => exact kept
  | cons request rest induction => exact induction (kept.step request)

theorem Kept.hasErrors_iff (kept : w.Kept policy) :
    w.queue.hasErrors ↔ ∃ offer ∈ w.offers, offer.1.isError := by
  rw [kept.offered, hasErrors_offered]
  simp

theorem Kept.accepts_iff (kept : w.Kept policy) (d : Diagnostic) :
    w.queue.accepts d ↔ ¬ (d.isError ∧ Exhausted policy w.offers) ∧
      ¬ (policy.deduplicate ∧ d ∈ taken w.offers) := by
  rw [Queue.accepts_iff, kept.isFull_iff, kept.same, kept.held]

theorem Kept.flush (kept : w.Kept policy) :
    ∃ shown, SortedBy Source.optionLe primarySite (taken w.offers) shown ∧
      w.queue.flush.1 = shown ++
        (if beyond policy w.offers = [] then []
        else [limitNote ((taken w.offers).countP isError)
          (beyond policy w.offers).length]) := by
  refine ⟨w.queue.sorted, ?_, ?_⟩
  · rw [← kept.held]
    exact sortedBy_mergeSort Source.optionLe_trans Source.optionLe_total
      w.queue.held
  · rw [Queue.flush, flushed, kept.counted, kept.refused]
    by_cases none : beyond policy w.offers = []
    · simp [none]
    · simp [none, List.length_pos_iff]

end Watched

theorem add_grows_iff (q : Queue) (d : Diagnostic) :
    q.accepts d ↔ (q.add d).held = q.held ++ [d] := by
  rw [held_add]
  split
  · simp [*]
  · simp [*]

/-- Whatever is added to a queue and however often it is flushed: it counts the
errors it holds, and no more than its limit; it says of each offer whether it
took it; it knows whether an error was offered since the last flush; and a flush
hands out what was taken since, in the order of the sites, with one note at the
end if there were more errors than the limit. -/
theorem queue_tells_history (policy : Policy) (requests : List Request) :
    let w := (Watched.new policy).run requests
    let q := w.queue
    q.held = taken w.offers ∧
    q.errorCount = q.held.countP isError ∧
    (policy.errorLimit ≠ 0 → q.errorCount ≤ policy.errorLimit) ∧
    (∀ d, (q.accepts d ↔ (q.add d).held = q.held ++ [d]) ∧
      (¬ q.accepts d → (q.add d).held = q.held) ∧
      (q.accepts d ↔ ¬ (d.isError ∧ Exhausted policy w.offers) ∧
        ¬ (policy.deduplicate ∧ d ∈ q.held))) ∧
    (q.hasErrors ↔ ∃ offer ∈ w.offers, offer.1.isError) ∧
    (policy.deduplicate → q.held.Nodup) ∧
    (∃ shown, SortedBy Source.optionLe primarySite (taken w.offers) shown ∧
      q.flush.1 = shown ++
        (if beyond policy w.offers = [] then []
        else [remark .tooManyErrors
          ("aborting after " ++ toString ((taken w.offers).countP isError) ++
            " errors (" ++ toString (beyond policy w.offers).length ++
            " more not shown)")])) ∧
    q.flush.2 = empty policy := by
  have kept := (Watched.kept_new policy).run requests
  refine ⟨kept.held, kept.held ▸ kept.counted, kept.bounded,
    fun d => ⟨?_, ?_, ?_⟩, kept.hasErrors_iff, kept.distinct, kept.flush, ?_⟩
  · exact add_grows_iff _ d
  · intro filtered
    rw [held_add, if_neg filtered]
  · rw [kept.held]
    exact kept.accepts_iff d
  · rw [Queue.flush, kept.same]

end Diagnostic.Queue

end BinderIdl
