import BinderIdl.Diagnostic.Basic

namespace BinderIdl

namespace Diagnostic

/-- What a queue refuses: errors beyond `errorLimit`, where 0 stands for no
limit, and repetitions if `deduplicate` is set. -/
structure Policy where
  errorLimit : Nat
  deduplicate : Bool
deriving DecidableEq

namespace Policy

def standard : Policy := ⟨20, true⟩

def unlimited : Policy := ⟨0, false⟩

end Policy

structure Queue where
  policy : Policy
  /-- What is held, in the order of arrival. -/
  held : List Diagnostic
  errorCount : Nat
  /-- How many errors the limit has refused. -/
  refusedCount : Nat
deriving DecidableEq

namespace Queue

def empty (policy : Policy) : Queue := ⟨policy, [], 0, 0⟩

def size (q : Queue) : Nat := q.held.length

def isEmpty (q : Queue) : Bool := q.held.isEmpty

def hasErrors (q : Queue) : Bool := decide (0 < q.errorCount)

/-- Whether the limit leaves no room for another error. -/
def isFull (q : Queue) : Bool :=
  decide (0 < q.policy.errorLimit) &&
    decide (q.policy.errorLimit ≤ q.errorCount)

inductive Offer where
  | accepted
  /-- The limit is reached. -/
  | refused
  /-- The queue holds it already. -/
  | repeated
deriving DecidableEq

/-- The limit comes first: a repetition beyond it counts as refused. -/
def judge (q : Queue) (d : Diagnostic) : Offer :=
  if d.isError && q.isFull then .refused
  else if q.policy.deduplicate && q.held.contains d then .repeated
  else .accepted

def add (q : Queue) (d : Diagnostic) : Queue :=
  match q.judge d with
  | .accepted =>
      { q with
        held := q.held ++ [d]
        errorCount := if d.isError then q.errorCount + 1 else q.errorCount }
  | .refused => { q with refusedCount := q.refusedCount + 1 }
  | .repeated => q

/-- Whether `add` makes the queue hold one more diagnostic. -/
def accepts (q : Queue) (d : Diagnostic) : Bool :=
  q.judge d == .accepted

theorem size_add (q : Queue) (d : Diagnostic) :
    (q.add d).size = if q.accepts d then q.size + 1 else q.size := by
  unfold add accepts
  cases q.judge d <;> simp [size]

def addAll (q : Queue) (ds : List Diagnostic) : Queue :=
  ds.foldl add q

theorem addAll_append (q : Queue) (first second : List Diagnostic) :
    q.addAll (first ++ second) = (q.addAll first).addAll second := by
  simp [addAll]

theorem policy_add (q : Queue) (d : Diagnostic) :
    (q.add d).policy = q.policy := by
  unfold add
  split <;> rfl

/-- The note that stands at the end when the limit has refused errors. -/
def limitNote (shown refused : Nat) : Diagnostic :=
  .remark .tooManyErrors
    ("aborting after " ++ toString shown ++ " errors (" ++ toString refused
      ++ " more not shown)")

/-- Everything that is held: what has no site first, then in the order of the
primary sites, and in the order of arrival where these agree. -/
def sorted (q : Queue) : List Diagnostic :=
  q.held.mergeSort fun a b => Source.optionLe a.primarySite b.primarySite

theorem sorted_perm (q : Queue) : q.sorted.Perm q.held :=
  List.mergeSort_perm _ _

theorem pairwise_sorted (q : Queue) :
    q.sorted.Pairwise fun a b =>
      Source.optionLe a.primarySite b.primarySite := by
  unfold sorted
  exact List.pairwise_mergeSort (fun a b c =>
      Source.optionLe_trans a.primarySite b.primarySite c.primarySite)
    (fun a b => Source.optionLe_total a.primarySite b.primarySite) q.held

def flushed (q : Queue) : List Diagnostic :=
  if 0 < q.refusedCount then q.sorted ++ [limitNote q.errorCount q.refusedCount]
  else q.sorted

/-- Hands out what is held and starts again. -/
def flush (q : Queue) : List Diagnostic × Queue :=
  (q.flushed, empty q.policy)

end Queue

end Diagnostic

end BinderIdl
