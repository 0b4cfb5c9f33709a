import BinderIdl.Proofs.Java.Value

/-! The state of running code: the variables in scope, the heap, and parcels. A
parcel is a queue of tagged tokens. -/

namespace BinderIdl.Java

open BinderIdl.Types

/-- Which pair of a writer and its readers a token belongs to. -/
inductive Tag where
  | scalar (p : Primitive)
  | string
  | binder
  | map
  | list
  | stringList
  | binderList
  | typedList
  | array (p : Primitive)
  | stringArray
  | binderArray
  | typedArray
  | charSequence
  | record (type : String)
  | interfaceName
  | noException
deriving DecidableEq

structure Token where
  tag : Tag
  content : Datum

/-- The variables in scope, the last one declared in front. One may have no
value yet. -/
abbrev Env := List (Variable × Option Value)

namespace Env

def get? : Env → Variable → Option Value
  | [], _ => none
  | (w, x) :: rest, v => if w = v then x else get? rest v

/-- Gives a variable in scope a value. -/
def set : Env → Variable → Value → Option Env
  | [], _, _ => none
  | (w, x) :: rest, v, value =>
      if w = v then some ((w, some value) :: rest)
      else (set rest v value).map ((w, x) :: ·)

theorem get?_cons_self (env : Env) (v : Variable) (x : Option Value) :
    get? ((v, x) :: env) v = x := by
  simp [get?]

theorem get?_cons_of_ne {w v : Variable} (other : w ≠ v) (env : Env)
    (x : Option Value) :
    get? ((w, x) :: env) v = get? env v := by
  simp [get?, other]

theorem get?_append_of_forall_ne {added : Env} {v : Variable}
    (others : ∀ entry ∈ added, entry.1 ≠ v) (env : Env) :
    get? (added ++ env) v = get? env v := by
  induction added with
  | nil => rfl
  | cons entry rest induction =>
      obtain ⟨first, later⟩ := List.forall_mem_cons.mp others
      rw [List.cons_append, get?_cons_of_ne first, induction later]

theorem set_cons_self (env : Env) (v : Variable) (x : Option Value)
    (value : Value) :
    set ((v, x) :: env) v value = some ((v, some value) :: env) := by
  simp [set]

theorem set_cons_of_ne {w v : Variable} (other : w ≠ v) (env : Env)
    (x : Option Value) (value : Value) :
    set ((w, x) :: env) v value = (set env v value).map ((w, x) :: ·) := by
  simp [set, other]

end Env

structure State where
  env : Env
  heap : Heap
  parcels : Nat → List Token

namespace State

def push (s : State) (v : Variable) (x : Option Value) : State :=
  { s with env := (v, x) :: s.env }

/-- Drops the variables that were declared since the scope had the
given depth. -/
def leave (depth : Nat) (s : State) : State :=
  { s with env := s.env.drop (s.env.length - depth) }

def allocate (s : State) (c : Cell) : Value × State :=
  (.ref s.heap.length, { s with heap := s.heap ++ [c] })

/-- A value of the datum: a new object if the datum is that of an object. -/
def place (s : State) (d : Datum) : Value × State :=
  if d.isMutable then s.allocate (.data d) else (.data d, s)

/-- A value of an array with the given elements. -/
def placeArray (s : State) : Datum → Value × State
  | .collection items => s.allocate (.array (items.map .data))
  | d => (.data d, s)

def replace (s : State) (address : Nat) (c : Cell) : State :=
  { s with heap := s.heap.set address c }

def append (s : State) (id : Nat) (tokens : List Token) : State :=
  { s with parcels := fun other =>
    if other = id then s.parcels id ++ tokens else s.parcels other }

def setParcel (s : State) (id : Nat) (tokens : List Token) : State :=
  { s with parcels :=
    fun other => if other = id then tokens else s.parcels other }

/-- Takes a token off a parcel; one with another tag stands in the way. -/
def take (s : State) (id : Nat) (tag : Tag) : Option (Datum × State) :=
  match s.parcels id with
  | [] => none
  | token :: rest =>
      if token.tag =
        tag then some (token.content, s.setParcel id rest) else none

section

variable (s : State) (id : Nat) (tokens : List Token)

@[simp]
theorem env_append : (s.append id tokens).env = s.env := rfl

@[simp]
theorem heap_append : (s.append id tokens).heap = s.heap := rfl

@[simp]
theorem parcels_append_self :
    (s.append id tokens).parcels id = s.parcels id ++ tokens := by
  simp [append]

@[simp]
theorem env_setParcel : (s.setParcel id tokens).env = s.env := rfl

@[simp]
theorem heap_setParcel : (s.setParcel id tokens).heap = s.heap := rfl

@[simp]
theorem parcels_setParcel_self :
    (s.setParcel id tokens).parcels id = tokens := by
  simp [setParcel]

@[simp]
theorem setParcel_setParcel (more : List Token) :
    (s.setParcel id tokens).setParcel id more = s.setParcel id more := by
  simp only [setParcel, mk.injEq, true_and]
  funext other
  split <;> rfl

/-- What was on a parcel before does not matter to what is put there. -/
theorem parcels_setParcel_of_eq {t : State} {before : List Token}
    (same : t.parcels = (s.setParcel id before).parcels) :
    (t.setParcel id tokens).parcels = (s.setParcel id tokens).parcels := by
  rw [← setParcel_setParcel s id before tokens]
  simp only [setParcel] at same ⊢
  rw [same]

theorem append_nil : s.append id [] = s := by
  obtain ⟨env, heap, parcels⟩ := s
  simp only [append, List.append_nil, mk.injEq, true_and]
  funext other
  split
  · next same => rw [same]
  · rfl

@[simp]
theorem append_append (more : List Token) :
    (s.append id tokens).append id more = s.append id (tokens ++ more) := by
  simp only [append, mk.injEq, true_and]
  funext other
  split <;> simp

end

/-- Nothing was declared since, so nothing goes out of scope. -/
theorem leave_of_length_eq {s : State} {depth : Nat}
    (same : s.env.length = depth) :
    s.leave depth = s := by
  simp [leave, ← same]

@[simp]
theorem leave_append (s : State) (id : Nat) (tokens : List Token) :
    (s.append id tokens).leave s.env.length = s.append id tokens :=
  leave_of_length_eq rfl

@[simp]
theorem leave_setParcel (s : State) (id : Nat) (tokens : List Token) :
    (s.setParcel id tokens).leave s.env.length = s.setParcel id tokens :=
  leave_of_length_eq rfl

theorem leave_append_env (s : State) (added : Env) (env : Env) :
    leave env.length { s with env := added ++ env } =
      { s with env := env } := by
  simp [leave]

theorem leave_append_cons_env (s : State) (added : Env)
    (entry : Variable × Option Value) (env : Env) :
    leave env.length { s with env := added ++ entry :: env } =
      { s with env := env } := by
  rw [List.append_cons, leave_append_env]

end State

end BinderIdl.Java
