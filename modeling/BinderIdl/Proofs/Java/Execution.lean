import BinderIdl.Proofs.Java.Platform

/-! Execution of code. Code that has no meaning, such as one that reads
a variable without a value, or a token that another writer has
appended, gets stuck. -/

namespace BinderIdl.Java

open BinderIdl.Types

def Value.field? (h : Heap) : Value → String → Option Value
  | symbol text, name => some (.symbol (text ++ "." ++ name))
  | x, "length" => (h.array? x).map fun items => .int items.length
  | _, _ => none

mutual
def Expr.eval (m : Platform) : Expr → State → Option (Value × State)
  | .literal text, s => some (.ofLiteral text, s)
  | .var v, s => do
      let x ← s.env.get? v
      return (x, s)
  | .classRef name, s => some (.symbol name, s)
  | .field target name, s => do
      let (x, s) ← target.eval m s
      let y ← x.field? s.heap name
      return (y, s)
  | .invoke _ _, _ => none
  | .call target method arguments, s => do
      let (x, s) ← target.eval m s
      let (xs, s) ← Expr.evalAll m arguments s
      m.call x method xs s
  | .compare left comparison right, s => do
      let (x, s) ← left.eval m s
      let (y, s) ← right.eval m s
      let b ← comparison.holds? x y
      return (.data (.truth b), s)
  | .ternary condition yes no, s => do
      let (x, s) ← condition.eval m s
      let b ← x.truth?
      if b then yes.eval m s else no.eval m s
  | .cast type value, s => do
      let (x, s) ← value.eval m s
      return (x.cast type, s)
  | .new type arguments, s =>
      match arguments with
      | [] => some (s.place (m.fresh type))
      | _ => none
  | .newArray type size, s => do
      let (x, s) ← size.eval m s
      let n ← x.int?
      if n < 0 then none
      else
        some (s.allocate
          (.array (List.replicate n.toNat (.data (.default type)))))
  | .index array position, s => do
      let (x, s) ← array.eval m s
      let (y, s) ← position.eval m s
      let items ← s.heap.array? x
      let n ← y.int?
      if n < 0 then none
      else do
        let item ← items[n.toNat]?
        return (item, s)

/-- Arguments are evaluated from left to right. -/
def Expr.evalAll (m : Platform) :
    List Expr → State → Option (List Value × State)
  | [], s => some ([], s)
  | e :: rest, s => do
      let (x, s) ← e.eval m s
      let (xs, s) ← Expr.evalAll m rest s
      return (x :: xs, s)
end

/-- Evaluates a condition. -/
def Expr.holds (m : Platform) (e : Expr) (s : State) :
    Option (Bool × State) := do
  let (x, s) ← e.eval m s
  let b ← x.truth?
  return (b, s)

def assign (m : Platform) (target value : Expr) (s : State) : Option State :=
  match target with
  | .var v => do
      let (x, s) ← value.eval m s
      let env ← s.env.set v x
      return { s with env := env }
  | .index array position => do
      let (x, s) ← array.eval m s
      let (y, s) ← position.eval m s
      let (z, s) ← value.eval m s
      match x with
      | .ref a => do
          let items ← s.heap.array? x
          let n ← y.int?
          if 0 ≤ n ∧ n.toNat < items.length then
            return s.replace a (.array (items.set n.toNat z))
          else none
      | _ => none
  | _ => none

instance : Nonempty State := ⟨⟨[], [], fun _ => []⟩⟩

/-- Takes turns for as long as a condition holds. Nothing is known of a loop
that never ends. -/
def repeatWhile (condition : State → Option (Bool × State))
    (turn : State → Option State) :
    State → Option State :=
  repeatM fun s => do
    let (more, s) ← condition s
    if more then return .inl (← turn s) else return .inr s

section

variable {condition : State → Option (Bool × State)}
  {turn : State → Option State}
variable {s middle next : State}

theorem repeatWhile_of_holds (holds : condition s = some (true, middle))
    (turned : turn middle = some next) :
    repeatWhile condition turn s = repeatWhile condition turn next := by
  rw [repeatWhile, repeatM_eq_of_monadTail]
  simp [repeatM.body, holds, turned]

theorem repeatWhile_of_fails (fails : condition s = some (false, middle)) :
    repeatWhile condition turn s = some middle := by
  rw [repeatWhile, repeatM_eq_of_monadTail]
  simp [repeatM.body, fails]

end

/-- Gives the counter of a loop its next value. -/
def count (index : Variable) (s : State) : Option State := do
  let x ← s.env.get? index
  let n ← x.int?
  let env ← s.env.set index (.int (n + 1))
  return { s with env := env }

mutual
def Stmt.exec (m : Platform) : Stmt → State → Option State
  | .expr value, s => (value.eval m s).map Prod.snd
  | .declareUnset v, s => some (s.push v none)
  | .declare v value, s => do
      let (x, s) ← value.eval m s
      return s.push v (some x)
  | .assign target value, s => assign m target value s
  | .ifThen condition body, s => do
      let (holds, s) ← condition.holds m s
      if holds then (Block.exec m body s).map (State.leave s.env.length)
        else return s
  | .ifElse condition yes no, s => do
      let (holds, s) ← condition.holds m s
      (if holds then Block.exec m yes s else Block.exec m no s).map
        (State.leave s.env.length)
  | .countUp index limit body, s => do
      let inner := s.push index (some (.int 0))
      let s ← repeatWhile ((Expr.compare index.ref .lt limit).holds m)
        (fun s => do
          let s ← (Block.exec m body s).map (State.leave inner.env.length)
          count index s)
        inner
      return s.leave (inner.env.length - 1)
  | .forEach item collection body, s => do
      let (x, s) ← collection.eval m s
      let items ← s.heap.elements? x
      items.foldlM
        (fun s x =>
          (Block.exec m body (s.push item (some x))).map
            (State.leave s.env.length))
        s

def Block.exec (m : Platform) : List Stmt → State → Option State
  | [], s => some s
  | stmt :: rest, s => do
      let s ← stmt.exec m s
      Block.exec m rest s
end

@[simp]
theorem Block.exec_nil (m : Platform) (s : State) :
    Block.exec m [] s = some s := rfl

@[simp]
theorem Block.exec_singleton (m : Platform) (stmt : Stmt) (s : State) :
    Block.exec m [stmt] s = stmt.exec m s := by
  cases done : stmt.exec m s <;> simp [Block.exec, done]

theorem Block.exec_cons_of_eq_some {m : Platform} {stmt : Stmt} {rest : Block}
    {s middle : State} (done : stmt.exec m s = some middle) :
    Block.exec m (stmt :: rest) s = Block.exec m rest middle := by
  simp [Block.exec, done]

theorem Block.exec_append (m : Platform) (first second : Block) (s : State) :
    Block.exec m (first ++ second) s =
      (Block.exec m first s).bind (Block.exec m second) := by
  induction first generalizing s with
  | nil => rfl
  | cons stmt rest induction =>
      simp only [List.cons_append, Block.exec]
      cases stmt.exec m s with
      | none => rfl
      | some next => exact induction next

theorem Block.exec_append_of_eq_some {m : Platform} {first second : Block}
    {s middle : State} (done : Block.exec m first s = some middle) :
    Block.exec m (first ++ second) s = Block.exec m second middle := by
  rw [exec_append, done]
  rfl

end BinderIdl.Java
