import BinderIdl.Parcel.Code
import BinderIdl.Proofs.Java.Loop
import BinderIdl.Proofs.Parcel.Format

namespace BinderIdl.Parcel

open Java BinderIdl.Types

variable {m : Platform} {s : State} {value parcel : Variable} {id : Nat}

@[simp]
theorem eval_ref {x : Value} (bound : s.env.get? value = some x) :
    value.ref.eval m s = some (x, s) := by
  simp [Variable.ref, Expr.eval, bound]

@[simp]
theorem eval_null : Expr.null.eval m s = some (.null, s) := rfl

@[simp]
theorem eval_zero : (Expr.int 0).eval m s = some (.int 0, s) := rfl

@[simp]
theorem eval_one : (Expr.int 1).eval m s = some (.int 1, s) := rfl

@[simp]
theorem eval_minusOne : (Expr.int (-1)).eval m s = some (.int (-1), s) := rfl

theorem eval_isNull {x : Value} (bound : s.env.get? value = some x) :
    value.isNull.eval m s = some (.data (.truth x.isNull), s) := by
  simp [Variable.isNull, Expr.eval, eval_ref bound, Comparison.holds?]

theorem eval_isNotNull {x : Value} (bound : s.env.get? value = some x) :
    value.isNotNull.eval m s = some (.data (.truth !x.isNull), s) := by
  simp [Variable.isNotNull, Expr.eval, eval_ref bound, Comparison.holds?]

theorem holds_isNull {x : Value} (bound : s.env.get? value = some x) :
    value.isNull.holds m s = some (x.isNull, s) := by
  simp [Expr.holds, eval_isNull bound, Value.truth?]

theorem holds_isNotNull {x : Value} (bound : s.env.get? value = some x) :
    value.isNotNull.holds m s = some (!x.isNull, s) := by
  simp [Expr.holds, eval_isNotNull bound, Value.truth?]

theorem exec_set {v : Variable} {e : Expr} {x : Value} {s' : State}
    (evaluated : e.eval m s = some (x, s')) {old : Option Value} {env : Env}
    (scope : s'.env = (v, old) :: env) :
    (Stmt.set v e).exec m s = some { s' with env := (v, some x) :: env } := by
  simp [Stmt.set, Variable.ref, Stmt.exec, assign, evaluated, scope,
    Env.set_cons_self]

theorem eval_call_parcel (bound : s.env.get? parcel = some (.parcel id))
    {method : String} {c : ParcelMethod}
    (named : ParcelMethod.ofName? method = some c) {arguments : List Expr}
    {xs : List Value} {s' : State}
    (evaluated : Expr.evalAll m arguments s = some (xs, s')) :
    (parcel.call method arguments).eval m s = c.run m id xs s' := by
  simp [Variable.call, Expr.eval, eval_ref bound, evaluated,
    Platform.call, named]

theorem write_eq_some {tag : Tag} {x : Value} {d : Datum}
    (shown : s.heap.datum? x = some d) (admitted : tag.admits d) :
    s.write id tag x = some (.null, s.append id [⟨tag, d⟩]) := by
  simp [State.write, shown, admitted]

theorem exec_write (bound : s.env.get? parcel = some (.parcel id))
    {method : String} {tag : Tag}
    (named : ParcelMethod.ofName? method = some (.write tag)) {argument : Expr}
    {x : Value} {d : Datum} (evaluated : argument.eval m s = some (x, s))
    (shown : s.heap.datum? x = some d) (admitted : tag.admits d) :
    Stmt.exec m (.expr (parcel.call method [argument])) s =
      some (s.append id [⟨tag, d⟩]) := by
  have arguments : Expr.evalAll m [argument] s = some ([x], s) := by
    simp [Expr.evalAll, evaluated]
  rw [Stmt.exec, eval_call_parcel bound named arguments]
  simp [ParcelMethod.run, write_eq_some shown admitted]

theorem exec_writeInt (bound : s.env.get? parcel = some (.parcel id)) {e : Expr}
    {n : Int} (evaluated : e.eval m s = some (.int n, s)) :
    (writeInt parcel e).exec m s = some (s.append id [intToken n]) :=
  exec_write bound rfl evaluated (Heap.Item.data (.int n)).datum? rfl

theorem take_eq_some {tag : Tag} {d : Datum} {rest : List Token}
    (front : s.parcels id = ⟨tag, d⟩ :: rest) :
    s.take id tag = some (d, s.setParcel id rest) := by
  simp [State.take, front]

theorem eval_make (bound : s.env.get? parcel = some (.parcel id))
    {method : String} {g : Tag}
    (named : ParcelMethod.ofName? method = some (.make g))
    {arguments : List Expr} {xs : List Value}
    (evaluated : Expr.evalAll m arguments s = some (xs, s)) {d : Datum}
    {rest : List Token} (front : s.parcels id = ⟨g, d⟩ :: rest)
    (allowed : g.readsWith xs d) :
    (parcel.call method arguments).eval m s =
      some (if g.isArray then (s.setParcel id rest).placeArray d
        else (s.setParcel id rest).place d) := by
  rw [eval_call_parcel bound named evaluated]
  simp [ParcelMethod.run, State.make, take_eq_some front, allowed]

theorem eval_readInt (bound : s.env.get? parcel = some (.parcel id)) {n : Int}
    {rest : List Token} (front : s.parcels id = intToken n :: rest) :
    (readInt parcel).eval m s = some (.int n, s.setParcel id rest) :=
  eval_make bound rfl rfl front rfl

theorem exec_writeMarked_of_isNull
    (bound : s.env.get? parcel = some (.parcel id)) {present : Expr} {x : Value}
    (valueBound : s.env.get? value = some x) (null : x.isNull) :
    (writeMarked value parcel present).exec m s =
      some (s.append id [intToken 0]) := by
  have written := exec_writeInt (m := m) bound (e := .int 0) rfl
  simp [writeMarked, Stmt.exec, holds_isNotNull valueBound, null, Block.exec,
    written]

theorem exec_writeMarked {present : Expr}
    (bound : s.env.get? parcel = some (.parcel id)) {x : Value}
    (valueBound : s.env.get? value = some x) (notNull : x.isNull = false)
    {y : Value} {tokens : List Token}
    (evaluated : present.eval m (s.append id [intToken 1]) =
      some (y, s.append id (intToken 1 :: tokens))) :
    (writeMarked value parcel present).exec m s =
      some (s.append id (intToken 1 :: tokens)) := by
  have written := exec_writeInt (m := m) bound (e := .int 1) rfl
  simp [writeMarked, Stmt.exec, holds_isNotNull valueBound, notNull, Block.exec,
    written, evaluated]

theorem holds_readMarker (bound : s.env.get? parcel = some (.parcel id))
    {n : Int} {rest : List Token} (front : s.parcels id = intToken n :: rest) :
    (readMarker parcel).holds m s =
      some ((0 : Int) != n, s.setParcel id rest) := by
  simp [readMarker, Expr.holds, Expr.eval, eval_readInt bound front,
    Comparison.holds?, Value.int, Value.isNull, Value.int?, Datum.int,
    Datum.isNull, Value.truth?]

theorem exec_writeSized_of_isNull
    (bound : s.env.get? parcel = some (.parcel id)) {x : Value}
    (valueBound : s.env.get? value = some x) (null : x.isNull) (size : Expr)
    (body : Block) :
    (writeSized value parcel size body).exec m s =
      some (s.append id [intToken (-1)]) := by
  have written := exec_writeInt (m := m) bound (e := .int (-1)) rfl
  simp [writeSized, Stmt.exec, holds_isNull valueBound, null, written]

theorem exec_writeSized {size : Expr} {body : Block}
    (bound : s.env.get? parcel = some (.parcel id)) {x : Value}
    (valueBound : s.env.get? value = some x) (notNull : x.isNull = false)
    {n : Int} (sized : size.eval m s = some (.int n, s)) {tokens : List Token}
    (rest : Block.exec m body (s.append id [intToken n]) =
      some ((s.append id [intToken n]).append id tokens)) :
    (writeSized value parcel size body).exec m s =
      some (s.append id (intToken n :: tokens)) := by
  have written := exec_writeInt bound sized
  simp [writeSized, Stmt.exec, holds_isNull valueBound, notNull,
    Block.exec_cons_of_eq_some written, rest]

end BinderIdl.Parcel
