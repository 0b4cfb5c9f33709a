import BinderIdl.Proofs.Java.Execution

namespace BinderIdl.Java

open BinderIdl.Types

variable {m : Platform} {s : State}

/-- A loop that counts up takes as many turns as its limit says, none if that is
negative. A turn may declare variables of its own. -/
theorem exec_countUp {index limit : Variable} {body : Block} {env : Env}
    {n : Int} (bound : env.get? limit = some (.int n)) (apart : index ≠ limit)
    (Inv : Nat → Heap → (Nat → List Token) → Prop) {heap : Heap}
    {parcels : Nat → List Token} (start : Inv 0 heap parcels)
    (turn : ∀ (k : Nat) (heap : Heap) (parcels : Nat → List Token),
      (k : Int) < n → Inv k heap parcels →
      ∃ s', Block.exec m body ⟨(index, some (.int k)) :: env, heap, parcels⟩ =
        some s' ∧ (∃ added, s'.env = added ++ (index, some (.int k)) :: env) ∧
        Inv (k + 1) s'.heap s'.parcels) :
    ∃ heap' parcels',
      Stmt.exec m (.countUp index limit.ref body) ⟨env, heap, parcels⟩ =
        some ⟨env, heap', parcels'⟩ ∧ Inv n.toNat heap' parcels' := by
  let condition := (Expr.compare index.ref .lt limit.ref).holds m
  let step (s : State) : Option State := do
    let s ← (Block.exec m body s).map (State.leave (env.length + 1))
    count index s
  have holds (k : Nat) (heap : Heap) (parcels : Nat → List Token) :
      condition ⟨(index, some (.int k)) :: env, heap, parcels⟩ =
        some (decide ((k : Int) < n),
          ⟨(index, some (.int k)) :: env, heap, parcels⟩) := by
    simp [condition, Expr.holds, Expr.eval, Variable.ref, Env.get?_cons_self,
      Env.get?_cons_of_ne apart, bound, Comparison.holds?, Value.int,
      Value.int?, Datum.int, Value.truth?]
  have loop : ∀ (left k : Nat) (heap : Heap) (parcels : Nat → List Token),
      n.toNat = k + left → Inv k heap parcels →
      ∃ s', repeatWhile condition step
        ⟨(index, some (.int k)) :: env, heap, parcels⟩ = some s' ∧
        (∃ x, s'.env = (index, x) :: env) ∧ Inv n.toNat s'.heap s'.parcels := by
    intro left
    induction left with
    | zero =>
        intro k heap parcels counted inv
        have done : ¬ (k : Int) < n := by omega
        have last : n.toNat = k := counted
        refine ⟨⟨(index, some (.int k)) :: env, heap, parcels⟩, ?_, ⟨_, rfl⟩,
          last ▸ inv⟩
        exact repeatWhile_of_fails (by rw [holds, decide_eq_false done])
    | succ left induction =>
        intro k heap parcels counted inv
        have more : (k : Int) < n := by omega
        obtain ⟨s', done, ⟨added, scope⟩, next⟩ := turn k heap parcels more inv
        obtain ⟨final, rest, finalScope, result⟩ :=
          induction (k + 1) s'.heap s'.parcels (by omega) next
        refine ⟨final, ?_, finalScope, result⟩
        have left : s'.leave (env.length + 1) =
            ⟨(index, some (.int k)) :: env, s'.heap, s'.parcels⟩ := by
          simp [State.leave, scope]
        have stepped : step ⟨(index, some (.int k)) :: env, heap, parcels⟩ =
            some ⟨(index, some (.int (k + 1 : Nat))) :: env, s'.heap,
              s'.parcels⟩ := by
          simp only [step, done, Option.map_some, left, Option.bind_eq_bind,
            Option.bind_some]
          simp [count, Env.get?_cons_self, Env.set_cons_self, Value.int?,
            Value.int, Datum.int]
        exact (repeatWhile_of_holds (by rw [holds, decide_eq_true more])
            stepped).trans rest
  obtain ⟨s', done, ⟨x, scope⟩, result⟩ :=
    loop n.toNat 0 heap parcels (by omega) start
  refine ⟨s'.heap, s'.parcels, ?_, result⟩
  have ran : repeatWhile condition step
      ⟨(index, some (.int 0)) :: env, heap, parcels⟩ = some s' :=
    done
  simp only [Stmt.exec, State.push, List.length_cons]
  change (repeatWhile condition step _ >>= _) = _
  simp [ran, State.leave, scope]

theorem exec_forEach {item : Variable} {collection : Expr} {body : Block}
    {x : Value} {items : List Value} {ds : List Datum} {id : Nat}
    (evaluated : collection.eval m s = some (x, s))
    (elements : s.heap.elements? x = some items)
    (shown : List.Forall₂ s.heap.Item items ds) (tokens : Datum → List Token)
    (turn : ∀ y d, s.heap.Item y d → d ∈ ds →
      ∀ before,
        ∃ added, Block.exec m body ((s.append id before).push item (some y)) =
          some { (s.append id before).append id (tokens d) with
          env := added ++ (item, some y) :: s.env }) :
    Stmt.exec m (.forEach item collection body) s =
      some (s.append id (ds.flatMap tokens)) := by
  simp only [Stmt.exec, evaluated, Option.bind_eq_bind, Option.bind_some,
    elements]
  suffices loop : ∀ before,
      items.foldlM
        (fun s y =>
          (Block.exec m body (s.push item (some y))).map
            (State.leave s.env.length))
        (s.append id before) =
          some (s.append id (before ++ ds.flatMap tokens)) by
    simpa only [State.append_nil, List.nil_append] using loop []
  clear elements evaluated
  induction shown with
  | nil => simp
  | @cons y d rest more first others induction =>
      intro before
      obtain ⟨added, done⟩ := turn y d first (List.mem_cons_self ..) before
      have left :=
        State.leave_append_cons_env ((s.append id before).append id (tokens d))
          added (item, some y) s.env
      have later := induction
        (fun z e shown listed => turn z e shown (List.mem_cons_of_mem d listed))
        (before ++ tokens d)
      rw [List.foldlM_cons]
      simp only [done, Option.map_some, Option.bind_eq_bind, Option.bind_some]
      change List.foldlM _ (State.leave s.env.length _) rest = _
      rw [left]
      simp only [State.append_append, List.flatMap_cons,
        ← List.append_assoc] at later ⊢
      exact later

end BinderIdl.Java
