import BinderIdl.Proofs.Method.Generation
import BinderIdl.Proofs.Parcel.Filling

namespace BinderIdl.Parcel

open Java BinderIdl.Types Emitter

variable {m : Platform} {r : Registry} {s : State} {value parcel : Variable}
  {id : Nat}
variable {held : Bool} {rest : List Token} {y : Datum}

theorem eval_size_lt_zero {v : Variable} {n : Int}
    (bound : s.env.get? v = some (.int n)) :
    (Expr.compare v.ref .lt (.int 0)).holds m s = some (decide (n < 0), s) := by
  simp [Expr.holds, Expr.eval, eval_ref bound, Comparison.holds?, Value.int,
    Value.int?, Datum.int, Value.truth?]

theorem exec_setBehind {behind : Variable} (apart : behind ≠ value) {e : Expr}
    {x : Value} {s' : State} (evaluated : e.eval m s = some (x, s'))
    {z old : Option Value} {env : Env}
    (scope : s'.env = (behind, z) :: (value, old) :: env) :
    (Stmt.set value e).exec m s =
      some { s' with env := (behind, z) :: (value, some x) :: env } := by
  simp [Stmt.set, Variable.ref, Stmt.exec, assign, evaluated, scope,
    Env.set_cons_of_ne apart, Env.set_cons_self]

def createContainerCode (value parcel : Variable) (fresh : Expr)
    (code : Block) : Block :=
  [.declareUnset value, readSize value parcel, createSized value fresh code]

theorem run_createContainer {fresh : Expr} {body : Emitter Unit} {code : Block}
    (emitted : body (slot held) = ⟨code, slot held, .ok ()⟩) :
    createContainer value parcel fresh body (slot held) =
      ⟨createContainerCode value parcel fresh code, slot held, .ok ()⟩ := by
  rw [createContainer,
    run_bind_of_eq (c := [.declareUnset value, readSize value parcel]) rfl,
    run_nested_emit emitted]
  rfl

theorem exec_readSize (plain : Plain value)
    (typed : parcel.type = "android.os.Parcel")
    (bound : s.env.get? parcel = some (.parcel id)) {n : Int}
    (front : s.parcels id = intToken n :: rest) (code : Block) :
    Block.exec m (.declareUnset value :: readSize value parcel :: code) s =
      Block.exec m code ⟨(sizeVariable value, some (.int n)) :: (value, none) ::
        s.env, s.heap, (s.setParcel id rest).parcels⟩ := by
  have innerBound : (s.push value none).env.get? parcel = some (.parcel id) :=
    (Env.get?_cons_of_ne (plain.ne_parcel typed) _ _).trans bound
  have read := eval_readInt (m := m) (s := s.push value none) innerBound front
  simp only [Block.exec, readSize, Stmt.exec, Option.bind_eq_bind,
    Option.bind_some, read]
  rfl

theorem scope_container (value : Variable) (x : Value) (n : Int) (env : Env) :
    ∃ added : Env, (sizeVariable value, some (.int n)) :: (value, some x) ::
      env = added ++ env ∧ ∀ entry ∈ added, Helper value entry.1 := by
  refine ⟨[(sizeVariable value, some (.int n)), (value, some x)], rfl, ?_⟩
  intro entry listed
  simp only [List.mem_cons, List.not_mem_nil, or_false] at listed
  rcases listed with rfl | rfl
  · exact .size
  · exact .self

theorem get?_container {v : Variable} (apart : v ≠ sizeVariable value)
    (other : v ≠ value) (x : Option Value) (n : Int) (env : Env) :
    Env.get? ((sizeVariable value, some (.int n)) :: (value, x) :: env) v =
      env.get? v :=
  (Env.get?_cons_of_ne apart.symm _ _).trans
    (Env.get?_cons_of_ne other.symm _ _)

theorem loaded_container (plain : Plain value) (loaded : Loaded held s.env)
    (x : Option Value) (n : Int) : Loaded held
      ((sizeVariable value, some (.int n)) :: (value, x) :: s.env) := by
  intro declared
  rw [get?_container]
  · exact loaded declared
  · exact (plain_int (v := sizeVariable value) rfl).ne_loader.symm
  · exact plain.ne_loader.symm

theorem exec_createContainer_of_isNull {Shown : Heap → Value → Prop}
    (plain : Plain value) (typed : parcel.type = "android.os.Parcel")
    (bound : s.env.get? parcel = some (.parcel id)) (loaded : Loaded held s.env)
    (front : s.parcels id = intToken (-1) :: rest) (null : Shown s.heap .null)
    (fresh : Expr) (code : Block) :
    ∃ s', Block.exec m (createContainerCode value parcel fresh code) s =
      some s' ∧ Created held value id rest Shown s s' := by
  let ready : State := ⟨(sizeVariable value, some (.int (-1))) ::
    (value, none) :: s.env, s.heap, (s.setParcel id rest).parcels⟩
  have apart : sizeVariable value ≠ value := derived_ne_owner value _ _
  have negative := eval_size_lt_zero (m := m) (s := ready)
    (v := sizeVariable value) (Env.get?_cons_self _ _ _)
  have set := exec_setBehind (m := m) (s := ready) apart eval_null rfl
  refine ⟨⟨(sizeVariable value, some (.int (-1))) :: (value, some .null) ::
      s.env, s.heap, (s.setParcel id rest).parcels⟩, ?_,
    scope_container value _ _ _, ?_, ?_, rfl, ?_⟩
  · rw [createContainerCode, exec_readSize plain typed bound front,
      Block.exec_singleton]
    simp only [createSized, Stmt.exec, Option.bind_eq_bind]
    rw [negative]
    simp only [Option.bind_some, decide_true, if_true, Int.reduceNeg,
      Int.reduceLT, Block.exec_singleton, set, Option.map_some]
    exact congrArg some (State.leave_of_length_eq rfl)
  · exact ⟨.null,
      (Env.get?_cons_of_ne apart _ _).trans (Env.get?_cons_self _ _ _), null⟩
  · exact ⟨[], (List.append_nil _).symm⟩
  · exact loaded_container plain loaded _ _

theorem exec_createContainer_of_looped (plain : Plain value)
    (typed : parcel.type = "android.os.Parcel")
    (bound : s.env.get? parcel = some (.parcel id)) {size : Nat}
    {left : List Token} (front : s.parcels id = intToken size :: left)
    {empty : Cell} {fresh : Expr}
    (evaluated : ∀ t : State, t.env.get? (sizeVariable value) =
      some (.int size) → fresh.eval m t = some (t.allocate empty))
    {code : Block} {heap : Heap} {parcels : Nat → List Token}
    (looped : Stmt.exec m (sizedLoop value code)
      ⟨(sizeVariable value, some (.int size)) ::
        (value, some (.ref s.heap.length)) :: s.env, s.heap ++ [empty],
        (s.setParcel id left).parcels⟩ =
      some ⟨(sizeVariable value, some (.int size)) ::
        (value, some (.ref s.heap.length)) :: s.env, heap, parcels⟩) :
    Block.exec m (createContainerCode value parcel fresh code) s =
      some ⟨(sizeVariable value, some (.int size)) ::
        (value, some (.ref s.heap.length)) :: s.env, heap, parcels⟩ := by
  let sized : State := ⟨(sizeVariable value, some (.int size)) ::
    (value, none) :: s.env, s.heap, (s.setParcel id left).parcels⟩
  have natural : ¬ ((size : Int) < 0) := by omega
  have condition := eval_size_lt_zero (m := m) (s := sized)
    (v := sizeVariable value) (Env.get?_cons_self _ _ _)
  have set := exec_setBehind (m := m) (s := sized) (derived_ne_owner value _ _)
    (evaluated sized (Env.get?_cons_self _ _ _)) rfl
  rw [createContainerCode, exec_readSize plain typed bound front,
    Block.exec_singleton]
  simp only [createSized, Stmt.exec, Option.bind_eq_bind]
  rw [condition]
  simp only [Option.bind_some, decide_eq_true_eq, if_neg natural]
  rw [Block.exec_cons_of_eq_some set, Block.exec_singleton]
  refine (congrArg (Option.map _) looped).trans ?_
  exact congrArg some (State.leave_of_length_eq rfl)

/-- A container is allocated behind all other objects. What its cell holds after
some of the turns is up to the kind of the container. -/
theorem exec_createContainer {Shown : Heap → Value → Prop} (plain : Plain value)
    (typed : parcel.type = "android.os.Parcel")
    (bound : s.env.get? parcel = some (.parcel id)) (loaded : Loaded held s.env)
    {tokens : Datum → List Token} {items : List Datum}
    (front : s.parcels id =
      intToken items.length :: (items.flatMap tokens ++ rest))
    (empty : Cell) {fresh : Expr}
    (evaluated : ∀ t : State, t.env.get? (sizeVariable value) =
      some (.int items.length) → fresh.eval m t = some (t.allocate empty))
    (Content : List Datum → Cell → Heap → Prop)
    (start : Content [] empty (s.heap ++ [empty])) {code : Block}
    (turn : ∀ (t : State) {done todo : List Datum} {e : Datum} {c : Cell}
      {more : List Token},
      items = done ++ e :: todo → t.env.get? value = some (.ref s.heap.length) →
      t.env.get? (indexVariable value) = some (.int done.length) →
      t.env.get? parcel = some (.parcel id) →
      Loaded held t.env → t.heap[s.heap.length]? = some c →
      Content done c t.heap → t.parcels id = tokens e ++ more →
      ∃ s', Block.exec m code t = some s' ∧ (∃ added, s'.env = added ++ t.env) ∧
        (∃ c', t.heap.Updated s.heap.length c' s'.heap ∧ Content (done ++ [e])
          c' s'.heap) ∧ s'.parcels = (t.setParcel id more).parcels)
    (shown : ∀ {h : Heap} {c : Cell}, h[s.heap.length]? = some c →
      Content items c h → Shown h (.ref s.heap.length)) :
    ∃ s', Block.exec m (createContainerCode value parcel fresh code) s =
      some s' ∧ Created held value id rest Shown s s' := by
  let size := items.length
  let allocated : State := ⟨(sizeVariable value, some (.int size)) ::
    (value, some (.ref s.heap.length)) :: s.env, s.heap ++ [empty],
    (s.setParcel id (items.flatMap tokens ++ rest)).parcels⟩
  have apart : sizeVariable value ≠ value := derived_ne_owner value _ _
  have parcelApart : parcel ≠ value := (plain.ne_parcel typed).symm
  have sizePlain : Plain (sizeVariable value) := plain_int rfl
  have indexPlain : Plain (indexVariable value) := plain_int rfl
  have sizeBound : allocated.env.get? (sizeVariable value) = some (.int size) :=
    Env.get?_cons_self _ _ _
  have valueBound : allocated.env.get? value = some (.ref s.heap.length) :=
    (Env.get?_cons_of_ne apart _ _).trans (Env.get?_cons_self _ _ _)
  have counted : (size : Int).toNat = items.length := Int.toNat_natCast _
  have waiting : allocated.parcels id = items.flatMap tokens ++ rest :=
    State.parcels_setParcel_self s id _
  obtain ⟨heap, looped, c, ⟨more, shape⟩, content⟩ := exec_sizedLoop sizeBound
    counted waiting code
    (fun done h => ∃ c, (∃ more, h = s.heap ++ c :: more) ∧ Content done c h)
    ⟨empty, ⟨[], rfl⟩, start⟩ (by
      rintro t done todo e tokensLeft split scope
        ⟨c, ⟨more, shape⟩, content⟩ waiting
      have lookup {v : Variable} (other : v ≠ indexVariable value) :
          t.env.get? v = allocated.env.get? v := by
        rw [scope, Env.get?_cons_of_ne other.symm]
      have here : t.heap[s.heap.length]? = some c := by
        rw [shape]
        simp
      obtain ⟨s', ran, added, ⟨c', updated, next⟩, taken⟩ :=
        turn t split
          ((lookup (derived_ne_owner value _ _).symm).trans valueBound)
          (by rw [scope, Env.get?_cons_self])
          ((lookup (indexPlain.ne_parcel typed).symm).trans ((get?_container
              (sizePlain.ne_parcel typed).symm parcelApart _ _ _).trans bound))
          (fun declared => (lookup indexPlain.ne_loader.symm).trans
            (loaded_container plain loaded _ _ declared)) here content waiting
      rw [shape] at updated
      exact ⟨s', ran, added, ⟨c', updated.of_append, next⟩, taken⟩)
  refine ⟨{ allocated.setParcel id rest with heap := heap },
    exec_createContainer_of_looped plain typed bound front evaluated looped,
    scope_container value _ _ _, ⟨.ref s.heap.length, valueBound, ?_⟩,
    ⟨c :: more, shape⟩, State.parcels_setParcel_of_eq s id rest rfl,
    loaded_container plain loaded _ _⟩
  exact shown (by rw [shape]; simp) content

/-- Code that gives a variable any value of a type. -/
def Creates (m : Platform) (value parcel : Variable) (held late : Bool)
    (Fits : Datum → Prop) (tokens : Datum → List Token)
    (Shown : Datum → Heap → Value → Prop) (code : Block) : Prop :=
  ∀ (s : State) (id : Nat) (y : Datum) (rest : List Token),
    s.env.get? parcel = some (.parcel id) → Loaded held s.env → Fits y →
    s.parcels id = tokens y ++ rest → ∃ s', Block.exec m code s = some s' ∧
      Created late value id rest (Shown y) s s'

theorem creates_acquireCode {Fits : Datum → Prop} {tokens : Datum → List Token}
    {Shown : Datum → Heap → Value → Prop} {late needed : Bool} {code : Block}
    (typed : parcel.type = "android.os.Parcel")
    (creates :
      Creates m value parcel (held || needed) late Fits tokens Shown code) :
    Creates m value parcel held late Fits tokens Shown
      (acquireCode held needed ++ code) := by
  intro s id y rest bound loaded fits front
  obtain ⟨s', ran, created⟩ :=
    creates { s with env := acquired held needed ++ s.env } id y rest
      ((get?_acquired (parcel_ne_loader typed) s.env).trans bound)
      (loaded_acquired needed loaded) fits front
  refine ⟨s', ?_, created.of_acquired⟩
  rw [Block.exec_append_of_eq_some (exec_acquireCode held needed m s)]
  exact ran

theorem run_acquireIf (formed : r.WellFormed) {needed : Bool} {e : Emitter Unit}
    {code : Block} {after : Option Variable}
    (emitted : e (slot (held || needed)) = ⟨code, after, .ok ()⟩) :
    (acquireIf r needed >>= fun _ => e) (slot held) =
      ⟨acquireCode held needed ++ code, after, .ok ()⟩ := by
  rw [run_bind_of_eq (acquireIf_slot formed held needed), emitted]

/-- Each turn of the loop adds one element to what is in the container. -/
theorem creates_container {d : Descriptor} {body : Emitter Unit}
    {fits : Datum → Prop} {apart : Datum → Datum → Prop}
    {tokens : Datum → List Token}
    (container : IsContainer m r d value parcel body fits apart tokens)
    (empty : m.fresh d.instantiable = .collection []) (plain : Plain value)
    (typed : parcel.type = "android.os.Parcel") {code : Block}
    (adds : Adds m value parcel held fits apart tokens code) :
    Creates m value parcel held held ((r.layout d).Fits m) (r.layout d).tokens
      (fun y h x => h.Item x y)
      (createContainerCode value parcel (.new d.instantiable []) code) := by
  intro s id y rest bound loaded fits front
  rw [container.tokens] at front
  rcases container.fits fits with rfl | ⟨items, rfl, fits, different⟩
  · exact exec_createContainer_of_isNull plain typed bound loaded front
      (.data .null) _ _
  · apply exec_createContainer plain typed bound loaded front
      (.data (.collection []))
      (fun t _ => by simp [Expr.eval, empty, State.place, Datum.isMutable])
      (fun done c _ => c = .data (.collection done)) rfl
    · intro t done todo e c more split valueBound _ parcelBound loaded here
        content waiting
      subst content
      subst split
      obtain ⟨s', ran, added, updated, taken⟩ :=
        adds valueBound here parcelBound loaded (fits e (by simp))
          (fun o listed => (List.pairwise_append.mp different).2.2 o listed e
            (by simp)) waiting
      exact ⟨s', ran, added, ⟨_, updated, rfl⟩, taken⟩
    · intro h c here content
      subst content
      exact .object here rfl

theorem exec_assignItem {index item : Variable} {a k : Nat} {items : List Value}
    {x : Value} (bound : s.env.get? value = some (.ref a))
    (known : s.heap[a]? = some (.array items))
    (indexBound : s.env.get? index = some (.int k)) (inside : k < items.length)
    (itemBound : s.env.get? item = some x) :
    Stmt.exec m (.assign (.index value.ref index.ref) item.ref) s =
      some (s.replace a (.array (items.set k x))) := by
  simp [Stmt.exec, assign, eval_ref bound, eval_ref indexBound,
    eval_ref itemBound, Heap.array?, Heap.cell?, known, Value.int, Value.int?,
    Datum.int, inside]

theorem set_append_replicate {α : Type} (done : List α) (left : Nat) (z x : α) :
    (done ++ List.replicate (left + 1) z).set done.length x =
      (done ++ [x]) ++ List.replicate left z := by
  simp [List.replicate_succ]

/-- What an array holds after some of the turns. -/
def ArrayContent (total : Nat) (z : Value) (done : List Datum) (c : Cell)
    (h : Heap) : Prop :=
  ∃ xs, c = .array (xs ++ List.replicate (total - done.length) z) ∧
    List.Forall₂ h.Item xs done

def createItemCode (value : Variable) (d : Descriptor) (code : Block) : Block :=
  code ++ [.assign (.index value.ref (indexVariable value).ref)
    (itemVariable value d).ref]

theorem exec_createItem {d : Descriptor} {late : Bool} {code : Block}
    (plain : Plain value)
    (creates : CreatesWhole d (itemVariable value d) parcel held late code)
    {t : State} {a : Nat} {done : List Datum} {total left : Nat} {z : Value}
    {e : Datum} {c : Cell} {more : List Token}
    (counted : total - done.length = left + 1)
    (valueBound : t.env.get? value = some (.ref a))
    (indexBound : t.env.get? (indexVariable value) = some (.int done.length))
    (parcelBound : t.env.get? parcel = some (.parcel id))
    (loaded : Loaded held t.env) (here : t.heap[a]? = some c)
    (content : ArrayContent total z done c t.heap) (fits : d.fits e)
    (waiting : t.parcels id = d.tokens e ++ more) :
    ∃ s', Block.exec m (createItemCode value d code) t = some s' ∧
      (∃ added, s'.env = added ++ t.env) ∧
      (∃ c', t.heap.Updated a c' s'.heap ∧
        ArrayContent total z (done ++ [e]) c' s'.heap) ∧
      s'.parcels = (t.setParcel id more).parcels := by
  obtain ⟨xs, rfl, shown⟩ := content
  obtain ⟨s', ran, ⟨added, scope, helpers⟩, ⟨x, itemBound, item⟩, ⟨extra, heap⟩,
      taken, _⟩ :=
    creates (m := m) parcelBound loaded fits waiting
  have indexBound' :
      s'.env.get? (indexVariable value) = some (.int done.length) := by
    rw [scope, Env.get?_append_of_forall_ne]
    · exact indexBound
    · exact fun entry listed => (helpers entry listed).ne_derived (by decide)
        (by decide) (by decide) (by decide) (by decide)
  have valueBound' : s'.env.get? value = some (.ref a) := by
    rw [scope, Env.get?_append_of_forall_ne]
    · exact valueBound
    · exact fun entry listed => (helpers entry listed).ne_owner plain.loader
  have here' := Heap.getElem?_append_of_eq_some here extra
  rw [← heap] at here'
  have count : xs.length = done.length := shown.length_eq
  have assigned := exec_assignItem (m := m) valueBound' here' indexBound'
    (by rw [counted]; simp; omega) itemBound
  rw [counted, ← count, set_append_replicate] at assigned
  let c' : Cell := .array ((xs ++ [x]) ++ List.replicate left z)
  refine ⟨s'.replace a c', ?_, ⟨added, scope⟩,
    ⟨c', ⟨extra, congrArg (List.set · _ c') heap⟩, xs ++ [x], ?_, ?_⟩, taken⟩
  · rw [createItemCode, Block.exec_append_of_eq_some ran, Block.exec_singleton]
    exact assigned
  · rw [List.length_append, List.length_singleton, ← Nat.sub_sub, counted,
      Nat.add_sub_cancel]
  · have updated := Heap.updated_set s'.heap a c'
    refine List.rel_append ?_ (.cons (item.of_updated_array here' updated) .nil)
    exact shown.imp fun _ _ first =>
      Heap.Item.of_updated_array (heap ▸ first.append extra) here' updated

theorem creates_listArray {d : Descriptor} {late : Bool} {code : Block}
    (plain : Plain value) (typed : parcel.type = "android.os.Parcel")
    (creates : CreatesWhole d (itemVariable value d) parcel held late code) :
    Creates m value parcel held held
      (fun y => y.isCollectionOf fun item => d.fits item) (sizedTokens d.tokens)
      (fun y h x => h.ArrayOf x y) (createContainerCode value parcel
        (.newArray d.importType (sizeVariable value).ref)
        (createItemCode value d code)) := by
  intro s id y rest bound loaded fits front
  cases y with
  | null =>
      exact exec_createContainer_of_isNull plain typed bound loaded front
        .null _ _
  | collection items =>
      let z : Value := .data (.default d.importType)
      apply exec_createContainer plain typed bound loaded front
        (.array (List.replicate items.length z))
        (fun t sized => by
          simp [Expr.eval, eval_ref sized, Value.int, Value.int?, Datum.int, z])
        (ArrayContent items.length z) ⟨[], rfl, .nil⟩
      · intro t done todo e c more split valueBound indexBound parcelBound
          loaded here content waiting
        have listed : e ∈ items := by rw [split]; simp
        have counted : items.length - done.length = todo.length + 1 := by
          rw [split, List.length_append, List.length_cons]
          omega
        exact exec_createItem plain creates counted valueBound indexBound
          parcelBound loaded here content
          (List.all_eq_true.mp fits e listed) waiting
      · rintro h c here ⟨xs, rfl, shown⟩
        rw [Nat.sub_self, List.replicate_zero, List.append_nil] at here
        exact .array here shown
  | _ => cases fits

theorem eq_of_isCollectionOf {test : Datum → Bool}
    (fits : y.isCollectionOf test) :
    y = .null ∨ ∃ items, y = .collection items := by
  cases y with
  | null => exact .inl rfl
  | collection items => exact .inr ⟨items, rfl⟩
  | _ => cases fits

/-- An array that the parcel carries as a whole is allocated by the call that
reads it. -/
theorem creates_wholeArray {method : String} {tag : Tag} {test : Datum → Bool}
    {es : List Expr} {xs : List Value} (plain : Plain value)
    (named : ParcelMethod.ofName? method = some (.make tag))
    (array : tag.isArray)
    (evaluated : ∀ s : State, Expr.evalAll m es s = some (xs, s))
    (allowed : ∀ {y : Datum}, y.isCollectionOf test → tag.readsWith xs y) :
    Creates m value parcel held held (fun y => y.isCollectionOf test)
      (fun y => [⟨tag, y⟩]) (fun y h x => h.ArrayOf x y) [.declare value
        (parcel.call method es)] := by
  intro s id y rest bound loaded fits front
  have called := eval_make bound named (evaluated s) front (allowed fits)
  rw [if_pos array] at called
  have shown (x : Value) (heap : Heap) (more : List Cell)
      (grown : heap = s.heap ++ more) (array : heap.ArrayOf x y) :
      Created held value id rest (fun h x => h.ArrayOf x y) s
        ⟨(value, some x) :: s.env, heap, (s.setParcel id rest).parcels⟩ := by
    refine ⟨⟨[(value, some x)], rfl, ?_⟩, ⟨x, Env.get?_cons_self _ _ _, array⟩,
      ⟨more, grown⟩, rfl, loaded_push loaded plain.loader _⟩
    intro entry listed
    rw [List.mem_singleton] at listed
    exact listed ▸ .self
  rcases eq_of_isCollectionOf fits with rfl | ⟨items, rfl⟩
  · refine ⟨_, ?_, shown .null s.heap [] (List.append_nil _).symm .null⟩
    simp [Stmt.exec, called, State.placeArray, State.push, Value.null]
  · refine ⟨_, ?_, shown (.ref s.heap.length) _ [.array (items.map .data)] rfl
      (.array (by simp) (Heap.forall₂_item_map_data _ items))⟩
    simp [Stmt.exec, called, State.placeArray, State.allocate, State.push]

theorem ofName?_createArrayMethod (p : Primitive) :
    ParcelMethod.ofName? p.createArrayMethod = some (.make (.array p)) := by
  cases p <;> rfl

theorem readsWith_typedArray {creator : String}
    (fits : y.isCollectionOf (Datum.isMadeBy creator)) :
    Tag.typedArray.readsWith [.symbol creator] y :=
  fits

theorem eval_creatorExpr (d : Descriptor) :
    (creatorExpr d).eval m s = some (.symbol d.recordCreator, s) := by
  have creator : d.qualifiedName ++ "." ++ "CREATOR" = d.recordCreator :=
    String.append_assoc
  simp [creatorExpr, Expr.eval, Value.field?, creator]

theorem exists_creates_array (m : Platform) (formed : r.WellFormed) {h : Handle}
    {d : Descriptor} (known : r.get? h = some d) (array : d.canBeArray)
    (plain : Plain value) (typed : parcel.type = "android.os.Parcel")
    (held : Bool) :
    ∃ code late,
      createArray r d value parcel (slot held) = ⟨code, slot late, .ok ()⟩ ∧
      Creates m value parcel held late (fun y => d.arrayFits y) d.arrayTokens
        (fun y h x => h.ArrayOf x y) code := by
  unfold createArray Descriptor.arrayFits Descriptor.arrayTokens
  cases d.strategy_of_canBeArray array with
  | primitive p strategy =>
      simp only [strategy]
      exact ⟨_, held, rfl, creates_wholeArray plain
        (ofName?_createArrayMethod p) rfl (fun _ => rfl) fun _ => rfl⟩
  | string strategy =>
      simp only [strategy]
      exact ⟨_, held, rfl,
        creates_wholeArray plain rfl rfl (fun _ => rfl) fun _ => rfl⟩
  | binder strategy =>
      simp only [strategy]
      exact ⟨_, held, rfl,
        creates_wholeArray plain rfl rfl (fun _ => rfl) fun _ => rfl⟩
  | record strategy =>
      simp only [strategy]
      refine ⟨_, held, rfl,
        creates_wholeArray plain rfl rfl (fun s => ?_) readsWith_typedArray⟩
      simp [Expr.evalAll, eval_creatorExpr]
  | list arguments element strategy =>
      have whole : d.strategy.isWhole := by rw [strategy]; rfl
      have needs := needsClassLoader_of_isWhole (r := r) whole
      have itemPlain : Plain (itemVariable value d) :=
        plain_of_qualifiedName formed known (ne_helper_of_isWhole whole) rfl
      obtain ⟨code, emitted, creates⟩ :=
        emitsCreation_createWhole formed known whole itemPlain.loader typed
          (itemPlain.ne_parcel typed) (held || d.strategy.looksUpClasses)
      rw [← needs, Bool.or_assoc, Bool.or_self] at emitted
      rw [← needs] at creates
      have filled :
          fillArray r d value parcel (slot (held || r.needsClassLoader d)) =
            ⟨code ++ [.assign (.index value.ref (indexVariable value).ref)
                (itemVariable value d).ref],
              slot (held || r.needsClassLoader d), .ok ()⟩ :=
        run_bind_of_eq emitted
      simp only [strategy]
      refine ⟨_, _, run_acquireIf formed (run_createContainer filled), ?_⟩
      apply creates_acquireCode typed
      intro s id y rest bound loaded fits front
      refine creates_listArray plain typed creates s id y rest bound loaded
        ?_ front
      simpa only [Descriptor.fits, strategy] using fits

theorem exists_creates {m : Platform} (formed : r.WellFormed)
    (makes : m.MakesContainers r) {h : Handle} {d : Descriptor}
    (known : r.get? h = some d) (carried : r.Carried d) (plain : Plain value)
    (typed : parcel.type = "android.os.Parcel") (held : Bool) :
    ∃ code late,
      create r d value parcel (slot held) = ⟨code, slot late, .ok ()⟩ ∧
      Creates m value parcel held late ((r.layout d).Fits m) (r.layout d).tokens
        (fun y h x => h.Item x y) code := by
  have container {arguments : TypeArguments}
      (generic : d.strategy = .generic arguments) : ∃ code late,
        create r d value parcel (slot held) = ⟨code, slot late, .ok ()⟩ ∧
        Creates m value parcel held late ((r.layout d).Fits m)
          (r.layout d).tokens (fun y h x => h.Item x y) code := by
    obtain ⟨body, fits, apart, tokens, container⟩ :=
      exists_isContainer m formed carried generic typed plain
    obtain ⟨code, emitted, adds⟩ :=
      container.adds (held || r.needsClassLoader d) (by simp_all)
    refine ⟨_, _, ?_, creates_acquireCode typed
      (creates_container container (makes known generic) plain typed adds)⟩
    rw [container.create]
    exact run_acquireIf formed (run_createContainer emitted)
  cases carried with
  | whole whole =>
      obtain ⟨code, emitted, creates⟩ := emitsCreation_createWhole formed known
        whole plain.loader typed (plain.ne_parcel typed) held
      rw [create, Registry.layout_of_isWhole r whole]
      exact ⟨code, _, emitted, fun s id y rest => creates⟩
  | elements generic => exact container generic
  | entries generic => exact container generic

end BinderIdl.Parcel

namespace BinderIdl.Method

open Java BinderIdl.Types Parcel

variable {r : Registry} {t : ValueType} {value parcel : Variable}

theorem ne_helper_of_carried {d : Descriptor} (carried : r.Carried d) :
    d.strategy ≠ .helper := by
  cases carried with
  | whole whole => exact ne_helper_of_isWhole whole
  | elements generic => exact fun helper => nomatch generic.symm.trans helper
  | entries generic => exact fun helper => nomatch generic.symm.trans helper

theorem ValueType.Sound.plain (sound : t.Sound r) (formed : r.WellFormed)
    (name : String) :
    Plain (t.variableNamed name) := by
  obtain ⟨h, known⟩ := sound.known
  unfold ValueType.variableNamed Descriptor.variableFor
  split
  · have last (text : String) :
        (text ++ "[]").toList.getLast? = some ']' := by simp
    have other {type : String} (plain : type.toList.getLast? ≠ some ']') :
        (t.descriptor.arrayVariable name).type ≠ type :=
      fun same => plain (same ▸ last t.descriptor.qualifiedName)
    exact ⟨other (by decide), other (by decide)⟩
  · exact plain_of_qualifiedName formed known
      (ne_helper_of_carried sound.carried) rfl

theorem ValueType.Sound.exists_creates (sound : t.Sound r)
    (formed : r.WellFormed) {m : Platform} (makes : m.MakesContainers r)
    (plain : Plain value) (typed : parcel.type = "android.os.Parcel")
    (held : Bool) :
    ∃ code late,
      t.create r value parcel (slot held) = ⟨code, slot late, .ok ()⟩ ∧
      Creates m value parcel held late (t.Fits m r) (t.tokens r)
        (fun y h x => t.Shows h x y) code := by
  obtain ⟨h, known⟩ := sound.known
  unfold ValueType.create
  by_cases array : t.isArray
  · obtain ⟨code, late, emitted, creates⟩ :=
      exists_creates_array m formed known (sound.array array) plain typed held
    refine ⟨code, late, ?_, ?_⟩
    · rw [if_pos array]
      exact emitted
    · simpa only [Creates, ValueType.Fits, ValueType.tokens, ValueType.Shows,
        array, if_true] using creates
  · obtain ⟨code, late, emitted, creates⟩ :=
      Parcel.exists_creates formed makes known sound.carried plain typed held
    refine ⟨code, late, ?_, ?_⟩
    · rw [if_neg array]
      exact emitted
    · simpa only [Creates, ValueType.Fits, ValueType.tokens, ValueType.Shows,
        if_neg array] using creates

end BinderIdl.Method
