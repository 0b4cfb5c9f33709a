import BinderIdl.Proofs.Parcel.Containers
import BinderIdl.Proofs.Parcel.Receiving

/-! Code that reads into a value takes the same tokens off the parcel as
code that creates one. Of the objects that there are it changes only the one
that it fills. -/

namespace BinderIdl.Parcel

open Java BinderIdl.Types Emitter

variable {m : Platform} {r : Registry} {s : State} {value parcel : Variable}
  {id : Nat}
variable {held : Bool} {rest : List Token} {y : Datum}

/-- What code has done that reads into a value. -/
structure Filled (held : Bool) (value : Variable) (id : Nat) (rest : List Token)
    (touched : Nat → Prop) (Shown : Heap → Prop) (s s' : State) : Prop where
  scope : ∃ added, s'.env = added ++ s.env ∧
    ∀ entry ∈ added, entry.1 = sizeVariable value ∨ entry.1 = loaderVariable
  heap : s.heap.Changed touched s'.heap
  shown : Shown s'.heap
  parcels : s'.parcels = (s.setParcel id rest).parcels
  loaded : Loaded held s'.env

/-- Code that reads any value of a type into the object that a
variable refers to. -/
def Fills (value parcel : Variable) (held late : Bool) (Fits : Datum → Prop)
    (tokens : Datum → List Token) (Receives : Heap → Value → Datum → Prop)
    (touches : Heap → Value → Nat → Prop)
    (Shown : Heap → Value → Datum → Heap → Prop) (m : Platform)
    (code : Block) : Prop :=
  ∀ (s : State) (id : Nat) (x : Value) (y : Datum) (rest : List Token),
    s.env.get? parcel = some (.parcel id) → s.env.get? value = some x →
    Loaded held s.env → Fits y → Receives s.heap x y →
    s.parcels id = tokens y ++ rest → ∃ s', Block.exec m code s = some s' ∧
      Filled late value id rest (touches s.heap x) (Shown s.heap x y) s s'

theorem Filled.of_acquired {late needed : Bool} {touched : Nat → Prop}
    {Shown : Heap → Prop} {s' : State}
    (filled : Filled late value id rest touched Shown
      { s with env := acquired held needed ++ s.env } s') :
    Filled late value id rest touched Shown s s' := by
  obtain ⟨⟨added, scope, helpers⟩, heap, shown, parcels, loaded⟩ := filled
  refine ⟨⟨added ++ acquired held needed, by rw [scope, List.append_assoc], ?_⟩,
    heap, shown, parcels, loaded⟩
  intro entry listed
  rcases List.mem_append.mp listed with new | loader
  · exact helpers entry new
  · exact .inr (eq_loader_of_mem_acquired loader)

theorem fills_acquireCode {late needed : Bool} {Fits : Datum → Prop}
    {tokens : Datum → List Token} {Receives : Heap → Value → Datum → Prop}
    {touches : Heap → Value → Nat → Prop}
    {Shown : Heap → Value → Datum → Heap → Prop} {code : Block}
    (plain : Plain value) (typed : parcel.type = "android.os.Parcel")
    (fills : Fills value parcel (held || needed) late Fits tokens Receives
      touches Shown m code) :
    Fills value parcel held late Fits tokens Receives touches Shown m
      (acquireCode held needed ++ code) := by
  intro s id x y rest bound valueBound loaded fits receives front
  obtain ⟨s', ran, filled⟩ :=
    fills { s with env := acquired held needed ++ s.env } id x y rest
      ((get?_acquired (parcel_ne_loader typed) s.env).trans bound)
      ((get?_acquired plain.ne_loader s.env).trans valueBound)
      (loaded_acquired needed loaded) fits receives front
  refine ⟨s', ?_, filled.of_acquired⟩
  rw [Block.exec_append_of_eq_some (exec_acquireCode held needed m s)]
  exact ran

theorem filled_of_env_eq {touched : Nat → Prop} {Shown : Heap → Prop}
    {s' : State} (scope : s'.env = s.env)
    (heap : s.heap.Changed touched s'.heap) (shown : Shown s'.heap)
    (parcels : s'.parcels = (s.setParcel id rest).parcels)
    (loaded : Loaded held s.env) :
    Filled held value id rest touched Shown s s' :=
  ⟨⟨[], scope, fun _ listed => nomatch listed⟩, heap, shown, parcels,
    scope ▸ loaded⟩

theorem eval_fill (bound : s.env.get? parcel = some (.parcel id)) {x : Value}
    (valueBound : s.env.get? value = some x) {method : String} {tag : Tag}
    (named : ParcelMethod.ofName? method = some (.fill tag)) {es : List Expr}
    {xs : List Value} (evaluated : Expr.evalAll m es s = some (xs, s)) :
    (parcel.call method (value.ref :: es)).eval m s = s.fill m id tag x xs := by
  have arguments : Expr.evalAll m (value.ref :: es) s = some (x :: xs, s) := by
    simp [Expr.evalAll, eval_ref valueBound, evaluated]
  rw [eval_call_parcel bound named arguments]
  rfl

theorem fill_null {tag : Tag} {xs : List Value} {x : Value}
    (front : s.parcels id = ⟨tag, .null⟩ :: rest)
    (allowed : tag.readsWith xs .null)
    (kept : (s.setParcel id rest).refill m tag x .null = none)
    (single : tag.isArray → x.isNull) :
    s.fill m id tag x xs = some (.null, s.setParcel id rest) := by
  simp only [State.fill, take_eq_some front, allowed, Datum.isNull, kept,
    Option.bind_eq_bind, Option.bind_some, if_true, Bool.true_and]
  exact if_pos (by simpa [Decidable.imp_iff_not_or] using single)

theorem fill_ref {tag : Tag} {xs : List Value} {a : Nat} {c c' : Cell}
    (front : s.parcels id = ⟨tag, y⟩ :: rest) (allowed : tag.readsWith xs y)
    (known : s.heap[a]? = some c) (filled : State.filled m tag c y = some c') :
    s.fill m id tag (.ref a) xs =
      some (.null, (s.setParcel id rest).replace a c') := by
  simp [State.fill, State.refill, take_eq_some front, allowed, known, filled]

/-- Null leaves everything alone that is no container. -/
theorem refill_null {tag : Tag} {x : Value}
    (other : ¬ s.heap.HasContainer x) : s.refill m tag x .null = none := by
  cases x with
  | ref a =>
      cases known : s.heap[a]? with
      | none => simp [State.refill, known]
      | some c =>
          have unfilled : State.filled m tag c .null = none := by
            cases c with
            | array items => rfl
            | data d =>
                cases d with
                | collection old => exact absurd ⟨a, old, rfl, known⟩ other
                | _ => rfl
          simp [State.refill, known, unfilled]
  | _ => rfl

theorem filled_container {tag : Tag} (list : tag.isList) {test : Datum → Bool}
    (fits : y.isCollectionOf test) (old : List Datum) : ∃ new,
      State.filled m tag (.data (.collection old)) y =
        some (.data (.collection new)) ∧
      tag.refilled m (.collection old) y = .collection new := by
  rcases eq_of_isCollectionOf fits with rfl | ⟨items, rfl⟩ <;>
    cases tag <;> first | exact ⟨_, rfl, rfl⟩ | cases list

theorem fills_call {method : String} {tag : Tag}
    (named : ParcelMethod.ofName? method = some (.fill tag)) (list : tag.isList)
    {es : List Expr} {xs : List Value} {test : Datum → Bool}
    (evaluated : ∀ s : State,
      Loaded held s.env → Expr.evalAll m es s = some (xs, s))
    (allowed : ∀ {y : Datum}, y.isCollectionOf test → tag.readsWith xs y) :
    Fills value parcel held held (fun y => y.isCollectionOf test)
      (fun y => [⟨tag, y⟩]) (fun h x y => y = .null ∨ h.HasContainer x)
      (fun h x a => x = .ref a ∧ h.IsObject a) (fun h x y h' =>
          ¬ x.ByValue → ∀ old, h.Item x old → h'.Item x (tag.refilled m old y))
      m [.expr (parcel.call method (value.ref :: es))] := by
  intro s id x y rest bound valueBound loaded fits receives front
  have called := eval_fill (m := m) bound valueBound named (evaluated s loaded)
  rw [Block.exec_singleton, Stmt.exec, called]
  by_cases container : s.heap.HasContainer x
  · obtain ⟨a, old, rfl, known⟩ := container
    obtain ⟨new, filled, content⟩ := filled_container (m := m) list fits old
    let c : Cell := .data (.collection new)
    have updated := Heap.updated_set s.heap a c
    refine ⟨(s.setParcel id rest).replace a c, ?_,
      filled_of_env_eq rfl ?_ ?_ rfl loaded⟩
    · rw [fill_ref front (allowed fits) known filled]
      rfl
    · refine (updated.changed known (.container old new)).mono ?_
      rintro b rfl
      exact ⟨rfl, Heap.isObject_of_data known⟩
    · intro _ before item
      cases Option.some.inj (item.cell?.symm.trans known)
      rw [content]
      exact .object (updated.self (List.getElem?_eq_some_iff.mp known).1) rfl
  · obtain rfl : y = .null := receives.resolve_right container
    refine ⟨s.setParcel id rest, ?_,
      filled_of_env_eq rfl (Heap.changed_refl _ _) ?_ rfl loaded⟩
    · rw [fill_null front (allowed fits) (refill_null container) fun array =>
        absurd array (by simp [Tag.isArray_of_isList list])]
      rfl
    · intro object old item
      cases item with
      | data =>
          cases old with
          | collection items => exact absurd ⟨items, rfl⟩ object
          | _ => exact .data _
      | object known mutable =>
          cases old with
          | collection items => exact absurd ⟨_, items, rfl, known⟩ container
          | record type content => exact .object known mutable
          | _ => cases mutable

def FillsWhole (d : Descriptor) (value parcel : Variable) (held late : Bool)
    (m : Platform) (code : Block) : Prop :=
  Fills value parcel held late (fun y => d.fits y) d.tokens d.Receives
    (fun h x a => x = .ref a ∧ h.IsObject a)
    (fun h x y h' =>
      ¬ x.ByValue → ∀ old, h.Item x old → h'.Item x (d.refilled m old y)) m code

theorem fillsWhole_readRecord {d : Descriptor}
    (record : d.strategy = .parcelable) :
    FillsWhole d value parcel held held m [readRecord value parcel] := by
  intro s id x y rest bound valueBound loaded fits receives front
  simp only [Descriptor.fits, Descriptor.tokens, Descriptor.Receives,
    Descriptor.refilled, record] at fits receives front ⊢
  rw [Block.exec_singleton, readRecord, Stmt.exec]
  rcases Datum.eq_of_isMadeBy fits with rfl | ⟨content, rfl⟩
  · have marker := holds_readMarker (m := m) bound front
    refine ⟨s.setParcel id rest, ?_, filled_of_env_eq rfl
      (Heap.changed_refl _ _) (fun _ old item => item) rfl loaded⟩
    rw [marker]
    rfl
  · rcases receives with null | ⟨a, old, rfl, known⟩
    · cases null
    · have marker := holds_readMarker (m := m) bound front
      let c : Cell := .data (.record d.qualifiedName content)
      let ready := s.setParcel id
        (⟨.record d.qualifiedName, .record d.qualifiedName content⟩ :: rest)
      have valueRef := eval_ref (m := m) (s := ready) valueBound
      have parcelRef := eval_ref (m := m) (s := ready) bound
      have token : ready.take id (.record d.qualifiedName) =
          some (.record d.qualifiedName content, s.setParcel id rest) := by
        rw [take_eq_some (State.parcels_setParcel_self s id _),
          State.setParcel_setParcel]
      have known' :
          ready.heap[a]? = some (.data (.record d.qualifiedName old)) := known
      have called :
          Stmt.exec m (.expr (value.call "readFromParcel" [parcel.ref])) ready =
            some ((s.setParcel id rest).replace a c) := by
        simp [Stmt.exec, Variable.call, Expr.eval, Expr.evalAll, valueRef,
          parcelRef, Platform.call, known', callObject, token, c]
      have updated := Heap.updated_set s.heap a c
      refine ⟨(s.setParcel id rest).replace a c, ?_,
        filled_of_env_eq rfl ?_ ?_ rfl loaded⟩
      · rw [marker]
        change (Block.exec m [.expr (value.call "readFromParcel" [parcel.ref])]
            ready).map _ = _
        rw [Block.exec_singleton, called]
        exact congrArg some (State.leave_of_length_eq rfl)
      · refine (updated.changed known (.record _ old content)).mono ?_
        rintro b rfl
        exact ⟨rfl, Heap.isObject_of_data known⟩
      · intro _ before _
        exact .object (updated.self (List.getElem?_eq_some_iff.mp known).1) rfl

/-- A type of containers that a parcel fills by one call. -/
structure FilledByCall (d : Descriptor) (tag : Tag) (test : Datum → Bool) :
    Prop where
  list : tag.isList
  fits : ∀ {y}, d.fits y → y.isCollectionOf test
  tokens : ∀ y, d.tokens y = [⟨tag, y⟩]
  receives : ∀ {h x y}, d.Receives h x y → y = .null ∨ h.HasContainer x
  refilled : ∀ m old y, d.refilled m old y = tag.refilled m old y

theorem filledByCall_map {d : Descriptor} (map : d.strategy = .map) :
    FilledByCall d .map Datum.isEntry where
  list := rfl
  fits fits := by rw [Descriptor.fits, map] at fits; exact fits
  tokens y := by rw [Descriptor.tokens, map]
  receives receives := by
    rw [Descriptor.Receives, map] at receives; exact receives
  refilled m old y := by rw [Descriptor.refilled, map]

theorem filledByCall_list {d : Descriptor} (list : d.strategy = .list) :
    FilledByCall d .list fun _ => true where
  list := rfl
  fits fits := by rw [Descriptor.fits, list] at fits; exact fits
  tokens y := by rw [Descriptor.tokens, list]
  receives receives := by
    rw [Descriptor.Receives, list] at receives; exact receives
  refilled m old y := by rw [Descriptor.refilled, list]

def elementTest : ListElement → Datum → Bool
  | .strings => Datum.isText
  | .binders => Datum.isBinder
  | .typed creator => Datum.isMadeBy creator
  | .untyped => fun _ => true

theorem filledByCall_genericList {d : Descriptor} {arguments : TypeArguments}
    {element : ListElement}
    (list : d.strategy = .genericList arguments element) :
    FilledByCall d element.tag (elementTest element) where
  list := by cases element <;> rfl
  fits fits := by
    rw [Descriptor.fits, list] at fits
    cases element <;> exact fits
  tokens y := by rw [Descriptor.tokens, list]
  receives receives := by
    rw [Descriptor.Receives, list] at receives; exact receives
  refilled m old y := by rw [Descriptor.refilled, list]

theorem fillsWhole_call {d : Descriptor} {tag : Tag} {test : Datum → Bool}
    (filled : FilledByCall d tag test) {method : String}
    (named : ParcelMethod.ofName? method = some (.fill tag)) {es : List Expr}
    {xs : List Value}
    (evaluated : ∀ s : State,
      Loaded held s.env → Expr.evalAll m es s = some (xs, s))
    (allowed : ∀ {y : Datum}, y.isCollectionOf test → tag.readsWith xs y) :
    FillsWhole d value parcel held held m
      [.expr (parcel.call method (value.ref :: es))] := by
  intro s id x y rest bound valueBound loaded fits receives front
  rw [filled.tokens] at front
  simp only [filled.refilled]
  exact fills_call named filled.list evaluated allowed s id x y rest bound
    valueBound loaded (filled.fits fits) (filled.receives receives) front

/-- Where a call needs the class loader, it is declared before. -/
theorem exists_acquire_fills (formed : r.WellFormed) {d : Descriptor}
    {tag : Tag} {test : Datum → Bool} (filled : FilledByCall d tag test)
    {method : String} (named : ParcelMethod.ofName? method = some (.fill tag))
    (plain : Plain value) (typed : parcel.type = "android.os.Parcel")
    (held : Bool)
    (allowed : ∀ {y : Datum},
      y.isCollectionOf test → tag.readsWith [.symbol loaderText] y) :
    ∃ code,
      (acquire r >>= fun loader =>
        emit (.expr (parcel.call method [value.ref, loader.ref]))) (slot held) =
        ⟨code, slot (held || true), .ok ()⟩ ∧
      ∀ m, FillsWhole d value parcel held (held || true) m code := by
  rw [Bool.or_true]
  refine ⟨_, acquire_emit_slot formed held _, ?_⟩
  intro m
  apply fills_acquireCode plain typed
  rw [Bool.or_true]
  apply fillsWhole_call filled named ?_ allowed
  intro s loaded
  simp [Expr.evalAll, eval_ref (loaded rfl)]

theorem exists_fills_whole (formed : r.WellFormed) {h : Handle} {d : Descriptor}
    (known : r.get? h = some d) (fillable : d.strategy.isFillable)
    (plain : Plain value) (typed : parcel.type = "android.os.Parcel")
    (held : Bool) :
    ∃ code, readWhole r d value parcel (slot held) =
      ⟨code, slot (held || d.strategy.looksUpClasses), .ok ()⟩ ∧ ∀ m, FillsWhole
        d value parcel held (held || d.strategy.looksUpClasses) m code := by
  have emitted (stmt : Stmt) :
      emit stmt (slot held) = ⟨[stmt], slot (held || false), .ok ()⟩ := by
    rw [Bool.or_false]
    rfl
  unfold readWhole
  cases strategy : d.strategy with
  | parcelable =>
      refine ⟨_, emitted _, fun m => ?_⟩
      rw [show Strategy.parcelable.looksUpClasses = false from rfl,
        Bool.or_false]
      exact fillsWhole_readRecord strategy
  | map =>
      exact exists_acquire_fills formed (filledByCall_map strategy) rfl plain
        typed held fun _ => rfl
  | list =>
      exact exists_acquire_fills formed (filledByCall_list strategy) rfl plain
        typed held fun _ => rfl
  | genericList arguments element =>
      have filled := filledByCall_genericList strategy
      cases element with
      | untyped =>
          exact exists_acquire_fills formed filled rfl plain typed held
            fun _ => rfl
      | strings =>
          refine ⟨_, emitted _, fun m => ?_⟩
          rw [show (Strategy.genericList arguments .strings).looksUpClasses =
            false from rfl, Bool.or_false]
          exact fillsWhole_call filled rfl (fun _ _ => rfl) fun _ => rfl
      | binders =>
          refine ⟨_, emitted _, fun m => ?_⟩
          rw [show (Strategy.genericList arguments .binders).looksUpClasses =
            false from rfl, Bool.or_false]
          exact fillsWhole_call filled rfl (fun _ _ => rfl) fun _ => rfl
      | typed creator =>
          obtain ⟨name, rfl⟩ := formed.creator_eq known strategy
          refine ⟨_, emitted _, fun m => ?_⟩
          rw [show (Strategy.genericList arguments
              (.typed (name ++ ".CREATOR"))).looksUpClasses = false from rfl,
            Bool.or_false]
          refine fillsWhole_call filled rfl ?_ readsWith_typedList
          intro s loaded
          simp [Expr.evalAll, Expr.eval, ofLiteral_creator]
  | _ => simp [strategy, Strategy.isFillable] at fillable

theorem sizedTokens_eq (tokens : Datum → List Token)
    (shape : y = .null ∨ ∃ items, y = .collection items) :
    ∃ n : Int, sizedTokens tokens y = intToken n :: y.items.flatMap tokens ∧
      n.toNat = y.items.length := by
  rcases shape with rfl | ⟨items, rfl⟩
  · exact ⟨-1, rfl, rfl⟩
  · exact ⟨items.length, rfl, Int.toNat_natCast _⟩

theorem exec_readSizedLoop (body : Block) {x : Value}
    (typed : parcel.type = "android.os.Parcel")
    (bound : s.env.get? parcel = some (.parcel id))
    (valueBound : s.env.get? value = some x) (loaded : Loaded held s.env)
    {n : Int} {items : List Datum} (counted : n.toNat = items.length)
    {tokens : Datum → List Token}
    (front : s.parcels id = intToken n :: (items.flatMap tokens ++ rest))
    (Inv : List Datum → Heap → Prop) (start : Inv [] s.heap)
    (turn : ∀ (t : State) {done todo : List Datum} {e : Datum}
      {more : List Token},
      items = done ++ e :: todo → t.env.get? value = some x →
      t.env.get? (indexVariable value) = some (.int done.length) →
      t.env.get? parcel = some (.parcel id) →
      Loaded held t.env → Inv done t.heap → t.parcels id = tokens e ++ more →
      ∃ s', Block.exec m body t = some s' ∧
        (∃ added, s'.env = added ++ t.env) ∧ Inv (done ++ [e]) s'.heap ∧
        s'.parcels = (t.setParcel id more).parcels) :
    ∃ heap, Block.exec m [readSize value parcel, sizedLoop value body] s =
      some ⟨(sizeVariable value, some (.int n)) :: s.env, heap,
        (s.setParcel id rest).parcels⟩ ∧ Inv items heap := by
  let sized : State := (s.setParcel id (items.flatMap tokens ++ rest)).push
    (sizeVariable value) (some (.int n))
  have sizePlain : Plain (sizeVariable value) := plain_int rfl
  have indexPlain : Plain (indexVariable value) := plain_int rfl
  have read : Stmt.exec m (readSize value parcel) s = some sized := by
    simp [readSize, Stmt.exec, eval_readInt (m := m) bound front, sized]
  have sizeBound : sized.env.get? (sizeVariable value) = some (.int n) :=
    Env.get?_cons_self _ _ _
  have waiting : sized.parcels id = items.flatMap tokens ++ rest :=
    State.parcels_setParcel_self s id _
  obtain ⟨heap, looped, inv⟩ := exec_sizedLoop sizeBound counted waiting body
    Inv start (by
      intro t done todo e more split scope inv waiting
      have lookup {v : Variable} (size : sizeVariable value ≠ v)
          (index : indexVariable value ≠ v) : t.env.get? v = s.env.get? v := by
        rw [scope, Env.get?_cons_of_ne index]
        exact Env.get?_cons_of_ne size _ _
      exact turn t split ((lookup (derived_ne_owner value _ _)
          (derived_ne_owner value _ _)).trans valueBound)
        (by rw [scope, Env.get?_cons_self]) ((lookup (sizePlain.ne_parcel typed)
            (indexPlain.ne_parcel typed)).trans bound)
        (fun declared => (lookup sizePlain.ne_loader indexPlain.ne_loader).trans
          (loaded declared)) inv waiting)
  refine ⟨heap, ?_, inv⟩
  rw [Block.exec_cons_of_eq_some read, Block.exec_singleton, looped]
  refine congrArg some (congrArg (State.mk _ _) ?_)
  exact State.parcels_setParcel_of_eq s id rest rfl

theorem filled_sized {touched : Nat → Prop} {Shown : Heap → Prop} {n : Int}
    {heap : Heap} {parcels : Nat → List Token} (loaded : Loaded held s.env)
    (changed : s.heap.Changed touched heap) (shown : Shown heap)
    (taken : parcels = (s.setParcel id rest).parcels) :
    Filled held value id rest touched Shown s
      ⟨(sizeVariable value, some (.int n)) :: s.env, heap, parcels⟩ := by
  refine ⟨⟨[(sizeVariable value, some (.int n))], rfl, ?_⟩, changed, shown,
    taken, ?_⟩
  · intro entry listed
    rw [List.mem_singleton] at listed
    exact .inl (by rw [listed])
  · exact loaded_push loaded (plain_int (v := sizeVariable value) rfl).loader _

def refillContainerCode (value parcel : Variable) (code : Block) : Block :=
  [.expr (value.call "clear" []), readSize value parcel, sizedLoop value code]

theorem run_refillContainer {body : Emitter Unit} {code : Block}
    (emitted : body (slot held) = ⟨code, slot held, .ok ()⟩) :
    refillContainer value parcel body (slot held) =
      ⟨refillContainerCode value parcel code, slot held, .ok ()⟩ := by
  rw [refillContainer,
    run_bind_of_eq (c := [.expr (value.call "clear" []), readSize value parcel])
      rfl, run_nested_emit emitted]
  rfl

/-- A container is emptied and gets all elements that were written. -/
theorem fills_container {d : Descriptor} {arguments : TypeArguments}
    (generic : d.strategy = .generic arguments) {body : Emitter Unit}
    {fits : Datum → Prop} {apart : Datum → Datum → Prop}
    {tokens : Datum → List Token}
    (container : IsContainer m r d value parcel body fits apart tokens)
    (typed : parcel.type = "android.os.Parcel") {code : Block}
    (adds : Adds m value parcel held fits apart tokens code) :
    Fills value parcel held held ((r.layout d).Fits m) (r.layout d).tokens
      d.Receives (fun h x a => x = .ref a ∧ h.IsObject a) (fun h x y h' =>
          ¬ x.ByValue → ∀ old, h.Item x old → h'.Item x (d.refilled m old y))
      m (refillContainerCode value parcel code) := by
  intro s id x y rest bound valueBound loaded yFits receives front
  have inside : ∀ e ∈ y.items, fits e := by
    rcases container.fits yFits with rfl | ⟨items, rfl, fits, _⟩
    · exact fun e listed => nomatch listed
    · exact fits
  have different : y.items.Pairwise apart := by
    rcases container.fits yFits with rfl | ⟨items, rfl, _, different⟩
    · exact .nil
    · exact different
  obtain ⟨n, sized, counted⟩ := sizedTokens_eq tokens
    ((container.fits yFits).imp_right fun ⟨items, same, _⟩ => ⟨items, same⟩)
  rw [Descriptor.Receives, generic] at receives
  obtain ⟨a, old, rfl, known⟩ := receives
  rw [container.tokens, sized, List.cons_append] at front
  let cleared : State := s.replace a (.data (.collection []))
  have clear :
      Stmt.exec m (.expr (value.call "clear" [])) s = some cleared := by
    simp [Stmt.exec, Variable.call, Expr.eval, Expr.evalAll,
      eval_ref valueBound, Platform.call, known, callObject, cleared]
  have address : a < s.heap.length := (List.getElem?_eq_some_iff.mp known).1
  obtain ⟨heap, looped, updated⟩ := exec_readSizedLoop (m := m) (s := cleared)
    code typed bound valueBound loaded counted front
    (fun done h => s.heap.Updated a (.data (.collection done)) h)
    (Heap.updated_set s.heap a _) (by
      intro t done todo e more split valueBound _ parcelBound loaded
        updated waiting
      rw [split] at inside different
      obtain ⟨s', ran, added, next, taken⟩ := adds valueBound
        (updated.self address) parcelBound loaded (inside e (by simp))
        (fun o listed =>
          (List.pairwise_append.mp different).2.2 o listed e (by simp)) waiting
      exact ⟨s', ran, added, updated.trans next address, taken⟩)
  refine ⟨_,
    by rw [refillContainerCode, Block.exec_cons_of_eq_some clear, looped]; rfl,
    filled_sized loaded ?_ ?_ rfl⟩
  · refine (updated.changed known (.container _ _)).mono ?_
    rintro b rfl
    exact ⟨rfl, Heap.isObject_of_data known⟩
  · intro _ before _
    rw [Descriptor.refilled, generic]
    exact .object (updated.self address) rfl

theorem exists_getElem?_of_forall₂ {α β : Type} {R : α → β → Prop} {xs : List α}
    {ys : List β} (related : List.Forall₂ R xs ys) {i : Nat} {y : β}
    (there : ys[i]? = some y) :
    ∃ x, xs[i]? = some x ∧ R x y := by
  obtain ⟨bound, rfl⟩ := List.getElem?_eq_some_iff.mp there
  have inside : i < xs.length := related.length_eq ▸ bound
  exact ⟨xs[i], List.getElem?_eq_getElem inside,
    (List.forall₂_iff_get.mp related).2 i inside bound⟩

theorem forall₂_item_zipWith {h : Heap} {items : List Value}
    {olds ds : List Datum} {f : Datum → Datum → Datum}
    (counted : items.length = ds.length)
    (olds_length : olds.length = items.length)
    (shown : ∀ {i : Nat} {x : Value} {o e : Datum}, items[i]? = some x →
      olds[i]? = some o → ds[i]? = some e → h.Item x (f o e)) :
    List.Forall₂ h.Item items (List.zipWith f olds ds) := by
  rw [List.forall₂_iff_get]
  refine ⟨by simp [olds_length, counted], ?_⟩
  intro i inside bound
  have first : i < olds.length := by omega
  have second : i < ds.length := by omega
  simp only [List.get_eq_getElem, List.getElem_zipWith]
  exact shown (List.getElem?_eq_getElem inside) (List.getElem?_eq_getElem first)
    (List.getElem?_eq_getElem second)

/-- The lists of an array that were filled already, and those that are still as
they were. -/
structure PartlyFilled (m : Platform) (d : Descriptor) (h : Heap)
    (items : List Value) (done : List Datum) (h' : Heap) : Prop where
  changed : h.Changed (fun a => h.IsObject a ∧ .ref a ∈ items) h'
  shown : Value.Apart items →
    ∀ {olds : List Datum}, List.Forall₂ h.Item items olds →
      ∀ {i : Nat} {x : Value} {o : Datum}, items[i]? = some x →
        olds[i]? = some o → h'.Item x ((done[i]?).elim o (d.refilled m o))

theorem partlyFilled_nil (m : Platform) (d : Descriptor) (h : Heap)
    (items : List Value) :
    PartlyFilled m d h items [] h where
  changed := Heap.changed_refl _ h
  shown _ olds shown i x o here there := by
    obtain ⟨inside, rfl⟩ := List.getElem?_eq_some_iff.mp here
    obtain ⟨bound, rfl⟩ := List.getElem?_eq_some_iff.mp there
    exact (List.forall₂_iff_get.mp shown).2 i inside bound

theorem PartlyFilled.snoc {d : Descriptor} {h h' h'' : Heap}
    {items : List Value} {done : List Datum} {e : Datum} {x : Value}
    (filled : PartlyFilled m d h items done h')
    (here : items[done.length]? = some x)
    (changed : h'.Changed (fun a => x = .ref a ∧ h'.IsObject a) h'')
    (shown : ¬ x.ByValue →
      ∀ old, h'.Item x old → h''.Item x (d.refilled m old e)) :
    PartlyFilled m d h items (done ++ [e]) h'' where
  changed := by
    refine filled.changed.trans (changed.mono ?_)
    rintro a ⟨rfl, object⟩
    exact ⟨filled.changed.isObject_of_isObject object,
      List.mem_of_getElem? here⟩
  shown apart olds before i z o there old := by
    have item := filled.shown apart before there old
    by_cases last : i = done.length
    · subst last
      cases Option.some.inj (here.symm.trans there)
      rw [List.getElem?_eq_none (Nat.le_refl _)] at item
      rw [List.getElem?_concat_length]
      exact shown (apart.1 x (List.mem_of_getElem? here)) o item
    · have same : (done ++ [e])[i]? = done[i]? := by
        rw [List.getElem?_append]
        split
        · rfl
        · next beyond =>
            rw [List.getElem?_eq_none (by simp; omega),
              List.getElem?_eq_none (by omega)]
      rw [same]
      apply changed.item item
      obtain ⟨hereInside, rfl⟩ := List.getElem?_eq_some_iff.mp here
      obtain ⟨thereInside, rfl⟩ := List.getElem?_eq_some_iff.mp there
      rintro b first ⟨second, _⟩
      rcases Nat.lt_or_gt_of_ne last with less | more
      · exact List.pairwise_iff_getElem.mp apart.2 i _ thereInside hereInside
          less b first second
      · exact List.pairwise_iff_getElem.mp apart.2 _ i hereInside thereInside
          more b second first

theorem eval_index {index : Variable} {a k : Nat} {items : List Value}
    {x : Value} (bound : s.env.get? value = some (.ref a))
    (known : s.heap[a]? = some (.array items))
    (indexBound : s.env.get? index = some (.int k))
    (here : items[k]? = some x) :
    (Expr.index value.ref index.ref).eval m s = some (x, s) := by
  simp [Expr.eval, eval_ref bound, eval_ref indexBound, Heap.array?, Heap.cell?,
    known, Value.int, Value.int?, Datum.int, here]

/-- Code that reads any array of a type. -/
def FillsArray (d : Descriptor) (value parcel : Variable) (held late : Bool)
    (m : Platform) (code : Block) : Prop :=
  Fills value parcel held late (fun y => d.arrayFits y) d.arrayTokens
    d.ArrayReceives (Method.ValueType.mk d true).Touches
    (fun h x y h' => (Method.ValueType.mk d true).Apart h x →
      ∀ old, h.ArrayOf x old → h'.ArrayOf x (d.arrayRefilled m old y)) m code

def fillItemCode (value : Variable) (d : Descriptor) (code : Block) : Block :=
  .declare (itemVariable value d)
    (.index value.ref (indexVariable value).ref) :: code

theorem exec_fillItem {d : Descriptor} {late : Bool} {code : Block}
    (fills : FillsWhole d (itemVariable value d) parcel held late m code)
    (typed : parcel.type = "android.os.Parcel")
    (itemPlain : Plain (itemVariable value d)) {t : State} {h : Heap} {a : Nat}
    {items : List Value} {done : List Datum} {x : Value} {e : Datum}
    {more : List Token} (valueBound : t.env.get? value = some (.ref a))
    (indexBound : t.env.get? (indexVariable value) = some (.int done.length))
    (parcelBound : t.env.get? parcel = some (.parcel id))
    (loaded : Loaded held t.env) (known : t.heap[a]? = some (.array items))
    (here : items[done.length]? = some x) (fits : d.fits e)
    (receives : d.Receives t.heap x e)
    (waiting : t.parcels id = d.tokens e ++ more)
    (filled : PartlyFilled m d h items done t.heap) :
    ∃ s', Block.exec m (fillItemCode value d code) t = some s' ∧
      (∃ added, s'.env = added ++ t.env) ∧
      PartlyFilled m d h items (done ++ [e]) s'.heap ∧
      s'.parcels = (t.setParcel id more).parcels := by
  let inner := t.push (itemVariable value d) (some x)
  have declared : Stmt.exec m (.declare (itemVariable value d)
      (.index value.ref (indexVariable value).ref)) t = some inner := by
    simp [Stmt.exec,
      eval_index (m := m) valueBound known indexBound here, inner]
  obtain ⟨s', ran, ⟨added, scope, _⟩, changed, shown, taken, _⟩ :=
    fills inner id x e more
      ((Env.get?_cons_of_ne (itemPlain.ne_parcel typed) _ _).trans parcelBound)
      (Env.get?_cons_self _ _ _) (loaded_push loaded itemPlain.loader _) fits
      receives waiting
  refine ⟨s', ?_, ⟨added ++ [(itemVariable value d, some x)], ?_⟩,
    filled.snoc here changed shown, taken⟩
  · rw [fillItemCode, Block.exec_cons_of_eq_some declared, ran]
  · rw [scope, List.append_assoc]
    rfl

theorem fillsArray_list {d : Descriptor} {arguments : TypeArguments}
    {element : ListElement} (list : d.strategy = .genericList arguments element)
    {late : Bool} {code : Block} (typed : parcel.type = "android.os.Parcel")
    (itemPlain : Plain (itemVariable value d))
    (fills : FillsWhole d (itemVariable value d) parcel held late m code) :
    FillsArray d value parcel held held m
      [readSize value parcel, sizedLoop value (fillItemCode value d code)] := by
  intro s id x y rest bound valueBound loaded yFits receives front
  have isList : (Method.ValueType.mk d true).isListArray := by
    simp [Method.ValueType.isListArray, list]
  simp only [Descriptor.arrayFits, Descriptor.arrayTokens,
    Descriptor.ArrayReceives, list] at yFits receives front
  obtain ⟨n, sized, counted⟩ :=
    sizedTokens_eq d.tokens (eq_of_isCollectionOf yFits)
  rw [sized, List.cons_append] at front
  rcases receives with rfl | ⟨a, items, ds, rfl, known, rfl, receives⟩
  · obtain ⟨heap, looped, same⟩ := exec_readSizedLoop (m := m)
      (fillItemCode value d code) typed bound valueBound loaded counted front
      (fun _ h => h = s.heap) rfl (by
        intro t done todo e more split
        simp [Datum.items] at split)
    subst same
    refine ⟨_, looped, filled_sized loaded (Heap.changed_refl _ _) ?_ rfl⟩
    intro _ old shown
    simpa only [Descriptor.arrayRefilled, list] using shown
  · have outside : ¬ (s.heap.IsObject a ∧ .ref a ∈ items) :=
      fun both => both.1 items known
    obtain ⟨heap, looped, filled⟩ := exec_readSizedLoop (m := m)
      (fillItemCode value d code) typed bound valueBound loaded counted front
      (PartlyFilled m d s.heap items) (partlyFilled_nil m d s.heap items) (by
        intro t done todo e more split valueBound indexBound parcelBound loaded
          filled waiting
        have there : ds[done.length]? = some e := by
          rw [show ds = done ++ e :: todo from split]
          simp
        obtain ⟨x, here, fillable⟩ := exists_getElem?_of_forall₂ receives there
        have fits : d.fits e := by
          simp only [Descriptor.fits, list]
          exact List.all_eq_true.mp yFits e (List.mem_of_getElem? there)
        exact exec_fillItem fills typed itemPlain valueBound indexBound
          parcelBound loaded (filled.changed.frame known outside) here fits
          (filled.changed.receives fillable) waiting filled)
    refine ⟨_, looped, filled_sized loaded ?_ ?_ rfl⟩
    · refine filled.changed.mono fun b both => ?_
      rw [Method.ValueType.Touches, if_pos isList]
      exact ⟨both.1, a, items, rfl, known, both.2⟩
    · intro apart old shown
      cases shown with
      | @array _ others olds there elements =>
          cases Option.some.inj (known.symm.trans there)
          simp only [Descriptor.arrayRefilled, list]
          refine .array (filled.changed.frame known outside)
            (forall₂_item_zipWith receives.length_eq elements.length_eq.symm ?_)
          intro i x o e here old new
          have item := filled.shown (apart isList rfl known) elements here old
          rwa [show Datum.items (.collection ds) = ds from rfl, new] at item

theorem fills_wholeArray {method : String} {tag : Tag} {test : Datum → Bool}
    {es : List Expr} {xs : List Value}
    (named : ParcelMethod.ofName? method = some (.fill tag))
    (array : tag.isArray)
    (evaluated : ∀ s : State, Expr.evalAll m es s = some (xs, s))
    (allowed : ∀ {y : Datum}, y.isCollectionOf test → tag.readsWith xs y) :
    Fills value parcel held held (fun y => y.isCollectionOf test)
      (fun y => [⟨tag, y⟩]) Heap.HasRoom (fun _ x a => x = .ref a)
      (fun h x y h' => ∀ old, h.ArrayOf x old → h'.ArrayOf x y) m
      [.expr (parcel.call method (value.ref :: es))] := by
  intro s id x y rest bound valueBound loaded fits receives front
  have called := eval_fill (m := m) bound valueBound named (evaluated s)
  rw [Block.exec_singleton, Stmt.exec, called]
  rcases receives with ⟨rfl, rfl⟩ | ⟨a, items, ds, rfl, known, rfl, lengths⟩
  · refine ⟨s.setParcel id rest, ?_,
      filled_of_env_eq rfl (Heap.changed_refl _ _) ?_ rfl loaded⟩
    · rw [fill_null front (allowed fits) rfl fun _ => rfl]
      rfl
    · exact fun _ _ => .null
  · let c : Cell := .array (ds.map .data)
    have filled :
        State.filled m tag (.array items) (.collection ds) = some c := by
      simp [State.filled, array, lengths, c]
    have updated := Heap.updated_set s.heap a c
    refine ⟨(s.setParcel id rest).replace a c, ?_,
      filled_of_env_eq rfl ?_ ?_ rfl loaded⟩
    · rw [fill_ref front (allowed fits) known filled]
      rfl
    · exact (updated.changed known (.array (by simpa using lengths))).mono
        fun b same => congrArg Value.ref same.symm
    · exact fun _ _ =>
        .array (updated.self (List.getElem?_eq_some_iff.mp known).1)
          (Heap.forall₂_item_map_data _ ds)

theorem ofName?_readArrayMethod (p : Primitive) :
    ParcelMethod.ofName? p.readArrayMethod = some (.fill (.array p)) := by
  cases p <;> rfl

theorem fillsArray_call {d : Descriptor} (tag : Tag) (test : Datum → Bool)
    (other : ∀ arguments element, d.strategy ≠ .genericList arguments element)
    (fits : ∀ y, d.arrayFits y = y.isCollectionOf test)
    (tokens : ∀ y, d.arrayTokens y = [⟨tag, y⟩]) (array : tag.isArray)
    {method : String} (named : ParcelMethod.ofName? method = some (.fill tag))
    {es : List Expr} {xs : List Value}
    (evaluated : ∀ s : State, Expr.evalAll m es s = some (xs, s))
    (allowed : ∀ {y : Datum}, y.isCollectionOf test → tag.readsWith xs y) :
    FillsArray d value parcel held held m
      [.expr (parcel.call method (value.ref :: es))] := by
  intro s id x y rest bound valueBound loaded yFits receives front
  have single := Descriptor.isListArray_of_ne other
  rw [tokens] at front
  obtain ⟨s', ran, scope, heap, shown, taken, late⟩ :=
    fills_wholeArray named array evaluated allowed s id x y rest bound
      valueBound loaded ((fits y).symm.trans yFits)
      (Descriptor.hasRoom_of_arrayReceives other receives) front
  refine ⟨s', ran, scope, heap.mono fun a same => ?_, ?_, taken, late⟩
  · simpa [Method.ValueType.Touches, single] using same
  · intro _ old before
    rw [Descriptor.arrayRefilled_of_ne other]
    exact shown old before

/-- Where the class loader is declared if it is needed, the body of the loop
declares no other. -/
theorem exists_refillArray (formed : r.WellFormed) {h : Handle} {d : Descriptor}
    (known : r.get? h = some d) {arguments : TypeArguments}
    {element : ListElement} (list : d.strategy = .genericList arguments element)
    (itemPlain : Plain (itemVariable value d))
    (typed : parcel.type = "android.os.Parcel") (held : Bool) :
    ∃ code, refillArray r d value parcel (slot (held || r.needsClassLoader d)) =
      ⟨fillItemCode value d code, slot (held || r.needsClassLoader d), .ok ()⟩ ∧
      ∀ m, FillsWhole d (itemVariable value d) parcel (held ||
          r.needsClassLoader d) (held || r.needsClassLoader d) m code := by
  have whole : d.strategy.isWhole := by rw [list]; rfl
  have fillable : d.strategy.isFillable := by rw [list]; rfl
  rw [needsClassLoader_of_isWhole (r := r) whole]
  obtain ⟨code, emitted, fills⟩ :=
    exists_fills_whole formed known fillable itemPlain typed (held ||
      d.strategy.looksUpClasses)
  rw [Bool.or_assoc, Bool.or_self] at emitted fills
  refine ⟨code, ?_, fills⟩
  rw [refillArray, run_bind_of_eq (run_emit _ _), read,
    if_pos (formed.canBeOut_of_genericList known list),
    Registry.layout_of_isWhole r whole]
  simp only [Layout.read, emitted]
  rfl

theorem exists_fills_array (formed : r.WellFormed) {h : Handle} {d : Descriptor}
    (known : r.get? h = some d) (array : d.canBeArray) (plain : Plain value)
    (typed : parcel.type = "android.os.Parcel") (held : Bool) :
    ∃ code late,
      readArray r d value parcel (slot held) = ⟨code, slot late, .ok ()⟩ ∧
      ∀ m, FillsArray d value parcel held late m code := by
  unfold readArray
  cases d.strategy_of_canBeArray array with
  | primitive p strategy =>
      simp only [strategy]
      exact ⟨_, held, rfl, fun m =>
        fillsArray_call (.array p) (Datum.isPrimitive p) (by simp [strategy])
          (fun y => by rw [Descriptor.arrayFits, strategy]; rfl)
          (fun y => by rw [Descriptor.arrayTokens, strategy]) rfl
          (ofName?_readArrayMethod p) (fun _ => rfl) fun _ => rfl⟩
  | string strategy =>
      simp only [strategy]
      exact ⟨_, held, rfl, fun m =>
        fillsArray_call .stringArray Datum.isText (by simp [strategy])
          (fun y => by rw [Descriptor.arrayFits, strategy]; rfl)
          (fun y => by rw [Descriptor.arrayTokens, strategy]) rfl rfl
          (fun _ => rfl) fun _ => rfl⟩
  | binder strategy =>
      simp only [strategy]
      exact ⟨_, held, rfl, fun m =>
        fillsArray_call .binderArray Datum.isBinder (by simp [strategy])
          (fun y => by rw [Descriptor.arrayFits, strategy]; rfl)
          (fun y => by rw [Descriptor.arrayTokens, strategy]) rfl rfl
          (fun _ => rfl) fun _ => rfl⟩
  | record strategy =>
      simp only [strategy]
      exact ⟨_, held, rfl, fun m =>
        fillsArray_call .typedArray (Datum.isMadeBy d.recordCreator)
          (by simp [strategy]) (fun y => by rw [Descriptor.arrayFits, strategy])
          (fun y => by rw [Descriptor.arrayTokens, strategy]) rfl rfl
          (fun s => by simp [Expr.evalAll, eval_creatorExpr])
          readsWith_typedArray⟩
  | list arguments element strategy =>
      have itemPlain : Plain (itemVariable value d) :=
        plain_of_qualifiedName formed known
          (ne_helper_of_isWhole (by rw [strategy]; rfl)) rfl
      obtain ⟨code, emitted, fills⟩ :=
        exists_refillArray formed known strategy itemPlain typed held
      have ran :
          (emit (readSize value parcel) >>= fun _ =>
            nested (refillArray r d value parcel) >>= fun code => emit
              (sizedLoop value code)) (slot (held || r.needsClassLoader d)) =
            ⟨[readSize value parcel,
              sizedLoop value (fillItemCode value d code)],
              slot (held || r.needsClassLoader d), .ok ()⟩ := by
        rw [run_bind_of_eq (run_emit _ _), run_nested_emit emitted]
        rfl
      simp only [strategy]
      exact ⟨_, _, run_acquireIf formed ran, fun m =>
        fills_acquireCode plain typed
          (fillsArray_list strategy typed itemPlain (fills m))⟩

theorem exists_fills (formed : r.WellFormed) (m : Platform) {h : Handle}
    {d : Descriptor} (known : r.get? h = some d) (carried : r.Carried d)
    (fit : d.canBeOut) (plain : Plain value)
    (typed : parcel.type = "android.os.Parcel") (held : Bool) :
    ∃ code late, read r d value parcel (slot held) = ⟨code, slot late, .ok ()⟩ ∧
      Fills value parcel held late ((r.layout d).Fits m) (r.layout d).tokens
        d.Receives (fun h x a => x = .ref a ∧ h.IsObject a)
        (fun h x y h' => ¬ x.ByValue →
          ∀ old, h.Item x old → h'.Item x (d.refilled m old y)) m code := by
  rw [read, if_pos fit]
  have container {arguments : TypeArguments}
      (generic : d.strategy = .generic arguments) : ∃ code late,
        (r.layout d).read r parcel value (slot held) =
          ⟨code, slot late, .ok ()⟩ ∧
        Fills value parcel held late ((r.layout d).Fits m) (r.layout d).tokens
          d.Receives (fun h x a => x = .ref a ∧ h.IsObject a)
          (fun h x y h' => ¬ x.ByValue →
            ∀ old, h.Item x old → h'.Item x (d.refilled m old y)) m code := by
    obtain ⟨body, fits, apart, tokens, container⟩ :=
      exists_isContainer m formed carried generic typed plain
    obtain ⟨code, emitted, adds⟩ :=
      container.adds (held || r.needsClassLoader d) (by simp_all)
    refine ⟨_, _, ?_, fills_acquireCode plain typed
      (fills_container generic container typed adds)⟩
    rw [container.read]
    exact run_acquireIf formed (run_refillContainer emitted)
  cases carried with
  | whole whole =>
      obtain ⟨code, emitted, fills⟩ := exists_fills_whole formed known
        (formed.isFillable_of_canBeOut known whole fit) plain typed held
      rw [Registry.layout_of_isWhole r whole]
      exact ⟨code, _, emitted, fills m⟩
  | elements generic => exact container generic
  | entries generic => exact container generic

end BinderIdl.Parcel

namespace BinderIdl.Method

open Java BinderIdl.Types Document Parcel

variable {r : Registry} {t : ValueType} {value parcel : Variable}

theorem ValueType.Sound.exists_fills (sound : t.Sound r) (formed : r.WellFormed)
    (m : Platform) (fit : canReadInto t.descriptor t.isArray)
    (plain : Plain value) (typed : parcel.type = "android.os.Parcel")
    (held : Bool) :
    ∃ code late, t.read r value parcel (slot held) = ⟨code, slot late, .ok ()⟩ ∧
      Fills value parcel held late (t.Fits m r) (t.tokens r) t.Receives
        t.Touches (fun h x y h' => t.Apart h x → ∀ old, t.Shows h x old →
            t.Shows h' x (t.refilled m old y)) m code := by
  obtain ⟨h, known⟩ := sound.known
  obtain ⟨d, isArray⟩ := t
  unfold ValueType.read
  cases isArray with
  | true =>
      obtain ⟨code, late, emitted, fills⟩ :=
        exists_fills_array formed known (sound.array rfl) plain typed held
      exact ⟨code, late, emitted, fills m⟩
  | false =>
      obtain ⟨code, late, emitted, fills⟩ :=
        Parcel.exists_fills formed m known sound.carried fit plain typed held
      refine ⟨code, late, emitted, ?_⟩
      intro s id x y rest bound valueBound loaded fits receives front
      obtain ⟨s', ran, scope, heap, shown, taken, after⟩ :=
        fills s id x y rest bound valueBound loaded fits receives front
      refine ⟨s', ran, scope, heap.mono fun a touched => ?_, shown,
        taken, after⟩
      simpa [Touches, isListArray] using touched

end BinderIdl.Method
