import BinderIdl.Proofs.Method.Generation
import BinderIdl.Proofs.Parcel.Scope

namespace BinderIdl.Parcel

open Java BinderIdl.Types

variable {m : Platform} {r : Registry} {s : State} {value parcel : Variable}
  {id : Nat}
variable {flags : WriteFlags}

theorem exists_eval_flagsExpr (m : Platform) {e : Expr}
    (flagged : flagsExpr r flags = .ok e) :
    ∃ y, ∀ s, e.eval m s = some (y, s) := by
  unfold flagsExpr at flagged
  split at flagged
  · obtain ⟨owner, _, done⟩ := bind_eq_ok_iff.mp flagged
    cases done
    exact ⟨_, fun s => rfl⟩
  · cases flagged
    exact ⟨_, fun s => rfl⟩

theorem ofName?_writeMethod {p : Primitive} (direct : p.carrier = .direct) :
    ParcelMethod.ofName? p.writeMethod = some (.write (.scalar p)) := by
  cases p <;> first | rfl | cases direct

theorem exec_writePrimitive (bound : s.env.get? parcel = some (.parcel id))
    {p : Primitive} {x : Value} (valueBound : s.env.get? value = some x)
    {d : Datum} (item : s.heap.Item x d) (fits : d.isPrimitive p) :
    Stmt.exec m (.expr (parcel.call p.writeMethod [carry p value])) s =
      some (s.append id (p.tokens d)) := by
  have evaluated := eval_ref (m := m) valueBound
  cases carrier : p.carrier with
  | direct =>
      have admitted : Tag.admits (.scalar p) d := by
        cases p <;> first | exact fits | cases carrier
      have tokens : p.tokens d = [⟨.scalar p, d⟩] := by
        cases p <;> first | rfl | cases carrier
      rw [carry, carrier, tokens]
      exact exec_write bound (ofName?_writeMethod carrier) evaluated item.datum?
        admitted
  | boolAsInt =>
      have boolean : p = .boolean := by cases p <;> first | rfl | cases carrier
      subst boolean
      obtain ⟨b, rfl⟩ := Datum.eq_truth_of_isPrimitive fits
      rw [item.eq_data rfl] at evaluated
      apply exec_writeInt bound
      cases b <;> simp [carry, carrier, Expr.eval, evaluated, Value.truth?]
  | charAsInt =>
      have char : p = .char := by cases p <;> first | rfl | cases carrier
      subst char
      obtain ⟨c, rfl⟩ := Datum.eq_character_of_isPrimitive fits
      rw [item.eq_data rfl] at evaluated
      apply exec_writeInt bound
      simp [carry, carrier, Expr.eval, evaluated, Value.cast]

theorem exec_writeException (bound : s.env.get? parcel = some (.parcel id))
    {x : Value} (valueBound : s.env.get? value = some x) {d : Datum}
    (item : s.heap.Item x d) (fits : d.isException) :
    Stmt.exec m (.expr (parcel.call "writeException" [value.ref])) s =
      some (s.append id (exceptionTokens d)) := by
  have arguments : Expr.evalAll m [value.ref] s = some ([x], s) := by
    simp [Expr.evalAll, eval_ref valueBound]
  rw [Stmt.exec, eval_call_parcel bound (c := .writeException) rfl arguments]
  simp only [ParcelMethod.run, item.item?]
  rcases Datum.eq_of_isException fits with rfl | ⟨code, message, rfl, _⟩ <;> rfl

theorem exec_writeStrongInterface
    (bound : s.env.get? parcel = some (.parcel id)) {x : Value}
    (valueBound : s.env.get? value = some x) {d : Datum}
    (item : s.heap.Item x d) (fits : d.isInterface) :
    Stmt.exec m (.expr (parcel.call "writeStrongInterface" [value.ref])) s =
      some (s.append id [⟨.binder, d.asBinder⟩]) := by
  have arguments : Expr.evalAll m [value.ref] s = some ([x], s) := by
    simp [Expr.evalAll, eval_ref valueBound]
  rw [Stmt.exec, eval_call_parcel bound (c := .writeInterface) rfl arguments]
  rcases Datum.eq_of_isInterface fits with rfl | ⟨identity, descriptor, rfl⟩
  · rw [item.eq_data rfl]
    rfl
  · rw [item.eq_data rfl]
    rfl

theorem eval_asBinder {x : Value} (valueBound : s.env.get? value = some x)
    {d : Datum} (item : s.heap.Item x d) (fits : d.isInterface) :
    (asBinder value).eval m s = some (.data d.asBinder, s) := by
  have condition := eval_isNotNull (m := m) valueBound
  rw [item.isNull] at condition
  have evaluated := eval_ref (m := m) valueBound
  rcases Datum.eq_of_isInterface fits with rfl | ⟨identity, descriptor, rfl⟩
  · simp [asBinder, Expr.eval, condition, Datum.isNull, Value.truth?,
      Datum.asBinder, Value.null]
  · rw [item.eq_data rfl] at evaluated
    simp [asBinder, Expr.eval, condition, Datum.isNull, Value.truth?,
      Variable.call, evaluated, Expr.evalAll, Platform.call, callDatum,
      Datum.asBinder]

theorem tag_admits_of_fits {element : ListElement} {d : Datum}
    (fits : element.fits d) :
    element.tag.admits d := by
  cases element with
  | typed creator =>
      cases d with
      | null => rfl
      | collection items =>
          simp only [ListElement.fits, Datum.isCollectionOf,
            List.all_eq_true] at fits
          simp only [ListElement.tag, Tag.admits, Datum.isCollectionOf,
            List.all_eq_true]
          intro item listed
          have made := fits item listed
          cases item <;> first | rfl | cases made
      | _ => cases fits
  | _ => exact fits

theorem ofName?_listWriteMethod (element : ListElement) :
    ParcelMethod.ofName? (listWriteMethod element) =
      some (.write element.tag) := by
  cases element <;> rfl

theorem exec_writeCharSequence (formed : r.WellFormed) {code : Block}
    (emitted : writeCharSequence r value parcel flags = .ok code)
    (bound : s.env.get? parcel = some (.parcel id)) {x : Value}
    (valueBound : s.env.get? value = some x) {y : Datum}
    (item : s.heap.Item x y) (fits : y.isCharSequence) :
    Block.exec m code s =
      some (s.append id (markedTokens .charSequence y)) := by
  obtain ⟨e, flagged⟩ := exists_flagsExpr formed flags
  obtain ⟨z, evaluated⟩ := exists_eval_flagsExpr m flagged
  simp only [writeCharSequence, formed.require_builtIn (h := .textUtils) rfl,
    flagged, bind, Except.bind, pure, Except.pure, Except.ok.injEq] at emitted
  subst emitted
  rw [Block.exec_singleton]
  cases y with
  | null => exact exec_writeMarked_of_isNull bound valueBound item.isNull
  | charSequence content =>
      apply exec_writeMarked bound valueBound item.isNull (y := .null)
      have valueRef :=
        eval_ref (m := m) (s := s.append id [intToken 1]) valueBound
      have parcelRef := eval_ref (m := m) (s := s.append id [intToken 1]) bound
      simp [Expr.eval, Expr.evalAll, valueRef, parcelRef, evaluated,
        Platform.call, callSymbol, item.item?]
      rfl
  | _ => cases fits

theorem exec_writeRecord {d : Descriptor} {code : Block}
    (emitted : writeRecord r value parcel flags = .ok code)
    (bound : s.env.get? parcel = some (.parcel id)) {x : Value}
    (valueBound : s.env.get? value = some x) {y : Datum}
    (item : s.heap.Item x y) (fits : y.isMadeBy d.recordCreator) :
    Block.exec m code s =
      some (s.append id (markedTokens (.record d.qualifiedName) y)) := by
  obtain ⟨e, flagged, done⟩ := bind_eq_ok_iff.mp emitted
  obtain ⟨z, evaluated⟩ := exists_eval_flagsExpr m flagged
  cases done
  rw [Block.exec_singleton]
  rcases Datum.eq_of_isMadeBy fits with rfl | ⟨content, rfl⟩
  · exact exec_writeMarked_of_isNull bound valueBound item.isNull
  · apply exec_writeMarked bound valueBound item.isNull (y := .null)
    have valueRef :=
      eval_ref (m := m) (s := s.append id [intToken 1]) valueBound
    have parcelRef := eval_ref (m := m) (s := s.append id [intToken 1]) bound
    have called := call_item (m := m) (s := s.append id [intToken 1]) item
      "writeToParcel" [.parcel id, z] (fun a => by simp [callObject])
    simp [Variable.call, Expr.eval, Expr.evalAll, valueRef, parcelRef,
      evaluated, called, callDatum]

theorem exec_of_emitted {stmt : Stmt} {code : Block} {s' : State}
    (emitted : (.ok [stmt] : Except MarshalError Block) = .ok code)
    (ran : stmt.exec m s = some s') :
    Block.exec m code s = some s' := by
  cases emitted
  rw [Block.exec_singleton]
  exact ran

theorem exec_writeWhole (formed : r.WellFormed) {d : Descriptor} {code : Block}
    (emitted : writeWhole r d value parcel flags = .ok code)
    (bound : s.env.get? parcel = some (.parcel id)) {x : Value}
    (valueBound : s.env.get? value = some x) {y : Datum}
    (item : s.heap.Item x y) (fits : d.fits y) :
    Block.exec m code s = some (s.append id (d.tokens y)) := by
  have evaluated := eval_ref (m := m) valueBound
  have datum := item.datum?
  unfold writeWhole at emitted
  unfold Descriptor.fits at fits
  unfold Descriptor.tokens
  cases strategy : d.strategy with
  | primitive p =>
      simp only [strategy] at emitted fits ⊢
      exact exec_of_emitted emitted
        (exec_writePrimitive bound valueBound item fits)
  | string =>
      simp only [strategy] at emitted fits ⊢
      exact exec_of_emitted emitted (exec_write bound rfl evaluated datum fits)
  | exception kind =>
      simp only [strategy] at emitted fits ⊢
      exact exec_of_emitted emitted
        (exec_writeException bound valueBound item fits)
  | map =>
      simp only [strategy] at emitted fits ⊢
      exact exec_of_emitted emitted (exec_write bound rfl evaluated datum fits)
  | list =>
      simp only [strategy] at emitted fits ⊢
      exact exec_of_emitted emitted (exec_write bound rfl evaluated datum fits)
  | genericList arguments element =>
      simp only [strategy] at emitted fits ⊢
      exact exec_of_emitted emitted
        (exec_write bound (ofName?_listWriteMethod element) evaluated datum
          (tag_admits_of_fits fits))
  | interface oneway =>
      simp only [strategy] at emitted fits ⊢
      have isInterface := Datum.isInterface_of_isInterfaceOf fits
      exact exec_of_emitted emitted
        (exec_write bound rfl (eval_asBinder valueBound item isInterface)
          (Heap.Item.data _).datum? (Datum.isBinder_asBinder isInterface))
  | binder kind =>
      simp only [strategy] at emitted fits ⊢
      apply exec_of_emitted emitted
      cases kind with
      | interface => exact exec_writeStrongInterface bound valueBound item fits
      | handle =>
          rw [Datum.asBinder_of_isBinder fits]
          exact exec_write bound rfl evaluated datum fits
      | native =>
          rw [Datum.asBinder_of_isBinder fits]
          exact exec_write bound rfl evaluated datum fits
      | proxy =>
          rw [Datum.asBinder_of_isBinder fits]
          exact exec_write bound rfl evaluated datum fits
  | charSequence =>
      simp only [strategy] at emitted fits ⊢
      exact exec_writeCharSequence formed emitted bound valueBound item fits
  | parcelable =>
      simp only [strategy] at emitted fits ⊢
      exact exec_writeRecord emitted bound valueBound item fits
  | void => simp [strategy] at fits
  | helper => simp [strategy] at fits
  | generic arguments => simp [strategy] at fits

theorem eval_size {x : Value} (valueBound : s.env.get? value = some x)
    {items : List Datum} (item : s.heap.Item x (.collection items)) :
    (value.call "size" []).eval m s = some (.int items.length, s) := by
  have called := call_item (m := m) item "size" []
    (fun a => by simp [callObject])
  simp [Variable.call, Expr.eval, Expr.evalAll, eval_ref valueBound, called,
    callDatum]

theorem eval_entrySet {x : Value} (valueBound : s.env.get? value = some x)
    {items : List Datum} (item : s.heap.Item x (.collection items)) :
    (value.call "entrySet" []).eval m s =
      some (.data (.collection items), s) := by
  have called := call_item (m := m) item "entrySet" []
    (fun a => by simp [callObject])
  simp [Variable.call, Expr.eval, Expr.evalAll, eval_ref valueBound, called,
    callDatum]

theorem itemVariable_ne_parcel (formed : r.WellFormed) {h : Handle}
    {element : Descriptor} (known : r.get? h = some element)
    (whole : element.strategy.isWhole)
    (typed : parcel.type = "android.os.Parcel") (owner : Variable)
    (suffix : String) :
    owner.derived element.qualifiedName suffix ≠ parcel := by
  intro same
  have other : element.strategy ≠ .helper := by
    intro helper
    simp [helper, Strategy.isWhole] at whole
  apply formed.qualifiedName_ne_helper known other (k := .parcel) rfl rfl
  rw [show element.qualifiedName =
    parcel.type from congrArg Variable.type same, typed]
  rfl

theorem exec_writeItems (formed : r.WellFormed) {h : Handle}
    {element : Descriptor} (known : r.get? h = some element)
    (whole : element.strategy.isWhole) {body : Block}
    (emitted : writeWhole r element (itemVariable value element) parcel flags =
      .ok body)
    (typed : parcel.type = "android.os.Parcel")
    (bound : s.env.get? parcel = some (.parcel id)) {x : Value}
    (valueBound : s.env.get? value = some x) (notNull : x.isNull = false)
    {size : Expr} {zs : List Value} {items : List Datum}
    (counted : size.eval m s = some (.int items.length, s))
    (elements : s.heap.elements? x = some zs)
    (shown : List.Forall₂ s.heap.Item zs items)
    (fits : ∀ i ∈ items, element.fits i) :
    Stmt.exec m (writeSized value parcel size
        [.forEach (itemVariable value element) value.ref body]) s =
      some (s.append id (sizedTokens element.tokens (.collection items))) := by
  have apart := itemVariable_ne_parcel formed known whole typed value "item"
  apply exec_writeSized bound valueBound notNull counted
  rw [Block.exec_singleton]
  apply exec_forEach (s := s.append id [intToken items.length])
    (eval_ref valueBound) elements shown element.tokens
  intro z d item listed before
  refine ⟨[], exec_writeWhole formed emitted ?_ (Env.get?_cons_self _ _ _) item
    (fits d listed)⟩
  exact (Env.get?_cons_of_ne apart _ _).trans bound

theorem exec_writeElements (formed : r.WellFormed) {h : Handle}
    {element : Descriptor} (known : r.get? h = some element)
    (whole : element.strategy.isWhole) {body : Block}
    (emitted : writeWhole r element (itemVariable value element) parcel flags =
      .ok body)
    (typed : parcel.type = "android.os.Parcel")
    (bound : s.env.get? parcel = some (.parcel id)) {x : Value}
    (valueBound : s.env.get? value = some x) {y : Datum}
    (item : s.heap.Item x y)
    (fits : y = .null ∨
      ∃ items, y = .collection items ∧ ∀ i ∈ items, element.fits i) :
    Stmt.exec m (writeSized value parcel (value.call "size" [])
        [.forEach (itemVariable value element) value.ref body]) s =
      some (s.append id (sizedTokens element.tokens y)) := by
  rcases fits with rfl | ⟨items, rfl, fits⟩
  · exact exec_writeSized_of_isNull bound valueBound item.isNull _ _
  · exact exec_writeItems formed known whole emitted typed bound valueBound
      item.isNull (eval_size valueBound item) item.elements?
      (Heap.forall₂_item_map_data _ items) fits

theorem entryVariable_ne_parcel (typed : parcel.type = "android.os.Parcel")
    (owner : Variable) (d : Descriptor) : entryVariable owner d ≠ parcel := by
  intro same
  have types :
      "java.util.Map.Entry" ++ d.argumentText = "android.os.Parcel" := by
    rw [← typed, ← same]
    rfl
  have first := congrArg (fun text => text.toList.head?) types
  simp at first

theorem exec_declareEntry {d key val : Descriptor} {a b : Datum}
    (bound : s.env.get? (entryVariable value d) =
      some (.data (Datum.ofPair (a, b))))
    (code : Block) :
    Block.exec m
      (.declare (entryKeyVariable value key)
        ((entryVariable value d).call "getKey" []) ::
        .declare (entryValueVariable value val)
          ((entryVariable value d).call "getValue" []) :: code) s = Block.exec m
            code ((s.push (entryKeyVariable value key) (some (.data a))).push
              (entryValueVariable value val) (some (.data b))) := by
  have keyNotEntry : entryKeyVariable value key ≠ entryVariable value d :=
    derived_ne_derived value _ _ (by decide)
  let withKey := s.push (entryKeyVariable value key) (some (.data a))
  have getKey : Stmt.exec m (.declare (entryKeyVariable value key)
      ((entryVariable value d).call "getKey" [])) s = some withKey := by
    simp [Stmt.exec, Variable.call, Expr.eval, Expr.evalAll, eval_ref bound,
      Platform.call, callDatum, Datum.ofPair, withKey]
  have getValue : Stmt.exec m (.declare (entryValueVariable value val)
      ((entryVariable value d).call "getValue" [])) withKey =
      some (withKey.push (entryValueVariable value val) (some (.data b))) := by
    have entryRef := eval_ref (m := m) (s := withKey)
      ((Env.get?_cons_of_ne keyNotEntry _ _).trans bound)
    simp [Stmt.exec, Variable.call, Expr.eval, Expr.evalAll, entryRef,
      Platform.call, callDatum, Datum.ofPair]
  rw [Block.exec_cons_of_eq_some getKey, Block.exec_cons_of_eq_some getValue]

/-- Writing a map entry by entry, the key before the value. -/
theorem exec_writeEntries (formed : r.WellFormed) {d key val : Descriptor}
    {h k : Handle} (keyKnown : r.get? h = some key)
    (keyWhole : key.strategy.isWhole) (valKnown : r.get? k = some val)
    (valWhole : val.strategy.isWhole) {keyCode valCode : Block}
    (keyEmitted : writeWhole r key (entryKeyVariable value key) parcel flags =
      .ok keyCode)
    (valEmitted : writeWhole r val (entryValueVariable value val) parcel flags =
      .ok valCode)
    (typed : parcel.type = "android.os.Parcel")
    (bound : s.env.get? parcel = some (.parcel id)) {x : Value}
    (valueBound : s.env.get? value = some x) {y : Datum}
    (item : s.heap.Item x y)
    (fits : y = .null ∨
      ∃ pairs : List (Datum × Datum), y = .collection (pairs.map Datum.ofPair) ∧
        ∀ pair ∈ pairs, key.fits pair.1 ∧ val.fits pair.2) :
    Stmt.exec m
      (writeSized value parcel (value.call "size" [])
        [.forEach (entryVariable value d) (value.call "entrySet" [])
          (.declare (entryKeyVariable value key) ((entryVariable value d).call
              "getKey" []) :: .declare (entryValueVariable value val)
                ((entryVariable value d).call "getValue" []) ::
            (keyCode ++ valCode))]) s =
      some (s.append id
        (sizedTokens (entryTokens key.tokens val.tokens) y)) := by
  rcases fits with rfl | ⟨pairs, rfl, fits⟩
  · exact exec_writeSized_of_isNull bound valueBound item.isNull _ _
  · apply exec_writeSized bound valueBound item.isNull
      (eval_size valueBound item)
    rw [Block.exec_singleton]
    let sized := s.append id [intToken (pairs.map Datum.ofPair).length]
    apply exec_forEach (eval_entrySet (s := sized) valueBound item)
      (Heap.Item.data (h := sized.heap) _).elements?
      (Heap.forall₂_item_map_data _ _) (entryTokens key.tokens val.tokens)
    intro z d shown listed before
    obtain ⟨⟨k, v⟩, pairListed, rfl⟩ := List.mem_map.mp listed
    obtain ⟨keyFits, valFits⟩ := fits _ pairListed
    cases shown.eq_data rfl
    have keyApart :=
      itemVariable_ne_parcel formed keyKnown keyWhole typed value "key"
    have valApart :=
      itemVariable_ne_parcel formed valKnown valWhole typed value "value"
    have entryApart := entryVariable_ne_parcel typed value d
    have valNotKey :
        entryValueVariable value val ≠ entryKeyVariable value key :=
      derived_ne_derived value _ _ (by decide)
    let inner := (sized.append id before).push (entryVariable value d)
      (some (.data (Datum.ofPair (k, v))))
    let declared :=
      (inner.push (entryKeyVariable value key) (some (.data k))).push
        (entryValueVariable value val) (some (.data v))
    have parcelBound : declared.env.get? parcel = some (.parcel id) := by
      refine (Env.get?_cons_of_ne valApart _ _).trans ?_
      refine (Env.get?_cons_of_ne keyApart _ _).trans ?_
      exact (Env.get?_cons_of_ne entryApart _ _).trans bound
    have keyBound :
        declared.env.get? (entryKeyVariable value key) = some (.data k) :=
      (Env.get?_cons_of_ne valNotKey _ _).trans (Env.get?_cons_self _ _ _)
    have keyWritten := exec_writeWhole (m := m) formed keyEmitted parcelBound
      keyBound (.data k) keyFits
    have valWritten :=
      exec_writeWhole (m := m) (s := declared.append id (key.tokens k)) formed
        valEmitted parcelBound (Env.get?_cons_self _ _ _) (.data v) valFits
    refine ⟨[(entryValueVariable value val, some (.data v)),
      (entryKeyVariable value key, some (.data k))], ?_⟩
    rw [exec_declareEntry (s := inner) (Env.get?_cons_self _ _ _),
      Block.exec_append_of_eq_some keyWritten, valWritten, State.append_append]
    rfl

theorem ofName?_writeArrayMethod (p : Primitive) :
    ParcelMethod.ofName? p.writeArrayMethod = some (.write (.array p)) := by
  cases p <;> rfl

theorem admits_of_isMadeBy {creator : String} {y : Datum}
    (fits : y.isCollectionOf (Datum.isMadeBy creator)) :
    Tag.typedArray.admits y :=
  tag_admits_of_fits (show (ListElement.typed creator).fits y from fits)

theorem exec_writeTypedArray (bound : s.env.get? parcel = some (.parcel id))
    {x : Value} (valueBound : s.env.get? value = some x) {y : Datum}
    (array : s.heap.ArrayOf x y) {creator : String}
    (fits : y.isCollectionOf (Datum.isMadeBy creator)) {e : Expr}
    (flagged : flagsExpr r flags = .ok e) :
    Stmt.exec m (.expr (parcel.call "writeTypedArray" [value.ref, e])) s =
      some (s.append id [⟨.typedArray, y⟩]) := by
  obtain ⟨z, evaluated⟩ := exists_eval_flagsExpr m flagged
  have arguments : Expr.evalAll m [value.ref, e] s = some ([x, z], s) := by
    simp [Expr.evalAll, eval_ref valueBound, evaluated]
  rw [Stmt.exec, eval_call_parcel bound (c := .write .typedArray) rfl arguments]
  simp [ParcelMethod.run, write_eq_some array.datum? (admits_of_isMadeBy fits)]

theorem eval_length {a : Nat} {items : List Value}
    (valueBound : s.env.get? value = some (.ref a))
    (known : s.heap[a]? = some (.array items)) :
    (Expr.field value.ref "length").eval m s = some (.int items.length, s) := by
  simp [Expr.eval, eval_ref valueBound, Value.field?, Heap.array?,
    Heap.cell?, known]

theorem exec_writeArray (formed : r.WellFormed) {h : Handle} {d : Descriptor}
    (known : r.get? h = some d) {code : Block}
    (emitted : writeArray r d value parcel flags = .ok code)
    (typed : parcel.type = "android.os.Parcel")
    (bound : s.env.get? parcel = some (.parcel id)) {x : Value}
    (valueBound : s.env.get? value = some x) {y : Datum}
    (array : s.heap.ArrayOf x y) (fits : d.arrayFits y) :
    Block.exec m code s = some (s.append id (d.arrayTokens y)) := by
  have evaluated := eval_ref (m := m) valueBound
  have datum := array.datum?
  unfold writeArray at emitted
  unfold Descriptor.arrayFits at fits
  unfold Descriptor.arrayTokens
  cases strategy : d.strategy with
  | primitive p =>
      simp only [strategy] at emitted fits ⊢
      exact exec_of_emitted emitted
        (exec_write bound (ofName?_writeArrayMethod p) evaluated datum fits)
  | string =>
      simp only [strategy] at emitted fits ⊢
      exact exec_of_emitted emitted (exec_write bound rfl evaluated datum fits)
  | binder kind =>
      cases kind with
      | handle =>
          simp only [strategy] at emitted fits ⊢
          exact exec_of_emitted emitted
            (exec_write bound rfl evaluated datum fits)
      | _ => simp [strategy] at fits
  | parcelable =>
      obtain ⟨e, flagged⟩ := exists_flagsExpr formed flags
      simp only [strategy, flagged, bind, Except.bind, pure, Except.pure,
        Except.ok.injEq] at emitted fits ⊢
      subst emitted
      rw [Block.exec_singleton]
      exact exec_writeTypedArray bound valueBound array fits flagged
  | genericList arguments element =>
      have whole : d.strategy.isWhole := by rw [strategy]; rfl
      obtain ⟨body, bodyEmitted⟩ :=
        exists_writeWhole formed whole (itemVariable value d) parcel flags
      simp only [strategy, bodyEmitted, bind, Except.bind, pure, Except.pure,
        Except.ok.injEq] at emitted fits ⊢
      subst emitted
      rw [Block.exec_singleton]
      cases array with
      | null => exact exec_writeSized_of_isNull bound valueBound rfl _ _
      | @array a items ds cell shown =>
          have counted := eval_length (m := m) valueBound cell
          rw [shown.length_eq] at counted
          have elementFits : ∀ e ∈ ds, d.fits e := fun e listed => by
            simp only [Descriptor.fits, strategy]
            exact List.all_eq_true.mp fits e listed
          exact exec_writeItems formed known whole bodyEmitted typed bound
            valueBound rfl counted (by simp [Heap.elements?, Heap.cell?, cell])
            shown elementFits
  | _ => simp [strategy] at fits

theorem exec_writeCarried (formed : r.WellFormed) {d : Descriptor}
    (carried : r.Carried d) {code : Block}
    (emitted : write r d value parcel flags = .ok code)
    (typed : parcel.type = "android.os.Parcel")
    (bound : s.env.get? parcel = some (.parcel id)) {x : Value}
    (valueBound : s.env.get? value = some x) {y : Datum}
    (item : s.heap.Item x y) (fits : (r.layout d).Fits m y) :
    Block.exec m code s = some (s.append id ((r.layout d).tokens y)) := by
  unfold write at emitted
  cases carried with
  | whole whole =>
      rw [Registry.layout_of_isWhole r whole] at emitted fits ⊢
      exact exec_writeWhole formed emitted bound valueBound item fits
  | @elements element arguments part generic single partKnown whole =>
      rw [Registry.layout_of_elements generic single partKnown whole]
        at emitted fits ⊢
      obtain ⟨body, done⟩ :=
        exists_writeWhole formed whole (itemVariable value element) parcel flags
      simp only [Layout.write, Layout.type, done, bind, Except.bind, pure,
        Except.pure, Except.ok.injEq] at emitted
      subst emitted
      rw [Block.exec_singleton]
      exact exec_writeElements formed partKnown whole done typed bound
        valueBound item fits
  | @entries key val arguments first second generic pair keyKnown keyWhole
      valKnown valWhole =>
      rw [Registry.layout_of_entries generic pair keyKnown keyWhole valKnown
        valWhole] at emitted fits ⊢
      obtain ⟨keyCode, keyDone⟩ :=
        exists_writeWhole formed keyWhole (entryKeyVariable value key)
          parcel flags
      obtain ⟨valCode, valDone⟩ :=
        exists_writeWhole formed valWhole (entryValueVariable value val)
          parcel flags
      simp only [Layout.write, Layout.type, keyDone, valDone, bind, Except.bind,
        pure, Except.pure, Except.ok.injEq] at emitted
      subst emitted
      rw [Block.exec_singleton]
      refine exec_writeEntries formed keyKnown keyWhole valKnown valWhole
        keyDone valDone typed bound valueBound item (fits.imp_right ?_)
      rintro ⟨pairs, same, pairsFit, _⟩
      exact ⟨pairs, same, pairsFit⟩

end BinderIdl.Parcel

namespace BinderIdl.Method

open Java BinderIdl.Types Parcel

theorem ValueType.Sound.exists_write {r : Registry} {t : ValueType}
    (sound : t.Sound r) (formed : r.WellFormed) (value : Variable)
    {parcel : Variable} (typed : parcel.type = "android.os.Parcel")
    (flags : WriteFlags) :
    ∃ code,
      (∀ loader, t.write r value parcel flags loader = ⟨code, loader, .ok ()⟩) ∧
      ∀ {m : Platform} {s : State} {id : Nat} {x : Value} {y : Datum},
        s.env.get? parcel = some (.parcel id) →
        s.env.get? value = some x → t.Shows s.heap x y → t.Fits m r y →
        Block.exec m code s = some (s.append id (t.tokens r y)) := by
  obtain ⟨h, known⟩ := sound.known
  by_cases array : t.isArray
  · obtain ⟨code, emitted⟩ :=
      exists_writeArray formed (sound.array array) value parcel flags
    refine ⟨code, ?_, ?_⟩
    · simp [ValueType.write, array, Operation.emit, emitted, Emitter.ofCode,
        Emitter.emitAll]
    · intro m s id x y bound valueBound shown fits
      simp only [ValueType.Shows, ValueType.Fits, ValueType.tokens, array,
        if_true] at shown fits ⊢
      exact exec_writeArray formed known emitted typed bound valueBound
        shown fits
  · obtain ⟨code, emitted⟩ :=
      Parcel.exists_write formed sound.carried value parcel flags
    refine ⟨code, ?_, ?_⟩
    · simp [ValueType.write, array, Operation.emit, emitted, Emitter.ofCode,
        Emitter.emitAll]
    · intro m s id x y bound valueBound shown fits
      simp only [ValueType.Shows, ValueType.Fits, ValueType.tokens, array,
        Bool.false_eq_true, if_false] at shown fits ⊢
      exact exec_writeCarried formed sound.carried emitted typed bound
        valueBound shown fits

end BinderIdl.Method
