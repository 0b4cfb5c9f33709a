import BinderIdl.Proofs.Parcel.Scope
import BinderIdl.Proofs.Parcel.Success

namespace BinderIdl.Parcel

open Java BinderIdl.Types Emitter

variable {m : Platform} {r : Registry} {s : State} {value parcel : Variable}
  {id : Nat}
variable {held : Bool} {rest : List Token} {y : Datum}

/-- An expression takes tokens off a parcel and comes to a value of
their datum. -/
def Yields (m : Platform) (e : Expr) (id : Nat) (rest : List Token) (y : Datum)
    (s : State) : Prop :=
  ∃ x s', e.eval m s = some (x, s') ∧
    s'.env = s.env ∧ (∃ more, s'.heap = s.heap ++ more) ∧
    s'.parcels = (s.setParcel id rest).parcels ∧ s'.heap.Item x y

/-- What code has done that creates a value. -/
structure Created (held : Bool) (value : Variable) (id : Nat)
    (rest : List Token) (Shown : Heap → Value → Prop) (s s' : State) :
    Prop where
  scope : ∃ added,
    s'.env = added ++ s.env ∧ ∀ entry ∈ added, Helper value entry.1
  shown : ∃ x, s'.env.get? value = some x ∧ Shown s'.heap x
  heap : ∃ more, s'.heap = s.heap ++ more
  parcels : s'.parcels = (s.setParcel id rest).parcels
  loaded : Loaded held s'.env

theorem item_place (s : State) (y : Datum) :
    (s.place y).2.env = s.env ∧ (∃ more, (s.place y).2.heap = s.heap ++ more) ∧
    (s.place y).2.parcels = s.parcels ∧
    (s.place y).2.heap.Item (s.place y).1 y := by
  unfold State.place
  split
  · next mutable =>
      exact ⟨rfl, ⟨[.data y], rfl⟩, rfl,
        .object (by simp [State.allocate]) mutable⟩
  · exact ⟨rfl, ⟨[], (List.append_nil _).symm⟩, rfl, .data y⟩

theorem yields_make (bound : s.env.get? parcel = some (.parcel id))
    {method : String} {tag : Tag}
    (named : ParcelMethod.ofName? method = some (.make tag))
    (single : tag.isArray = false) {arguments : List Expr} {xs : List Value}
    (evaluated : Expr.evalAll m arguments s = some (xs, s))
    (front : s.parcels id = ⟨tag, y⟩ :: rest) (allowed : tag.readsWith xs y) :
    Yields m (parcel.call method arguments) id rest y s := by
  obtain ⟨scope, heap, parcels, item⟩ := item_place (s.setParcel id rest) y
  refine ⟨_, _, ?_, scope, heap, parcels, item⟩
  rw [eval_make bound named evaluated front allowed, single]
  rfl

theorem Yields.cast {e : Expr} (yields : Yields m e id rest y s)
    (fixed : y.isMutable = false) (type : String)
    (kept : Value.cast type (.data y) = .data y) :
    Yields m (.cast type e) id rest y s := by
  obtain ⟨x, s', evaluated, scope, heap, parcels, item⟩ := yields
  cases item.eq_data fixed
  exact ⟨.data y, s', by simp [Expr.eval, evaluated, kept], scope, heap,
    parcels, .data y⟩

theorem yields_of_eval {e : Expr}
    (evaluated : e.eval m s = some (.data y, s.setParcel id rest)) :
    Yields m e id rest y s :=
  ⟨.data y, s.setParcel id rest, evaluated, rfl, ⟨[], (List.append_nil _).symm⟩,
    rfl, .data y⟩

theorem ofName?_readMethod {p : Primitive} (direct : p.carrier = .direct) :
    ParcelMethod.ofName? p.readMethod = some (.make (.scalar p)) := by
  cases p <;> first | rfl | cases direct

theorem yields_createPrimitive (bound : s.env.get? parcel = some (.parcel id))
    {p : Primitive} (fits : y.isPrimitive p)
    (front : s.parcels id = p.tokens y ++ rest) :
    Yields m (createPrimitive p parcel) id rest y s := by
  cases carrier : p.carrier with
  | direct =>
      have tokens : p.tokens y = [⟨.scalar p, y⟩] := by
        cases p <;> first | rfl | cases carrier
      rw [tokens] at front
      rw [createPrimitive, carrier]
      exact yields_make bound (ofName?_readMethod carrier) rfl rfl front rfl
  | boolAsInt =>
      have boolean : p = .boolean := by cases p <;> first | rfl | cases carrier
      subst boolean
      obtain ⟨b, rfl⟩ := Datum.eq_truth_of_isPrimitive fits
      have read := eval_readInt (m := m) bound front
      apply yields_of_eval
      cases b <;> simp [createPrimitive, carrier, readMarker, Expr.eval, read,
        Comparison.holds?, Value.int, Value.isNull, Datum.int, Datum.isNull,
        Value.int?]
  | charAsInt =>
      have char : p = .char := by cases p <;> first | rfl | cases carrier
      subst char
      obtain ⟨c, rfl⟩ := Datum.eq_character_of_isPrimitive fits
      have read := eval_readInt (m := m) bound front
      apply yields_of_eval
      change (Expr.cast "char" (readInt parcel)).eval m s = _
      simp [Expr.eval, read, Value.cast, Value.int, Datum.int]

theorem eval_readString (bound : s.env.get? parcel = some (.parcel id))
    (fits : y.isText) (front : s.parcels id = ⟨.string, y⟩ :: rest) :
    (parcel.call "readString" []).eval m s =
      some (.data y, s.setParcel id rest) := by
  rw [eval_make bound (g := .string) rfl rfl front rfl]
  cases y <;> first | rfl | cases fits

theorem yields_createException (bound : s.env.get? parcel = some (.parcel id))
    (fits : y.isException) (front : s.parcels id = exceptionTokens y ++ rest) :
    Yields m (createException value parcel) id rest y s := by
  have evaluated {code : Int} {message : Datum} (text : message.isText)
      (tokens : s.parcels id = intToken code :: ⟨.string, message⟩ :: rest) :
      Expr.evalAll m [readInt parcel, parcel.call "readString" []] s =
        some ([.int code, .data message], s.setParcel id rest) := by
    have read := eval_readInt (m := m) bound tokens
    have readString :=
      eval_readString (m := m)
        (s := s.setParcel id (⟨.string, message⟩ :: rest)) bound text
        (State.parcels_setParcel_self s id (⟨.string, message⟩ :: rest))
    simp [Expr.evalAll, read, readString]
  have called {code : Int} {message : Datum} (text : message.isText)
      (tokens : s.parcels id = intToken code :: ⟨.string, message⟩ :: rest)
      (result : State.described code message = some y) :
      (parcel.call "createException" [readInt parcel, parcel.call "readString"
          []]).eval m s = some (.data y, s.setParcel id rest) := by
    rw [eval_call_parcel bound (c := .createException) rfl
      (evaluated text tokens)]
    simp [ParcelMethod.run, Value.int, Value.int?, Datum.int,
      (Heap.Item.data message).item?, result]
  rcases Datum.eq_of_isException fits with rfl | ⟨code, message, rfl, real⟩
  · exact (yields_of_eval (called rfl front rfl)).cast rfl _
      (by simp [Value.cast])
  · refine (yields_of_eval (called ?_ front ?_)).cast rfl _
      (by simp [Value.cast])
    · cases message <;> rfl
    · cases message <;> simp [State.described, Datum.ofText?, real]

theorem eval_readBinder (bound : s.env.get? parcel = some (.parcel id))
    (fits : y.isBinder) (front : s.parcels id = ⟨.binder, y⟩ :: rest) :
    (readBinder parcel).eval m s = some (.data y, s.setParcel id rest) := by
  rw [readBinder, eval_make bound (g := .binder) rfl rfl front rfl]
  cases y <;> first | rfl | cases fits

theorem cast_binder (fits : y.isBinder) (type : String) :
    Value.cast type (.data y) = .data y := by
  cases y <;> first | simp [Value.cast]; done | cases fits

theorem isMutable_binder (fits : y.isBinder) : y.isMutable = false := by
  cases y <;> first | rfl | cases fits

theorem eq_of_isInterfaceOf {name : String} (fits : y.isInterfaceOf name) :
    y = .null ∨ ∃ identity, y = .interface identity name := by
  cases y with
  | null => exact .inl rfl
  | interface identity descriptor =>
      have same : descriptor = name := by simpa [Datum.isInterfaceOf] using fits
      exact .inr ⟨identity, same ▸ rfl⟩
  | _ => cases fits

theorem yields_createInterface {d : Descriptor}
    (bound : s.env.get? parcel = some (.parcel id))
    (fits : y.isInterfaceOf d.qualifiedName)
    (front : s.parcels id = ⟨.binder, y.asBinder⟩ :: rest) :
    Yields m (createInterface d parcel) id rest y s := by
  have read := eval_readBinder (m := m) bound
    (Datum.isBinder_asBinder (Datum.isInterface_of_isInterfaceOf fits)) front
  apply yields_of_eval
  rcases eq_of_isInterfaceOf fits with rfl | ⟨identity, rfl⟩ <;>
    simp [createInterface, Expr.eval, Expr.evalAll, read, Platform.call,
      callSymbol, Datum.asBinder, Value.null]

theorem loaded_push (loaded : Loaded held s.env) {v : Variable}
    (plain : v.type ≠ "java.lang.ClassLoader") (x : Option Value) :
    Loaded held ((v, x) :: s.env) := by
  intro declared
  rw [Env.get?_cons_of_ne (ne_of_type_ne (w := loaderVariable) plain)]
  exact loaded declared

theorem exec_declare {e : Expr} (yields : Yields m e id rest y s)
    (plain : value.type ≠ "java.lang.ClassLoader")
    (loaded : Loaded held s.env) :
    ∃ s', Stmt.exec m (.declare value e) s = some s' ∧
      Created held value id rest (fun h x => h.Item x y) s s' := by
  obtain ⟨x, s', evaluated, scope, heap, parcels, item⟩ := yields
  refine ⟨s'.push value (some x), by simp [Stmt.exec, evaluated], ?_, ?_, heap,
    parcels, ?_⟩
  · refine ⟨[(value, some x)], by rw [State.push, scope]; rfl, ?_⟩
    intro entry listed
    rw [List.mem_singleton] at listed
    exact listed ▸ .self
  · exact ⟨x, Env.get?_cons_self _ _ _, item⟩
  · rw [State.push, scope]
    exact loaded_push loaded plain _

theorem exec_createMarked {present : Expr} {tag : Tag} (apart : value ≠ parcel)
    (bound : s.env.get? parcel = some (.parcel id))
    (plain : value.type ≠ "java.lang.ClassLoader") (loaded : Loaded held s.env)
    (front : s.parcels id = markedTokens tag y ++ rest)
    (yields : ∀ s' : State,
      s'.env.get? parcel = some (.parcel id) → y.isNull = false →
      s'.parcels id = ⟨tag, y⟩ :: rest → Yields m present id rest y s') :
    ∃ s',
      Block.exec m [.declareUnset value, createMarked value parcel present] s =
        some s' ∧ Created held value id rest (fun h x => h.Item x y) s s' := by
  have innerBound : (s.push value none).env.get? parcel = some (.parcel id) :=
    (Env.get?_cons_of_ne apart _ _).trans bound
  have scope (x : Value) : ∃ added : Env, (value, some x) :: s.env =
      added ++ s.env ∧ ∀ entry ∈ added, Helper value entry.1 := by
    refine ⟨[(value, some x)], rfl, ?_⟩
    intro entry listed
    rw [List.mem_singleton] at listed
    exact listed ▸ .self
  by_cases null : y = .null
  · subst null
    have tokens : s.parcels id = intToken 0 :: rest := front
    have marker :=
      holds_readMarker (m := m) (s := s.push value none) innerBound tokens
    have set := exec_set (m := m) (s := (s.push value none).setParcel id rest)
      (v := value) eval_null rfl
    refine ⟨(s.setParcel id rest).push value (some .null), ?_, scope _, ?_, ?_,
      rfl, ?_⟩
    · simp only [Block.exec, Stmt.exec, Option.bind_eq_bind, Option.bind_some,
        createMarked, marker, bne_self_eq_false, Bool.false_eq_true, if_false,
        set, Option.map_some]
      exact congrArg some (State.leave_of_length_eq rfl)
    · exact ⟨.null, Env.get?_cons_self _ _ _, .data .null⟩
    · exact ⟨[], (List.append_nil _).symm⟩
    · exact loaded_push (s := s) loaded plain _
  · have notNull : y.isNull = false := by
      cases y <;> first | rfl | exact absurd rfl null
    have tokens : s.parcels id = intToken 1 :: ⟨tag, y⟩ :: rest := by
      cases y <;> first | exact front | exact absurd rfl null
    have marker :=
      holds_readMarker (m := m) (s := s.push value none) innerBound tokens
    obtain ⟨x, s', evaluated, env, heap, parcels, item⟩ :=
      yields ((s.push value none).setParcel id (⟨tag, y⟩ :: rest)) innerBound
        notNull (by simp)
    have set := exec_set evaluated env
    refine ⟨{ s' with env := (value, some x) :: s.env }, ?_, scope _, ?_,
      heap, ?_, ?_⟩
    · have one : ((0 : Int) != 1) = true := rfl
      simp only [Block.exec, Stmt.exec, Option.bind_eq_bind, Option.bind_some,
        createMarked, marker, one, if_true, set, Option.map_some]
      exact congrArg some (State.leave_of_length_eq rfl)
    · exact ⟨x, Env.get?_cons_self _ _ _, item⟩
    · exact parcels.trans (State.parcels_setParcel_of_eq s id rest rfl)
    · exact loaded_push (s := s) loaded plain _

/-- A class loader that is declared on the way is one of the helpers. -/
theorem Created.of_acquired {late needed : Bool} {Shown : Heap → Value → Prop}
    {s' : State}
    (created : Created late value id rest Shown
      { s with env := acquired held needed ++ s.env } s') :
    Created late value id rest Shown s s' := by
  obtain ⟨⟨added, scope, helpers⟩, shown, heap, parcels, loaded⟩ := created
  refine ⟨⟨added ++ acquired held needed, by rw [scope, List.append_assoc], ?_⟩,
    shown, heap, parcels, loaded⟩
  intro entry listed
  rcases List.mem_append.mp listed with new | loader
  · exact helpers entry new
  · exact eq_loader_of_mem_acquired loader ▸ .loader

theorem acquire_emit_slot (formed : r.WellFormed) (held : Bool)
    (stmt : Variable → Stmt) :
    (acquire r >>= fun loader => emit (stmt loader)) (slot held) =
      ⟨acquireCode held true ++ [stmt loaderVariable], slot true, .ok ()⟩ := by
  have taken := acquire_slot formed held
  rw [run_bind_ok (a := loaderVariable) (by rw [taken]), taken]
  rfl

theorem parcel_ne_loader (typed : parcel.type = "android.os.Parcel") :
    parcel ≠ loaderVariable := by
  apply ne_of_type_ne
  rw [typed]
  exact (by decide : "android.os.Parcel" ≠ "java.lang.ClassLoader")

theorem exec_acquire_declare {e : Expr}
    (plain : value.type ≠ "java.lang.ClassLoader")
    (typed : parcel.type = "android.os.Parcel")
    (bound : s.env.get? parcel = some (.parcel id)) (loaded : Loaded held s.env)
    (yields : ∀ s' : State, s'.env.get? parcel = some (.parcel id) →
      s'.env.get? loaderVariable = some (.symbol loaderText) →
      s'.parcels = s.parcels → Yields m e id rest y s') :
    ∃ s', Block.exec m (acquireCode held true ++ [.declare value e]) s =
      some s' ∧ Created true value id rest (fun h x => h.Item x y) s s' := by
  have loader := loaded_acquired true loaded
  rw [Bool.or_true] at loader
  let ready : State := { s with env := acquired held true ++ s.env }
  have readyBound : ready.env.get? parcel = some (.parcel id) :=
    (get?_acquired (parcel_ne_loader typed) s.env).trans bound
  obtain ⟨s', done, created⟩ := exec_declare (s := ready)
    (yields ready readyBound (loader rfl) rfl) plain loader
  refine ⟨s', ?_, created.of_acquired⟩
  rw [Block.exec_append_of_eq_some (exec_acquireCode held true m s),
    Block.exec_singleton]
  exact done

theorem exec_createBinderInterface
    (apart : value.type ≠ "java.lang.ClassLoader")
    (bound : s.env.get? parcel = some (.parcel id)) (loaded : Loaded held s.env)
    (fits : y.isInterface)
    (front : s.parcels id = ⟨.binder, y.asBinder⟩ :: rest) :
    ∃ s',
      Block.exec m [.declare (binderVariable value) (readBinder parcel),
        .declare value
          (.ternary (binderVariable value).isNotNull
            ((binderVariable value).call "queryLocalInterface" [(binderVariable
                value).call "getInterfaceDescriptor" []]) .null)] s = some s' ∧
      Created held value id rest (fun h x => h.Item x y) s s' := by
  have read :=
    eval_readBinder (m := m) bound (Datum.isBinder_asBinder fits) front
  let ready :=
    (s.setParcel id rest).push (binderVariable value) (some (.data y.asBinder))
  have binderRef := eval_ref (m := m) (s := ready)
    (Env.get?_cons_self _ (binderVariable value) _)
  have binderNull := eval_isNotNull (m := m) (s := ready)
    (Env.get?_cons_self _ (binderVariable value) _)
  have evaluated : Expr.eval m
      (.ternary (binderVariable value).isNotNull
        ((binderVariable value).call "queryLocalInterface"
          [(binderVariable value).call "getInterfaceDescriptor" []]) .null)
      ready = some (.data y, ready) := by
    rcases Datum.eq_of_isInterface fits with rfl | ⟨identity, descriptor, rfl⟩
    · simp [Expr.eval, binderNull, Value.isNull, Datum.isNull, Datum.asBinder,
        Value.truth?, Value.null]
    · simp [Expr.eval, Expr.evalAll, binderNull, binderRef, Value.isNull,
        Datum.isNull, Datum.asBinder, Value.truth?, Variable.call,
        Platform.call, callDatum]
  refine ⟨ready.push value (some (.data y)), ?_, ?_, ?_, ?_, rfl, ?_⟩
  · simp only [Block.exec, Stmt.exec, read, Option.bind_eq_bind,
      Option.bind_some]
    change ((Expr.eval m _ ready).bind _).bind _ = _
    simp [evaluated]
  · refine ⟨[(value, some (.data y)),
      (binderVariable value, some (.data y.asBinder))], rfl, ?_⟩
    intro entry listed
    simp only [List.mem_cons, List.not_mem_nil, or_false] at listed
    rcases listed with rfl | rfl
    · exact .self
    · exact .binder
  · exact ⟨.data y, Env.get?_cons_self _ _ _, .data y⟩
  · exact ⟨[], (List.append_nil _).symm⟩
  · have inner :=
      loaded_push (v := binderVariable value) loaded
        (by decide : "android.os.IBinder" ≠ "java.lang.ClassLoader")
        (some (.data y.asBinder))
    exact loaded_push (s := ready) inner apart _

/-- Code that gives a variable any value of a type that is
carried as a whole. -/
def CreatesWhole (d : Descriptor) (value parcel : Variable) (held late : Bool)
    (code : Block) : Prop :=
  ∀ {m : Platform} {s : State} {id : Nat} {y : Datum} {rest : List Token},
    s.env.get? parcel = some (.parcel id) → Loaded held s.env → d.fits y →
    s.parcels id = d.tokens y ++ rest →
    ∃ s', Block.exec m code s = some s' ∧
      Created late value id rest (fun h x => h.Item x y) s s'

theorem createsWhole_declare {d : Descriptor} {e : Expr}
    (plain : value.type ≠ "java.lang.ClassLoader")
    (yields : ∀ {m : Platform} {s : State} {id : Nat} {y : Datum}
      {rest : List Token}, s.env.get? parcel = some (.parcel id) →
        d.fits y → s.parcels id = d.tokens y ++ rest → Yields m e id rest y s) :
    CreatesWhole d value parcel held held [.declare value e] := by
  intro m s id y rest bound loaded fits front
  rw [Block.exec_singleton]
  exact exec_declare (yields bound fits front) plain loaded

theorem createsWhole_acquire {d : Descriptor} {method : String} {tag : Tag}
    (plain : value.type ≠ "java.lang.ClassLoader")
    (typed : parcel.type = "android.os.Parcel")
    (named : ParcelMethod.ofName? method = some (.make tag))
    (single : tag.isArray = false) (tokens : ∀ y, d.tokens y = [⟨tag, y⟩])
    (allowed : ∀ y, tag.readsWith [.symbol loaderText] y) :
    CreatesWhole d value parcel held true (acquireCode held true ++
      [.declare value (parcel.call method [loaderVariable.ref])]) := by
  intro m s id y rest bound loaded fits front
  apply exec_acquire_declare plain typed bound loaded
  intro s' bound' loader parcels
  rw [tokens, ← parcels] at front
  have arguments : Expr.evalAll m [loaderVariable.ref] s' =
      some ([.symbol loaderText], s') := by
    simp [Expr.evalAll, eval_ref loader]
  exact yields_make bound' named single arguments front (allowed y)

theorem readsWith_typedList {creator : String} {y : Datum}
    (fits : y.isCollectionOf (Datum.isMadeBy creator)) :
    Tag.typedList.readsWith [.symbol creator] y :=
  fits

theorem ofLiteral_creator (name : String) :
    Value.ofLiteral (name ++ ".CREATOR") = .symbol (name ++ ".CREATOR") := by
  have long : 8 ≤ (name ++ ".CREATOR").length := by
    have mark : ".CREATOR".length = 8 := rfl
    rw [String.length_append]
    omega
  unfold Value.ofLiteral
  split
  · next same => rw [same] at long; exact absurd long (by decide)
  · next same => rw [same] at long; exact absurd long (by decide)
  · next same => rw [same] at long; exact absurd long (by decide)
  · next same => rw [same] at long; exact absurd long (by decide)
  · rfl

theorem createsWhole_list {d : Descriptor} {method : String}
    {arguments : TypeArguments} {element : ListElement}
    (list : d.strategy = .genericList arguments element)
    (plain : value.type ≠ "java.lang.ClassLoader")
    (named : ParcelMethod.ofName? method = some (.make element.tag))
    {es : List Expr} {xs : List Value}
    (evaluated : ∀ (m : Platform) (s : State),
      Expr.evalAll m es s = some (xs, s))
    (allowed : ∀ y, element.fits y → element.tag.readsWith xs y) :
    CreatesWhole d value parcel held held [.declare value
      (parcel.call method es)] := by
  apply createsWhole_declare plain
  intro m s id y rest bound fits front
  simp only [Descriptor.tokens, Descriptor.fits, list] at front fits
  refine yields_make bound named ?_ (evaluated m s) front (allowed y fits)
  cases element <;> rfl

/-- An emitter of such code, which declares the class loader if
that is needed. -/
def EmitsCreation (d : Descriptor) (value parcel : Variable) (needed : Bool)
    (e : Emitter Unit) : Prop :=
  ∀ held, ∃ code, e (slot held) = ⟨code, slot (held || needed), .ok ()⟩ ∧
    CreatesWhole d value parcel held (held || needed) code

theorem emitsCreation_emitAll {d : Descriptor} {code : Block}
    (creates : ∀ held, CreatesWhole d value parcel held held code) :
    EmitsCreation d value parcel false (emitAll code) := by
  intro held
  rw [Bool.or_false]
  exact ⟨code, rfl, creates held⟩

theorem emitsCreation_declare {d : Descriptor} {e : Expr}
    (plain : value.type ≠ "java.lang.ClassLoader")
    (yields : ∀ {m : Platform} {s : State} {id : Nat} {y : Datum}
      {rest : List Token}, s.env.get? parcel = some (.parcel id) →
        d.fits y → s.parcels id = d.tokens y ++ rest → Yields m e id rest y s) :
    EmitsCreation d value parcel false (emit (.declare value e)) :=
  emitsCreation_emitAll fun _ => createsWhole_declare plain yields

theorem emitsCreation_acquire (formed : r.WellFormed) {d : Descriptor}
    {method : String} {tag : Tag} (plain : value.type ≠ "java.lang.ClassLoader")
    (typed : parcel.type = "android.os.Parcel")
    (named : ParcelMethod.ofName? method = some (.make tag))
    (single : tag.isArray = false) (tokens : ∀ y, d.tokens y = [⟨tag, y⟩])
    (allowed : ∀ y, tag.readsWith [.symbol loaderText] y) :
    EmitsCreation d value parcel true (acquire r >>= fun loader =>
      emit (.declare value (parcel.call method [loader.ref]))) := by
  intro held
  rw [Bool.or_true]
  exact ⟨_, acquire_emit_slot formed held _,
    createsWhole_acquire plain typed named single tokens allowed⟩

theorem emitsCreation_createList (formed : r.WellFormed) {h : Handle}
    {d : Descriptor} (known : r.get? h = some d) {arguments : TypeArguments}
    {element : ListElement} (list : d.strategy = .genericList arguments element)
    (plain : value.type ≠ "java.lang.ClassLoader")
    (typed : parcel.type = "android.os.Parcel") :
    EmitsCreation d value parcel d.strategy.looksUpClasses
      (createList r element value parcel) := by
  rw [list]
  cases element with
  | strings =>
      exact emitsCreation_emitAll fun _ =>
        createsWhole_list list plain rfl (fun _ _ => rfl) fun _ _ => rfl
  | binders =>
      exact emitsCreation_emitAll fun _ =>
        createsWhole_list list plain rfl (fun _ _ => rfl) fun _ _ => rfl
  | typed creator =>
      obtain ⟨name, rfl⟩ := formed.creator_eq known list
      apply emitsCreation_emitAll
      intro held
      refine createsWhole_list list plain rfl (fun m s => ?_) fun y fits =>
        readsWith_typedList fits
      simp [Expr.evalAll, Expr.eval, ofLiteral_creator]
  | untyped =>
      apply emitsCreation_acquire formed plain typed rfl rfl ?_ fun y => rfl
      intro y
      simp only [Descriptor.tokens, list]
      rfl

theorem emitsCreation_createRecord {d : Descriptor}
    (record : d.strategy = .parcelable)
    (plain : value.type ≠ "java.lang.ClassLoader") (apart : value ≠ parcel) :
    EmitsCreation d value parcel false (createRecord d value parcel) := by
  apply emitsCreation_emitAll
  intro held m s id y rest bound loaded fits front
  simp only [Descriptor.tokens, Descriptor.fits, record] at front fits
  apply exec_createMarked apart bound plain loaded front
  intro s' bound' notNull front'
  obtain ⟨scope, heap, parcels, item⟩ := item_place (s'.setParcel id rest) y
  refine ⟨_, _, ?_, scope, heap, parcels, item⟩
  have creator :
      d.qualifiedName ++ "." ++ "CREATOR" = d.qualifiedName ++ ".CREATOR" :=
    String.append_assoc
  simp [creatorExpr, Expr.eval, Expr.evalAll, Value.field?, creator,
    eval_ref bound', Platform.call, callSymbol, front']

theorem run_ofExcept_ok {α β : Type} {result : Except MarshalError α} {a : α}
    (done : result = .ok a) (next : α → Emitter β) :
    (ofExcept result >>= next) = next a := by
  subst done
  exact pure_bind a next

theorem emitsCreation_createCharSequence (formed : r.WellFormed)
    {d : Descriptor} (sequence : d.strategy = .charSequence)
    (plain : value.type ≠ "java.lang.ClassLoader") (apart : value ≠ parcel) :
    EmitsCreation d value parcel false (createCharSequence r value parcel) := by
  rw [createCharSequence,
    run_ofExcept_ok (formed.require_builtIn (h := .textUtils) rfl)]
  apply emitsCreation_emitAll
  intro held m s id y rest bound loaded fits front
  simp only [Descriptor.tokens, sequence] at front
  apply exec_createMarked apart bound plain loaded front
  intro s' bound' notNull front'
  obtain ⟨scope, heap, parcels, item⟩ := item_place (s'.setParcel id rest) y
  refine ⟨_, _, ?_, scope, heap, parcels, item⟩
  have creator : (BuiltIn.helper "android.text" "TextUtils").qualifiedName ++
      "." ++ "CHAR_SEQUENCE_CREATOR" =
      "android.text.TextUtils.CHAR_SEQUENCE_CREATOR" := by decide
  simp [Expr.eval, Expr.evalAll, Value.field?, creator, eval_ref bound',
    Platform.call, callSymbol, front']

theorem emitsCreation_createBinder (formed : r.WellFormed) {d : Descriptor}
    {kind : BinderKind} (binder : d.strategy = .binder kind)
    (plain : value.type ≠ "java.lang.ClassLoader") :
    EmitsCreation d value parcel false (createBinder r kind value parcel) := by
  have reads {m : Platform} {s : State} {id : Nat} {y : Datum}
      {rest : List Token} (other : kind ≠ .interface)
      (bound : s.env.get? parcel = some (.parcel id)) (fits : d.fits y)
      (front : s.parcels id = d.tokens y ++ rest) :
      Yields m (readBinder parcel) id rest y s ∧
      ∀ type, Yields m (.cast type (readBinder parcel)) id rest y s := by
    have isBinder : y.isBinder := by
      cases kind <;> simp_all [Descriptor.fits]
    simp only [Descriptor.tokens, binder,
      Datum.asBinder_of_isBinder isBinder] at front
    have yields :=
      yields_of_eval (eval_readBinder (m := m) bound isBinder front)
    exact ⟨yields, fun type =>
      yields.cast (isMutable_binder isBinder) _ (cast_binder isBinder _)⟩
  cases kind with
  | interface =>
      rw [createBinder,
        run_ofExcept_ok (formed.require_builtIn (h := .binder) rfl)]
      apply emitsCreation_emitAll
      intro held m s id y rest bound loaded fits front
      simp only [Descriptor.tokens, Descriptor.fits, binder] at front fits
      exact exec_createBinderInterface plain bound loaded fits front
  | handle =>
      exact emitsCreation_declare plain fun bound fits front =>
        (reads nofun bound fits front).1
  | native =>
      exact emitsCreation_declare plain fun bound fits front =>
        (reads nofun bound fits front).2 _
  | proxy =>
      exact emitsCreation_declare plain fun bound fits front =>
        (reads nofun bound fits front).2 _

theorem emitsCreation_createWhole (formed : r.WellFormed) {h : Handle}
    {d : Descriptor} (known : r.get? h = some d) (whole : d.strategy.isWhole)
    (plain : value.type ≠ "java.lang.ClassLoader")
    (typed : parcel.type = "android.os.Parcel") (apart : value ≠ parcel) :
    EmitsCreation d value parcel d.strategy.looksUpClasses
      (createWhole r d value parcel) := by
  unfold createWhole
  cases strategy : d.strategy with
  | void => simp [strategy, Strategy.isWhole] at whole
  | helper => simp [strategy, Strategy.isWhole] at whole
  | generic arguments => simp [strategy, Strategy.isWhole] at whole
  | primitive p =>
      apply emitsCreation_declare plain
      intro m s id y rest bound fits front
      simp only [Descriptor.tokens, Descriptor.fits, strategy] at front fits
      exact yields_createPrimitive bound fits front
  | string =>
      apply emitsCreation_declare plain
      intro m s id y rest bound fits front
      simp only [Descriptor.tokens, strategy] at front
      exact yields_make bound rfl rfl rfl front rfl
  | exception kind =>
      apply emitsCreation_declare plain
      intro m s id y rest bound fits front
      simp only [Descriptor.tokens, Descriptor.fits, strategy] at front fits
      exact yields_createException bound fits front
  | interface oneway =>
      apply emitsCreation_declare plain
      intro m s id y rest bound fits front
      simp only [Descriptor.tokens, Descriptor.fits, strategy] at front fits
      exact yields_createInterface bound fits front
  | map =>
      apply emitsCreation_acquire formed plain typed rfl rfl ?_ fun y => rfl
      intro y
      simp only [Descriptor.tokens, strategy]
  | list =>
      apply emitsCreation_acquire formed plain typed rfl rfl ?_ fun y => rfl
      intro y
      simp only [Descriptor.tokens, strategy]
  | genericList arguments element =>
      have emits :
          EmitsCreation d value parcel _ (createList r element value parcel) :=
        emitsCreation_createList formed known strategy plain typed
      rw [strategy] at emits
      exact emits
  | parcelable => exact emitsCreation_createRecord strategy plain apart
  | charSequence =>
      exact emitsCreation_createCharSequence formed strategy plain apart
  | binder kind => exact emitsCreation_createBinder formed strategy plain

end BinderIdl.Parcel
