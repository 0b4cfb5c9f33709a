import BinderIdl.Proofs.Method.Request

namespace BinderIdl

open Java BinderIdl.Types Document Parcel Emitter

namespace Java.Heap

variable {h h' : Heap} {x z : Value} {y y' : Datum} {a : Nat}

/-- The cell is that of an array with a list in it. -/
def HoldsLists (h : Heap) (a : Nat) : Prop :=
  ∃ items, h[a]? = some (.array items) ∧ ∃ x ∈ items, h.HasContainer x

theorem not_holdsLists_of_isObject (object : h.IsObject a) : ¬ h.HoldsLists a :=
  fun ⟨items, known, _⟩ => object items known

theorem not_holdsLists_of_forall₂ {items : List Value} {ds : List Datum}
    (known : h[a]? = some (.array items))
    (elements : List.Forall₂ h.Item items ds) {test : Datum → Bool}
    (fits : ∀ d ∈ ds, test d) (fails : ∀ old, test (.collection old) = false) :
    ¬ h.HoldsLists a := by
  rintro ⟨items', same, x, listed, b, old, rfl, container⟩
  cases Option.some.inj (known.symm.trans same)
  obtain ⟨d, member, item⟩ := exists_mem_of_forall₂ elements listed
  cases item with
  | object here =>
      cases Option.some.inj (container.symm.trans here)
      exact absurd (fits _ member) (by simp [fails])

theorem ArrayOf.hasRoom (array : h.ArrayOf x y) : h.HasRoom x y := by
  cases array with
  | null => exact .inl ⟨rfl, rfl⟩
  | array known elements =>
      exact .inr ⟨_, _, _, rfl, known, rfl, elements.length_eq⟩

/-- Data that one array was and is have the same length, so that they fit into
the same arrays. -/
theorem HasRoom.of_arrayOf (first : h.HasRoom z y) (second : h.ArrayOf z y')
    (room : h'.HasRoom x y) : h'.HasRoom x y' := by
  rcases first with ⟨rfl, rfl⟩ | ⟨a, items, ds, rfl, known, rfl, lengths⟩
  · cases second
    exact room
  · rcases room with ⟨_, null⟩ | ⟨b, others, _, rfl, there, same, fit⟩
    · cases null
    · cases same
      cases second with
      | @array _ _ ds' here elements =>
          cases Option.some.inj (known.symm.trans here)
          exact .inr ⟨b, others, ds', rfl, there, rfl,
            by rw [fit, ← lengths, elements.length_eq]⟩

/-- Objects and arrays stay fit to be read into if nothing but lists was put in
arrays of lists. -/
theorem Changed.receives_value
    (changed : Changed (fun a => ¬ h.HoldsLists a) h h') {t : Method.ValueType}
    (receives : t.Receives h x y) : t.Receives h' x y := by
  unfold Method.ValueType.Receives at receives ⊢
  by_cases array : t.isArray
  · rw [if_pos array] at receives ⊢
    unfold Descriptor.ArrayReceives at receives ⊢
    cases strategy : t.descriptor.strategy with
    | genericList arguments element =>
        simp only [strategy] at receives ⊢
        rcases receives with null | ⟨a, items, ds, rfl, known, rfl, elements⟩
        · exact .inl null
        · by_cases holds : h.HoldsLists a
          · exact .inr ⟨a, items, ds, rfl,
              changed.frame known (not_not_intro holds), rfl,
              elements.imp fun _ _ element => changed.receives element⟩
          · -- The array may have changed, but there is no list in it that
            -- anything is read into.
            obtain ⟨items', here, lengths⟩ := changed.array known
            have nulls : ∀ d ∈ ds, d = .null := by
              intro d listed
              obtain ⟨x, member, element⟩ :=
                exists_mem_of_forall₂ elements.flip listed
              simp only [strategy] at element
              exact element.resolve_right fun container =>
                holds ⟨items, known, x, member, container⟩
            refine .inr ⟨a, items', ds, rfl, here, rfl, ?_⟩
            refine List.forall₂_of_length_eq_of_get
              (lengths.trans elements.length_eq) ?_
            intro i _ bound
            simp only [Descriptor.Receives, strategy]
            exact .inl (nulls _ (List.get_mem ds ⟨i, bound⟩))
    | _ =>
        simp only [strategy] at receives ⊢
        exact changed.hasRoom receives
  · rw [if_neg array] at receives ⊢
    exact changed.receives receives

end Java.Heap

namespace Method

variable {m : Platform} {r : Registry} {h : Heap} {x : Value} {y : Datum}
  {a : Nat}

namespace ValueType

variable {t : ValueType}

/-- The objects that data are read into are there: a value that is no array, or
the lists of an array as far as something is read into them. -/
def Ready (t : ValueType) (h : Heap) (x : Value) (y : Datum) : Prop :=
  if t.isArray then
    t.isListArray →
      ∀ {a : Nat} {items : List Value},
        x = .ref a → h[a]? = some (.array items) →
        ∀ pair ∈ items.zip y.items, t.descriptor.Receives h pair.1 pair.2
  else t.descriptor.Receives h x y

theorem receives_of_ready (ready : t.Ready h x y)
    (room : t.isArray → h.HasRoom x y) :
    t.Receives h x y := by
  unfold Ready at ready
  unfold ValueType.Receives
  by_cases array : t.isArray
  · rw [if_pos array] at ready ⊢
    have room := room array
    unfold Descriptor.ArrayReceives
    cases strategy : t.descriptor.strategy with
    | genericList arguments element =>
        rcases room with ⟨_, null⟩ | ⟨a, items, ds, rfl, known, rfl, lengths⟩
        · exact .inl null
        · have each := ready (by simp [isListArray, array, strategy]) rfl known
          refine .inr ⟨a, items, ds, rfl, known, rfl, ?_⟩
          exact List.forall₂_iff_zip.mpr ⟨lengths, fun listed => each _ listed⟩
    | _ => exact room
  · rw [if_neg array] at ready ⊢
    exact ready

theorem not_holdsLists (other : t.isListArray = false)
    (shown : t.Shows h (.ref a) y) (fits : t.Fits m r y) :
    ¬ h.HoldsLists a := by
  unfold Shows at shown
  unfold Fits at fits
  by_cases array : t.isArray
  · rw [if_pos array] at shown fits
    cases shown with
    | @array _ items ds known elements =>
        unfold Descriptor.arrayFits at fits
        have none {test : Datum → Bool}
            (all : Datum.isCollectionOf test (.collection ds))
            (fails : ∀ old, test (.collection old) = false) :
            ¬ h.HoldsLists a :=
          Heap.not_holdsLists_of_forall₂ known elements
            (List.all_eq_true.mp all) fails
        cases strategy : t.descriptor.strategy with
        | primitive p =>
            simp only [strategy] at fits
            exact none fits fun _ => by cases p <;> rfl
        | string =>
            simp only [strategy] at fits
            exact none fits fun _ => rfl
        | parcelable =>
            simp only [strategy] at fits
            exact none fits fun _ => rfl
        | binder kind =>
            cases kind with
            | handle =>
                simp only [strategy] at fits
                exact none fits fun _ => rfl
            | _ => simp [strategy] at fits
        | genericList arguments element =>
            simp [isListArray, array, strategy] at other
        | _ => simp [strategy] at fits
  · rw [if_neg array] at shown
    cases shown with
    | object known =>
        exact Heap.not_holdsLists_of_isObject (Heap.isObject_of_data known)

end ValueType

theorem Parameter.Sound.type_ne {p : Parameter} (sound : p.Sound r)
    (formed : r.WellFormed) (comesBack : p.direction.isOut) {k : Handle}
    {d : Descriptor} (seeded : BuiltIn.types[k.index]? = some d)
    (fixed : d.canBeOut = false)
    (single : d.qualifiedName.toList.getLast? ≠ some ']') :
    p.callerVariable.type ≠ d.qualifiedName := by
  intro same
  have fit := sound.comesBack comesBack
  unfold Parameter.callerVariable ValueType.variableNamed Descriptor.variableFor
    at same
  unfold canReadInto at fit
  by_cases array : p.type.isArray
  · rw [if_pos array] at same
    apply single
    rw [← same]
    simp [Descriptor.arrayVariable]
  · rw [if_neg array] at same fit
    obtain ⟨h, known⟩ := sound.type.known
    obtain ⟨_, here⟩ :=
      formed.eq_of_qualifiedName_eq known (formed.get?_builtIn seeded) same
    rw [here, fixed] at fit
    cases fit

/-- A variable that can be read into. No helper of other code has its type. -/
structure OutVariable (v : Java.Variable) : Prop where
  plain : Plain v
  size : v.type ≠ "int"
  binder : v.type ≠ "android.os.IBinder"

theorem Parameter.Sound.outVariable {p : Parameter} (sound : p.Sound r)
    (formed : r.WellFormed) (comesBack : p.direction.isOut) :
    OutVariable p.callerVariable where
  plain := sound.type.plain formed p.name
  size := sound.type_ne formed comesBack (k := .int) rfl rfl (by decide)
  binder := sound.type_ne formed comesBack (k := .binder) rfl rfl (by decide)

theorem OutVariable.ne_of_helper {value v w : Java.Variable}
    (out : OutVariable w) (helper : Helper value v) (apart : w ≠ value) :
    v ≠ w := by
  cases helper with
  | self => exact apart.symm
  | size => exact ne_of_type_ne out.size.symm
  | length => exact ne_of_type_ne out.size.symm
  | binder => exact ne_of_type_ne out.binder.symm
  | loader => exact out.plain.ne_loader.symm

/-- A value that data can be read into without putting anything else in an array
of lists. -/
structure ValueType.Takes (t : ValueType) (h : Heap) (x : Value) (y : Datum) :
    Prop where
  receives : t.Receives h x y
  spares : t.isArray →
    t.isListArray = false → ∀ a, x = .ref a → ¬ h.HoldsLists a

theorem ValueType.Takes.not_holdsLists {t : ValueType} {h' : Heap}
    {touched : Nat → Prop} (takes : t.Takes h x y)
    (changed : h.Changed touched h') (touches : t.Touches h' x a) :
    ¬ h.HoldsLists a := by
  unfold Touches at touches
  by_cases lists : t.isListArray
  · rw [if_pos lists] at touches
    exact Heap.not_holdsLists_of_isObject
      (changed.isObject_of_isObject touches.1)
  · rw [if_neg lists] at touches
    by_cases array : t.isArray
    · exact takes.spares array (by simpa using lists) a touches.1
    · have object := touches.2 (by simpa using array)
      exact Heap.not_holdsLists_of_isObject
        (changed.isObject_of_isObject object)

/-- A run of code that reads several values: the code for each takes its tokens
off the parcel and leaves in its object what they say. -/
inductive ReadsBack (m : Platform) (r : Registry) (id : Nat)
    (returned : Parameter → Datum) :
    List Parameter → Block → State → State → Prop where
  | nil (w : State) : ReadsBack m r id returned [] [] w w
  | cons {p : Parameter} {others : List Parameter} {first second : Block}
      {w t w' : State} {z : Value} {rest : List Token} :
      Block.exec m first w = some t →
      w.parcels id = p.type.tokens r (returned p) ++ rest →
      t.parcels = (w.setParcel id rest).parcels →
      w.env.get? p.callerVariable = some z →
      (p.type.Apart w.heap z → ∀ old, p.type.Shows w.heap z old →
        p.type.Shows t.heap z (p.type.refilled m old (returned p))) →
      ReadsBack m r id returned others second t w' →
      ReadsBack m r id returned (p :: others) (first ++ second) w w'

theorem ReadsBack.exec {id : Nat} {returned : Parameter → Datum}
    {ps : List Parameter} {code : Block} {w w' : State}
    (reads : ReadsBack m r id returned ps code w w') :
    Block.exec m code w = some w' := by
  induction reads with
  | nil w => rfl
  | cons ran _ _ _ _ _ induction =>
      exact (Block.exec_append_of_eq_some ran).trans induction

theorem exists_readsBack {parcel : Java.Variable} {ps : List Parameter}
    {held late : Bool} {code : Block}
    (turns : Turns
      (fun (p : Parameter) held late code => Fills p.callerVariable parcel held
        late (p.type.Fits m r) (p.type.tokens r) p.type.Receives p.type.Touches
        (fun h x y h' => p.type.Apart h x → ∀ old, p.type.Shows h x old →
          p.type.Shows h' x (p.type.refilled m old y)) m code)
      ps held late code)
    (typed : parcel.type = "android.os.Parcel")
    (out : ∀ p ∈ ps, OutVariable p.callerVariable)
    {returned : Parameter → Datum}
    (fits : ∀ p ∈ ps, p.type.Fits m r (returned p)) {s : State} {id : Nat}
    {rest : List Token} (bound : s.env.get? parcel = some (.parcel id))
    (loaded : Loaded held s.env)
    (takes : ∀ p ∈ ps,
      ∃ x, s.env.get? p.callerVariable = some x ∧ p.type.Takes h x (returned p))
    (changed : h.Changed (fun a => ¬ h.HoldsLists a) s.heap)
    (front : s.parcels id =
      ps.flatMap (fun p => p.type.tokens r (returned p)) ++ rest) :
    ∃ s', ReadsBack m r id returned ps code s s' ∧
      s'.parcels = (s.setParcel id rest).parcels := by
  induction turns generalizing s with
  | nil held => exact ⟨s, .nil s, congrArg _ (setParcel_parcels front).symm⟩
  | @cons p others held middle late first second turn turns induction =>
      obtain ⟨hereOut, laterOut⟩ := List.forall_mem_cons.mp out
      obtain ⟨hereFits, laterFits⟩ := List.forall_mem_cons.mp fits
      obtain ⟨⟨x, valueBound, hereTakes⟩, laterTakes⟩ :=
        List.forall_mem_cons.mp takes
      rw [List.flatMap_cons, List.append_assoc] at front
      obtain ⟨t, ran, ⟨added, scope, helpers⟩, heap, shown, parcels, ready⟩ :=
        turn s id x (returned p) _ bound valueBound loaded hereFits
          (changed.receives_value hereTakes.receives) front
      have kept {v : Java.Variable} (size : v.type ≠ "int")
          (loader : v.type ≠ "java.lang.ClassLoader") :
          t.env.get? v = s.env.get? v := by
        rw [scope, Env.get?_append_of_forall_ne]
        intro entry listed
        rcases helpers entry listed with same | same
        · exact same ▸ ne_of_type_ne size.symm
        · exact same ▸ (ne_of_type_ne (w := loaderVariable) loader).symm
      have stillBound : t.env.get? parcel = some (.parcel id) := by
        rw [kept (typed ▸ by decide) (typed ▸ by decide)]
        exact bound
      have stillTakes : ∀ q ∈ others, ∃ x, t.env.get? q.callerVariable =
          some x ∧ q.type.Takes h x (returned q) := by
        intro q listed
        rw [kept (laterOut q listed).size (laterOut q listed).plain.loader]
        exact laterTakes q listed
      have tokensLeft : t.parcels id =
          others.flatMap (fun p => p.type.tokens r (returned p)) ++ rest := by
        rw [parcels, State.parcels_setParcel_self]
      obtain ⟨s', done, emptied⟩ :=
        induction laterOut laterFits stillBound ready stillTakes
          (changed.trans (heap.mono fun a touches =>
              hereTakes.not_holdsLists changed touches)) tokensLeft
      exact ⟨s', .cons ran front parcels valueBound shown done,
        emptied.trans (State.parcels_setParcel_of_eq s id rest parcels)⟩

theorem exec_writeNoException {parcel : Java.Variable} {s : State} {id : Nat}
    (bound : s.env.get? parcel = some (.parcel id)) :
    Stmt.exec m (.expr (parcel.call "writeNoException" [])) s =
      some (s.append id [⟨.noException, .null⟩]) := by
  have arguments : Expr.evalAll m [] s = some ([], s) := rfl
  rw [Stmt.exec, eval_call_parcel (c := .writeNoException) bound rfl arguments]
  rfl

theorem exec_readException {parcel : Java.Variable} {s : State} {id : Nat}
    {rest : List Token} (bound : s.env.get? parcel = some (.parcel id))
    (front : s.parcels id = ⟨.noException, .null⟩ :: rest) :
    Stmt.exec m (.expr (parcel.call "readException" [])) s =
      some (s.setParcel id rest) := by
  have arguments : Expr.evalAll m [] s = some ([], s) := rfl
  rw [Stmt.exec, eval_call_parcel (c := .readException) bound rfl arguments]
  simp [ParcelMethod.run, take_eq_some front]

theorem Parameter.Sound.appends_sendArgument {p : Parameter} (sound : p.Sound r)
    (formed : r.WellFormed) {parcel : Java.Variable}
    (typed : parcel.type = "android.os.Parcel") (position : Nat) :
    Appends parcel
      (fun m env h y => p.direction.isOut →
        ∃ z, env.get? (argumentVariable p position) = some z ∧
          p.type.Shows h z y ∧ p.type.Fits m r y)
      (fun y => if p.direction.isOut then p.type.tokens r y else [])
      (sendArgument r parcel p position) := by
  unfold sendArgument
  split
  · next out =>
      obtain ⟨code, emitted, written⟩ :=
        sound.type.exists_write formed (argumentVariable p position) typed
          .returnValue
      refine ⟨code, emitted, fun bound given => ?_⟩
      obtain ⟨z, valueBound, shown, fits⟩ := given out
      exact written bound valueBound shown fits
  · exact ⟨[], fun _ => rfl,
      fun _ _ => congrArg some (State.append_nil _ _).symm⟩

namespace Signature

variable {s : Signature}

def resultTokens (s : Signature) (r : Registry) (result : Datum) : List Token :=
  match s.result with
  | none => []
  | some t => t.tokens r result

theorem Sound.appends_sendResult (sound : s.Sound r) (formed : r.WellFormed)
    {parcel : Java.Variable} (typed : parcel.type = "android.os.Parcel") :
    Appends parcel
      (fun m env h y => ∀ t, s.result = some t →
        ∃ z, env.get? (t.variableNamed resultName) = some z ∧ t.Shows h z y ∧
          t.Fits m r y) (s.resultTokens r) (sendResult r parcel s.result) := by
  unfold resultTokens sendResult
  cases result : s.result with
  | none =>
      exact ⟨[], fun _ => rfl,
        fun _ _ => congrArg some (State.append_nil _ _).symm⟩
  | some t =>
      obtain ⟨code, emitted, written⟩ :=
        (sound.result t result).exists_write formed (t.variableNamed resultName)
          typed .returnValue
      refine ⟨code, emitted, fun bound given => ?_⟩
      obtain ⟨z, valueBound, shown, fits⟩ := given t rfl
      exact written bound valueBound shown fits

theorem Sound.exists_receiveResult (sound : s.Sound r) (formed : r.WellFormed)
    (makes : m.MakesContainers r) {parcel : Java.Variable}
    (typed : parcel.type = "android.os.Parcel") :
    ∃ code late, receiveResult r parcel s.result (slot false) =
        ⟨code, slot late, .ok ()⟩ ∧
      ∀ {u : State} {id : Nat} {result : Datum} {rest : List Token},
        u.env.get? parcel = some (.parcel id) →
        (∀ t ∈ s.result, t.Fits m r result) →
        u.parcels id = s.resultTokens r result ++ rest →
        ∃ u', Block.exec m code u = some u' ∧
          AllCreated late (fun t : ValueType => t.variableNamed resultName)
            s.result.toList id rest (fun t h z => t.Shows h z result) u u' := by
  have looped : receiveResult r parcel s.result = s.result.toList.forM fun t =>
      t.create r (t.variableNamed resultName) parcel := by
    cases s.result with
    | none => rfl
    | some t => exact (bind_pure_unit).symm
  have known : ∀ t ∈ s.result.toList, t.Sound r := fun t listed =>
    sound.result t (Option.mem_toList.mp listed)
  have plain : ∀ t ∈ s.result.toList, Plain (t.variableNamed resultName) :=
    fun t listed => (known t listed).plain formed resultName
  obtain ⟨code, late, emitted, turns⟩ := exists_turns
    (fun t (listed : t ∈ s.result.toList) =>
      (known t listed).exists_creates formed makes (plain t listed) typed)
    false
  refine ⟨code, late, looped ▸ emitted,
    fun {u id result rest} bound fits front => ?_⟩
  have tokens : u.parcels id =
      s.result.toList.flatMap (fun t => t.tokens r result) ++ rest := by
    rw [front, resultTokens]
    cases s.result with
    | none => rfl
    | some t => simp
  exact exists_allCreated turns typed (fun t listed => (plain t listed).parcel)
    (by cases s.result <;> simp) (fun t d h z more shown => shown.append more)
    bound nofun (fun t listed => fits t (Option.mem_toList.mp listed)) tokens

def returnedTokens (s : Signature) (r : Registry)
    (returned : Parameter → Datum) : List Token :=
  s.outParameters.flatMap fun p => p.type.tokens r (returned p)

/-- The reply to a call: nothing, if nobody waits for one. -/
def replyTokens (s : Signature) (r : Registry) (result : Datum)
    (returned : Parameter → Datum) :
    List Token :=
  if s.oneway then []
  else
    ⟨.noException, .null⟩ ::
      (s.resultTokens r result ++ s.returnedTokens r returned)

theorem flatMap_outParameters {β : Type} (f : Parameter → List β)
    (s : Signature) :
    s.parameters.flatMap (fun p => if p.direction.isOut then f p else []) =
      s.outParameters.flatMap f := by
  unfold outParameters
  induction s.parameters with
  | nil => rfl
  | cons p rest induction =>
      rw [List.flatMap_cons, List.filter_cons, induction]
      split <;> rfl

/-- What the implementation's side does after the call. -/
def answer (s : Signature) (r : Registry) (parcel : Java.Variable) :
    Emitter Unit :=
  if s.oneway then pure ()
  else do
    emit (.expr (parcel.call "writeNoException" []))
    sendResult r parcel s.result
    s.parameters.zipIdx.forM fun (p, position) =>
      sendArgument r parcel p position

theorem Sound.exists_answer (sound : s.Sound r) (formed : r.WellFormed)
    {parcel : Java.Variable} (typed : parcel.type = "android.os.Parcel") :
    ∃ code, (∀ loader, s.answer r parcel loader = ⟨code, loader, .ok ()⟩) ∧
      (s.oneway → code = []) ∧
      ∀ {m : Platform} {v : State} {id : Nat} {result : Datum}
          {returned : Parameter → Datum},
        v.env.get? parcel = some (.parcel id) →
        (∀ t, s.result = some t → ∃ z, v.env.get? (t.variableNamed resultName) =
          some z ∧ t.Shows v.heap z result ∧ t.Fits m r result) →
        (∀ e ∈ s.parameters.zipIdx, e.1.direction.isOut →
          ∃ z, v.env.get? (argumentVariable e.1 e.2) = some z ∧
            e.1.type.Shows v.heap z (returned e.1) ∧
            e.1.type.Fits m r (returned e.1)) →
        Block.exec m code v =
          some (v.append id (s.replyTokens r result returned)) := by
  unfold replyTokens answer
  by_cases oneway : s.oneway
  · refine ⟨[], fun _ => by rw [if_pos oneway]; rfl, fun _ => rfl,
      fun _ _ _ => ?_⟩
    rw [if_pos oneway]
    exact congrArg some (State.append_nil _ _).symm
  · have arguments : ∀ e ∈ s.parameters.zipIdx, e.1.Sound r := fun e listed =>
      sound.parameters e.1 (List.fst_mem_of_mem_zipIdx listed)
    obtain ⟨first, sent, appended⟩ := sound.appends_sendResult formed typed
    obtain ⟨second, done, written⟩ := exists_forM_appends fun e listed =>
      (arguments e listed).appends_sendArgument formed typed e.2
    refine ⟨.expr (parcel.call "writeNoException" []) :: (first ++ second),
      ?_, ?_, ?_⟩
    · intro loader
      rw [if_neg oneway]
      exact run_bind_eq (run_emit _ _) (run_bind_eq (sent loader) (done loader))
    · exact fun waits => absurd waits oneway
    · intro m v id result returned bound given returns
      let tokens (p : Parameter) := p.type.tokens r (returned p)
      have wanted :
          s.parameters.zipIdx.flatMap
            (fun e => if e.1.direction.isOut then tokens e.1 else []) =
              s.returnedTokens r returned :=
        (flatMap_zipIdx (fun p => if p.direction.isOut then tokens p else [])
          s.parameters).trans (flatMap_outParameters tokens s)
      have first :=
        appended (m := m) (s := v.append id [⟨.noException, .null⟩]) bound given
      have others :=
        written (m := m) (s := (v.append id [⟨.noException, .null⟩]).append id
            (s.resultTokens r result)) bound returns
      rw [Block.exec_cons_of_eq_some (exec_writeNoException bound),
        Block.exec_append_of_eq_some first, others, wanted, if_neg oneway,
        State.append_append, State.append_append]
      rfl

/-- What the caller's side does after it has transacted: it takes the result,
and then what comes back in parameters. -/
def collect (s : Signature) (r : Registry) (parcel : Java.Variable) :
    Emitter Unit :=
  if s.oneway then pure ()
  else do
    emit (.expr (parcel.call "readException" []))
    receiveResult r parcel s.result
    s.outParameters.forM (receiveParameter r parcel)

theorem Sound.exists_refill (sound : s.Sound r) (formed : r.WellFormed)
    (m : Platform) {parcel : Java.Variable}
    (typed : parcel.type = "android.os.Parcel") (held : Bool) :
    ∃ code late, s.outParameters.forM (receiveParameter r parcel) (slot held) =
        ⟨code, slot late, .ok ()⟩ ∧
      ∀ {w : State} {id : Nat} {returned : Parameter → Datum}
          {rest : List Token},
        w.env.get? parcel = some (.parcel id) → Loaded held w.env →
        (∀ p ∈ s.outParameters, p.type.Fits m r (returned p)) →
        (∀ p ∈ s.outParameters, ∃ x, w.env.get? p.callerVariable = some x ∧
          p.type.Takes w.heap x (returned p)) →
        w.parcels id = s.returnedTokens r returned ++ rest →
        ∃ w', ReadsBack m r id returned s.outParameters code w w' ∧
          w'.parcels = (w.setParcel id rest).parcels := by
  have parameter : ∀ p ∈ s.outParameters, p.Sound r ∧ p.direction.isOut := by
    intro p listed
    obtain ⟨member, out⟩ := List.mem_filter.mp listed
    exact ⟨sound.parameters p member, out⟩
  obtain ⟨code, late, emitted, turns⟩ := exists_turns
    (fun p (listed : p ∈ s.outParameters) =>
      (parameter p listed).1.type.exists_fills formed m
        ((parameter p listed).1.comesBack (parameter p listed).2)
        ((parameter p listed).1.type.plain formed p.name) typed)
    held
  refine ⟨code, late, emitted, fun bound loaded fits takes front => ?_⟩
  exact exists_readsBack turns typed
    (fun p listed =>
      (parameter p listed).1.outVariable formed (parameter p listed).2)
    fits bound loaded takes (Heap.changed_refl _ _) front

theorem Sound.plain_result (sound : s.Sound r) (formed : r.WellFormed)
    {t : ValueType} (listed : t ∈ s.result.toList) :
    Plain (t.variableNamed resultName) :=
  (sound.result t (Option.mem_toList.mp listed)).plain formed resultName

theorem Sound.exists_collect (sound : s.Sound r) (formed : r.WellFormed)
    (makes : m.MakesContainers r) {parcel : Java.Variable}
    (typed : parcel.type = "android.os.Parcel") :
    ∃ first second late,
        s.collect r parcel (slot false) = ⟨first ++ second, slot late, .ok ()⟩ ∧
      (s.oneway → first = [] ∧ second = []) ∧
      ∀ {t : State} {id : Nat} {result : Datum} {returned : Parameter → Datum}
          {rest : List Token},
        t.env.get? parcel = some (.parcel id) →
        (∀ type ∈ s.result, type.Fits m r result) →
        (∀ p ∈ s.outParameters, p.type.Fits m r (returned p)) →
        t.parcels id = s.replyTokens r result returned ++ rest →
        ∃ middle w, Block.exec m first t = some w ∧
          AllCreated middle
            (fun type : ValueType => type.variableNamed resultName)
            s.result.toList id (s.returnedTokens r returned ++ rest)
            (fun type h z => type.Shows h z result) t w ∧
          ((∀ p ∈ s.outParameters, ∃ x, w.env.get? p.callerVariable = some x ∧
              p.type.Takes w.heap x (returned p)) →
            ∃ w', ReadsBack m r id returned s.outParameters second w w' ∧
              w'.parcels = (t.setParcel id rest).parcels) := by
  unfold replyTokens collect
  by_cases oneway : s.oneway
  · obtain ⟨none, closed⟩ := sound.oneway oneway
    have nobody : s.outParameters = [] :=
      List.filter_eq_nil_iff.mpr fun p listed => by simp [closed p listed]
    refine ⟨[], [], false, by rw [if_pos oneway]; rfl, fun _ => ⟨rfl, rfl⟩, ?_⟩
    intro t id result returned rest bound fits returns front
    rw [if_pos oneway] at front
    have same : t.setParcel id rest = t := setParcel_parcels front
    refine ⟨false, t, rfl,
      ⟨⟨[], rfl, nofun⟩, ?_, ⟨[], (List.append_nil _).symm⟩, ?_, nofun⟩, ?_⟩
    · simp [none]
    · rw [returnedTokens, nobody]
      exact congrArg _ same.symm
    · rw [nobody]
      exact fun _ => ⟨t, .nil t, congrArg _ same.symm⟩
  · obtain ⟨first, middle, received, created⟩ :=
      sound.exists_receiveResult formed makes typed
    obtain ⟨second, late, emitted, reads⟩ :=
      sound.exists_refill formed m typed middle
    refine ⟨.expr (parcel.call "readException" []) :: first, second, late,
      ?_, ?_, ?_⟩
    · rw [if_neg oneway, List.cons_append]
      exact run_bind_eq (run_emit _ _) (run_bind_eq received emitted)
    · exact fun waits => absurd waits oneway
    · intro t id result returned rest bound fits returns front
      rw [if_neg oneway, List.cons_append, List.append_assoc] at front
      obtain ⟨w, ran, all⟩ :=
        created (u := t.setParcel id
            (s.resultTokens r result ++ (s.returnedTokens r returned ++ rest)))
          bound fits (State.parcels_setParcel_self _ _ _)
      have left : w.parcels =
          (t.setParcel id (s.returnedTokens r returned ++ rest)).parcels :=
        all.parcels.trans (State.parcels_setParcel_of_eq t id _ rfl)
      refine ⟨middle, w, ?_,
        ⟨all.scope, all.shown, all.heap, left, all.loaded⟩, ?_⟩
      · rw [Block.exec_cons_of_eq_some (exec_readException bound front)]
        exact ran
      · intro takes
        have stillBound : w.env.get? parcel = some (.parcel id) :=
          (all.get?_eq fun type listed v helper =>
            helper.ne_parcel typed
              (sound.plain_result formed listed).parcel).trans bound
        obtain ⟨w', done, emptied⟩ := reads stillBound all.loaded returns takes
          (by rw [left, State.parcels_setParcel_self])
        exact ⟨w', done,
          emptied.trans (State.parcels_setParcel_of_eq t id _ left)⟩

end Signature

end Method

end BinderIdl
