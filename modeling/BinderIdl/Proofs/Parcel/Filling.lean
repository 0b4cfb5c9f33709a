import BinderIdl.Proofs.Java.Heap
import BinderIdl.Proofs.Parcel.Creating

namespace BinderIdl.Parcel

open Java BinderIdl.Types Emitter

variable {m : Platform} {r : Registry} {s : State} {value parcel : Variable}
  {id : Nat}
variable {rest : List Token}

theorem setParcel_parcels (front : s.parcels id = rest) :
    s.setParcel id rest = s := by
  obtain ⟨env, heap, parcels⟩ := s
  simp only [State.setParcel, State.mk.injEq, true_and]
  funext other
  split
  · next same => rw [same]; exact front.symm
  · rfl

theorem exec_sizedLoop {n : Int} {items : List Datum}
    (bound : s.env.get? (sizeVariable value) = some (.int n))
    (counted : n.toNat = items.length) {tokens : Datum → List Token}
    (front : s.parcels id = items.flatMap tokens ++ rest) (body : Block)
    (Inv : List Datum → Heap → Prop) (start : Inv [] s.heap)
    (turn : ∀ (t : State) {done todo : List Datum} {e : Datum}
      {more : List Token}, items = done ++ e :: todo →
        t.env = (indexVariable value, some (.int done.length)) :: s.env →
        Inv done t.heap → t.parcels id = tokens e ++ more →
        ∃ s', Block.exec m body t = some s' ∧
          (∃ added, s'.env = added ++ t.env) ∧ Inv (done ++ [e]) s'.heap ∧
          s'.parcels = (t.setParcel id more).parcels) :
    ∃ heap, Stmt.exec m (sizedLoop value body) s =
      some { s.setParcel id rest with heap := heap } ∧ Inv items heap := by
  have apart : indexVariable value ≠ sizeVariable value :=
    derived_ne_derived value _ _ (by decide)
  let Left (k : Nat) (h : Heap) (p : Nat → List Token) : Prop :=
    Inv (items.take k) h ∧
    p = (s.setParcel id ((items.drop k).flatMap tokens ++ rest)).parcels
  have first : Left 0 s.heap s.parcels :=
    ⟨start, by rw [List.drop_zero, setParcel_parcels front]⟩
  have step (k : Nat) (h : Heap) (p : Nat → List Token) (more : (k : Int) < n)
      (left : Left k h p) : ∃ s',
        Block.exec m body
          ⟨(indexVariable value, some (.int k)) :: s.env, h, p⟩ = some s' ∧
        (∃ added,
          s'.env = added ++ (indexVariable value, some (.int k)) :: s.env) ∧
        Left (k + 1) s'.heap s'.parcels := by
    obtain ⟨inv, rfl⟩ := left
    have inside : k < items.length := by omega
    have behind := List.drop_eq_getElem_cons inside
    have split : items = items.take k ++ items[k] :: items.drop (k + 1) := by
      rw [← behind, List.take_append_drop]
    have depth : (items.take k).length = k := by
      rw [List.length_take]
      omega
    have tokensLeft :
        (s.setParcel id ((items.drop k).flatMap tokens ++ rest)).parcels id =
          tokens items[k] ++ ((items.drop (k + 1)).flatMap tokens ++ rest) := by
      rw [behind, List.flatMap_cons, List.append_assoc,
        State.parcels_setParcel_self]
    obtain ⟨s', ran, scope, next, taken⟩ :=
      turn ⟨(indexVariable value, some (.int k)) :: s.env, h, _⟩ split
        (by rw [depth]) inv tokensLeft
    rw [List.take_append_getElem inside] at next
    exact ⟨s', ran, scope, next,
      taken.trans (State.parcels_setParcel_of_eq s id _ rfl)⟩
  obtain ⟨heap, parcels, looped, inv, emptied⟩ :=
    exec_countUp bound apart Left first step
  refine ⟨heap, ?_, by simpa [counted] using inv⟩
  rw [counted, List.drop_length] at emptied
  subst emptied
  exact looped

/-- Code takes the tokens of an element off a parcel and adds the element to the
container that a variable holds. -/
def Adds (m : Platform) (value parcel : Variable) (held : Bool)
    (fits : Datum → Prop) (apart : Datum → Datum → Prop)
    (tokens : Datum → List Token) (code : Block) : Prop :=
  ∀ {s : State} {id a : Nat} {old : List Datum} {e : Datum} {rest : List Token},
    s.env.get? value = some (.ref a) →
    s.heap[a]? = some (.data (.collection old)) →
    s.env.get? parcel = some (.parcel id) → Loaded held s.env →
    fits e → (∀ o ∈ old, apart o e) → s.parcels id = tokens e ++ rest →
    ∃ s', Block.exec m code s = some s' ∧ (∃ added, s'.env = added ++ s.env) ∧
      s.heap.Updated a (.data (.collection (old ++ [e]))) s'.heap ∧
      s'.parcels = (s.setParcel id rest).parcels

theorem exec_add {item : Variable} {a : Nat} {old : List Datum} {x : Value}
    {e : Datum} (bound : s.env.get? value = some (.ref a))
    (known : s.heap[a]? = some (.data (.collection old)))
    (itemBound : s.env.get? item = some x) (shown : s.heap.Item x e) :
    Stmt.exec m (addElement value item) s =
      some (s.replace a (.data (.collection (old ++ [e])))) := by
  simp [addElement, Stmt.exec, Variable.call, Expr.eval, Expr.evalAll,
    eval_ref bound, eval_ref itemBound, Platform.call, known, callObject,
    shown.item?]

theorem put_eq_append {m : Platform} {k v : Datum} {old : List Datum}
    (apart : ∀ o ∈ old, m.KeysApart o (.entry k v)) :
    Datum.put m.sameKey k v old = old ++ [.entry k v] := by
  induction old with
  | nil => rfl
  | cons o others induction =>
      obtain ⟨first, later⟩ := List.forall_mem_cons.mp apart
      cases o with
      | entry k' v' =>
          have different : m.sameKey k' k = false := first
          simp [Datum.put, different, induction later]
      | _ => simp [Datum.put, induction later]

theorem exec_put {key val : Variable} {a : Nat} {old : List Datum} {x y : Value}
    {k v : Datum} (bound : s.env.get? value = some (.ref a))
    (known : s.heap[a]? = some (.data (.collection old)))
    (keyBound : s.env.get? key = some x) (keyShown : s.heap.Item x k)
    (valBound : s.env.get? val = some y) (valShown : s.heap.Item y v)
    (apart : ∀ o ∈ old, m.KeysApart o (.entry k v)) :
    Stmt.exec m (putEntry value key val) s =
      some (s.replace a (.data (.collection (old ++ [.entry k v])))) := by
  simp [putEntry, Stmt.exec, Variable.call, Expr.eval, Expr.evalAll,
    eval_ref bound, eval_ref keyBound, eval_ref valBound, Platform.call, known,
    callObject, keyShown.item?, valShown.item?, put_eq_append apart]

theorem adds_element {element : Descriptor} {held late : Bool} {code : Block}
    (plain : Plain value)
    (creates :
      CreatesWhole element (itemVariable value element) parcel held late code) :
    Adds m value parcel held (fun e => element.fits e)
      (fun _ _ => True) element.tokens
      (code ++ [addElement value (itemVariable value element)]) := by
  intro s id a old e rest bound known parcelBound loaded fits _ front
  obtain ⟨s', ran, ⟨added, scope, helpers⟩, ⟨x, itemBound, shown⟩, ⟨more, heap⟩,
      parcels, _⟩ :=
    creates (m := m) parcelBound loaded fits front
  have bound' : s'.env.get? value = some (.ref a) := by
    rw [scope, Env.get?_append_of_forall_ne]
    · exact bound
    · exact fun entry listed => (helpers entry listed).ne_owner plain.loader
  have known' : s'.heap[a]? = some (.data (.collection old)) := by
    rw [heap]
    exact Heap.getElem?_append_of_eq_some known more
  refine ⟨s'.replace a _, ?_, ⟨added, scope⟩,
    ⟨more, congrArg (List.set · a _) heap⟩, parcels⟩
  rw [Block.exec_append_of_eq_some ran, Block.exec_singleton]
  exact exec_add bound' known' itemBound shown

/-- The key of an entry is created before its value. -/
theorem adds_entry {key val : Descriptor} {held middle late : Bool}
    {keyCode valCode : Block} (typed : parcel.type = "android.os.Parcel")
    (plain : Plain value) (keyPlain : Plain (entryKeyVariable value key))
    (keyCreates :
      CreatesWhole key (entryKeyVariable value key) parcel held middle keyCode)
    (valCreates : CreatesWhole val (entryValueVariable value val) parcel middle
      late valCode) :
    Adds m value parcel held
      (fun e => ∃ k v, e = Datum.ofPair (k, v) ∧ key.fits k ∧ val.fits v)
      m.KeysApart (entryTokens key.tokens val.tokens)
      (keyCode ++ (valCode ++ [putEntry value (entryKeyVariable value key)
        (entryValueVariable value val)])) := by
  rintro s id a old _ rest bound known parcelBound loaded
    ⟨k, v, rfl, keyFits, valFits⟩ apart front
  have tokens : s.parcels id = key.tokens k ++ (val.tokens v ++ rest) := by
    rw [front, ← List.append_assoc]
    rfl
  obtain ⟨first, keyRan, ⟨keyAdded, keyScope, keyHelpers⟩,
      ⟨x, keyBound, keyShown⟩, ⟨keyMore, keyHeap⟩, keyParcels, keyLoaded⟩ :=
    keyCreates (m := m) parcelBound loaded keyFits tokens
  have parcelBound' : first.env.get? parcel = some (.parcel id) := by
    rw [keyScope, Env.get?_append_of_forall_ne]
    · exact parcelBound
    · exact fun entry listed =>
        (keyHelpers entry listed).ne_parcel typed keyPlain.parcel
  have front' : first.parcels id = val.tokens v ++ rest := by
    rw [keyParcels, State.parcels_setParcel_self]
  obtain ⟨second, valRan, ⟨valAdded, valScope, valHelpers⟩,
      ⟨y, valBound, valShown⟩, ⟨valMore, valHeap⟩, valParcels, _⟩ :=
    valCreates (m := m) parcelBound' keyLoaded valFits front'
  have bound' : second.env.get? value = some (.ref a) := by
    rw [valScope, Env.get?_append_of_forall_ne, keyScope,
      Env.get?_append_of_forall_ne]
    · exact bound
    · exact fun entry listed => (keyHelpers entry listed).ne_owner plain.loader
    · exact fun entry listed => (valHelpers entry listed).ne_owner plain.loader
  have keyBound' : second.env.get? (entryKeyVariable value key) = some x := by
    rw [valScope, Env.get?_append_of_forall_ne]
    · exact keyBound
    · exact fun entry listed =>
        (valHelpers entry listed).ne_derived keyPlain.loader (by decide)
          (by decide) (by decide) (by decide)
  have heap : second.heap = s.heap ++ (keyMore ++ valMore) := by
    rw [valHeap, keyHeap, List.append_assoc]
  have known' : second.heap[a]? = some (.data (.collection old)) := by
    rw [heap]
    exact Heap.getElem?_append_of_eq_some known _
  have keyShown' : second.heap.Item x k := by
    rw [valHeap]
    exact keyShown.append valMore
  refine ⟨second.replace a _, ?_, ⟨valAdded ++ keyAdded, ?_⟩,
    ⟨keyMore ++ valMore, congrArg (List.set · a _) heap⟩, ?_⟩
  · rw [Block.exec_append_of_eq_some keyRan,
      Block.exec_append_of_eq_some valRan, Block.exec_singleton]
    exact exec_put bound' known' keyBound' keyShown' valBound valShown apart
  · exact valScope.trans (by rw [keyScope, List.append_assoc])
  · exact valParcels.trans (State.parcels_setParcel_of_eq s id rest keyParcels)

/-- An emitter of such code, which finds the class loader declared if
it needs that. -/
def EmitsAdding (m : Platform) (value parcel : Variable) (needed : Bool)
    (fits : Datum → Prop) (apart : Datum → Datum → Prop)
    (tokens : Datum → List Token) (e : Emitter Unit) : Prop :=
  ∀ held : Bool, (needed → held) → ∃ code, e (slot held) =
    ⟨code, slot held, .ok ()⟩ ∧ Adds m value parcel held fits apart tokens code

theorem or_eq_of_imp {held needed : Bool} (ready : needed → held) :
    (held || needed) = held := by
  cases needed with
  | false => exact Bool.or_false held
  | true => rw [ready rfl]; rfl

theorem ne_helper_of_isWhole {d : Descriptor} (whole : d.strategy.isWhole) :
    d.strategy ≠ .helper := by
  intro helper
  simp [helper, Strategy.isWhole] at whole

theorem run_bind_of_eq {α : Type} {first : Emitter Unit}
    {next : Unit → Emitter α} {c : Block} {before after : Option Variable}
    (ran : first before = ⟨c, after, .ok ()⟩) :
    (first >>= next) before = ⟨c ++ (next () after).code,
      (next () after).loader, (next () after).outcome⟩ := by
  rw [run_bind_ok (a := ()) (by rw [ran]), ran]

theorem run_nested_emit {body : Emitter Unit} {code : Block}
    {before after : Option Variable}
    (emitted : body before = ⟨code, after, .ok ()⟩) (stmt : Block → Stmt) :
    (nested body >>= fun code => emit (stmt code)) before =
      ⟨[stmt code], after, .ok ()⟩ := by
  have inner : nested body before = ⟨[], after, .ok code⟩ := by
    simp [nested, emitted, Except.map]
  rw [run_bind_ok (a := code) (by rw [inner]), inner]
  rfl

theorem emitsAdding_fillElement (m : Platform) (formed : r.WellFormed)
    {h : Handle} {element : Descriptor} (known : r.get? h = some element)
    (whole : element.strategy.isWhole)
    (typed : parcel.type = "android.os.Parcel") (plain : Plain value) :
    EmitsAdding m value parcel element.strategy.looksUpClasses
      (fun e => element.fits e) (fun _ _ => True) element.tokens
      (fillElement value element fun v => createWhole r element v parcel) := by
  intro held ready
  have itemPlain : Plain (itemVariable value element) :=
    plain_of_qualifiedName formed known (ne_helper_of_isWhole whole) rfl
  obtain ⟨code, emitted, creates⟩ := emitsCreation_createWhole formed known
    whole itemPlain.loader typed (itemPlain.ne_parcel typed) held
  rw [or_eq_of_imp ready] at emitted
  exact ⟨_, run_bind_of_eq emitted, adds_element plain creates⟩

theorem emitsAdding_fillEntry (m : Platform) (formed : r.WellFormed)
    {h k : Handle} {key val : Descriptor} (keyKnown : r.get? h = some key)
    (keyWhole : key.strategy.isWhole) (valKnown : r.get? k = some val)
    (valWhole : val.strategy.isWhole)
    (typed : parcel.type = "android.os.Parcel") (plain : Plain value) :
    EmitsAdding m value parcel
      (key.strategy.looksUpClasses || val.strategy.looksUpClasses)
      (fun e => ∃ k v, e = Datum.ofPair (k, v) ∧ key.fits k ∧ val.fits v)
      m.KeysApart (entryTokens key.tokens val.tokens) (fillEntry value key val
        (fun v => createWhole r key v parcel) fun v =>
          createWhole r val v parcel) := by
  intro held ready
  have keyReady : key.strategy.looksUpClasses → held :=
    fun looks => ready (by rw [looks]; rfl)
  have valReady : val.strategy.looksUpClasses → held := fun looks =>
    ready (by rw [looks, Bool.or_true])
  have keyPlain : Plain (entryKeyVariable value key) :=
    plain_of_qualifiedName formed keyKnown (ne_helper_of_isWhole keyWhole) rfl
  have valPlain : Plain (entryValueVariable value val) :=
    plain_of_qualifiedName formed valKnown (ne_helper_of_isWhole valWhole) rfl
  obtain ⟨keyCode, keyEmitted, keyCreates⟩ := emitsCreation_createWhole formed
    keyKnown keyWhole keyPlain.loader typed (keyPlain.ne_parcel typed) held
  obtain ⟨valCode, valEmitted, valCreates⟩ := emitsCreation_createWhole formed
    valKnown valWhole valPlain.loader typed (valPlain.ne_parcel typed) held
  rw [or_eq_of_imp keyReady] at keyEmitted keyCreates
  rw [or_eq_of_imp valReady] at valEmitted
  refine ⟨_, ?_, adds_entry typed plain keyPlain keyCreates valCreates⟩
  rw [fillEntry, run_bind_of_eq keyEmitted, run_bind_of_eq valEmitted]
  rfl

/-- A type of containers: creating and reading a value both run the same body
once for each element. -/
structure IsContainer (m : Platform) (r : Registry) (d : Descriptor)
    (value parcel : Variable) (body : Emitter Unit) (fits : Datum → Prop)
    (apart : Datum → Datum → Prop) (tokens : Datum → List Token) : Prop where
  create : create r d value parcel =
    (acquireIf r (r.needsClassLoader d) >>= fun _ =>
      createContainer value parcel (.new d.instantiable []) body)
  read : (r.layout d).read r parcel value =
    (acquireIf r (r.needsClassLoader d) >>= fun _ =>
      refillContainer value parcel body)
  adds :
    EmitsAdding m value parcel (r.needsClassLoader d) fits apart tokens body
  fits : ∀ {y}, (r.layout d).Fits m y → y = .null ∨
    ∃ items,
      y = .collection items ∧ (∀ e ∈ items, fits e) ∧ items.Pairwise apart
  tokens : (r.layout d).tokens = sizedTokens tokens

theorem needsClassLoader_of_isWhole {d : Descriptor}
    (whole : d.strategy.isWhole) :
    r.needsClassLoader d = d.strategy.looksUpClasses :=
  Registry.needsClassLoader_eq_of_not_generic
    (Descriptor.ne_generic_of_isWhole whole)

theorem exists_isContainer (m : Platform) (formed : r.WellFormed)
    {d : Descriptor} (carried : r.Carried d) {arguments : TypeArguments}
    (generic : d.strategy = .generic arguments)
    (typed : parcel.type = "android.os.Parcel") (plain : Plain value) :
    ∃ body fits apart tokens,
      IsContainer m r d value parcel body fits apart tokens := by
  cases carried with
  | whole whole =>
      exact absurd generic (Descriptor.ne_generic_of_isWhole whole arguments)
  | @elements element arguments part generic single known whole =>
      have layout := Registry.layout_of_elements generic single known whole
      have needs : r.needsClassLoader d = element.strategy.looksUpClasses := by
        rw [Registry.needsClassLoader_eq_any_parts generic]
        simp [single, known, needsClassLoader_of_isWhole whole]
      refine ⟨_, _, _, _, ?_, ?_, needs ▸
        emitsAdding_fillElement m formed known whole typed plain, ?_, ?_⟩
      · rw [create, layout]
        rfl
      · rw [layout]
        rfl
      · intro y fits
        rw [layout] at fits
        rcases fits with null | ⟨items, same, fits⟩
        · exact .inl null
        · exact .inr ⟨items, same, fits,
            List.pairwise_of_forall fun _ _ => trivial⟩
      · rw [layout]
        rfl
  | @entries key val arguments first second generic pair keyKnown keyWhole
      valKnown valWhole =>
      have layout := Registry.layout_of_entries generic pair keyKnown keyWhole
        valKnown valWhole
      have needs : r.needsClassLoader d =
          (key.strategy.looksUpClasses || val.strategy.looksUpClasses) := by
        rw [Registry.needsClassLoader_eq_any_parts generic]
        simp [pair, keyKnown, valKnown, needsClassLoader_of_isWhole keyWhole,
          needsClassLoader_of_isWhole valWhole]
      refine ⟨_, _, _, _, ?_, ?_, needs ▸ emitsAdding_fillEntry m formed
        keyKnown keyWhole valKnown valWhole typed plain, ?_, ?_⟩
      · rw [create, layout]
        rfl
      · rw [layout]
        rfl
      · intro y fits
        rw [layout] at fits
        rcases fits with null | ⟨pairs, same, fits, different⟩
        · exact .inl null
        · refine .inr ⟨_, same, ?_, ?_⟩
          · intro e listed
            obtain ⟨⟨k, v⟩, pairListed, rfl⟩ := List.mem_map.mp listed
            exact ⟨k, v, rfl, fits _ pairListed⟩
          · exact List.pairwise_map.mpr different
      · rw [layout]
        rfl

end BinderIdl.Parcel
