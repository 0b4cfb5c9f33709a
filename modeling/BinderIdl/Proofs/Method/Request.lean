import BinderIdl.Proofs.Parcel.Reading
import BinderIdl.Proofs.Parcel.Writing
import Std.Data.String.ToNat

namespace BinderIdl.Method

open Java BinderIdl.Types Parcel Emitter

variable {m : Platform} {r : Registry} {p : Parameter} {parcel : Variable}
  {s : State} {id : Nat}
variable {y : Datum} {rest : List Token}

/-- There is code that appends the tokens of a datum, given that the
datum is there. -/
def Appends (parcel : Variable) (Given : Platform → Env → Heap → Datum → Prop)
    (tokens : Datum → List Token) (e : Emitter Unit) : Prop :=
  ∃ code, (∀ loader, e loader = ⟨code, loader, .ok ()⟩) ∧
    ∀ {m : Platform} {s : State} {id : Nat} {y : Datum},
      s.env.get? parcel = some (.parcel id) → Given m s.env s.heap y →
      Block.exec m code s = some (s.append id (tokens y))

theorem run_bind_eq {first : Emitter Unit} {next : Unit → Emitter Unit}
    {c c' : Block} {before middle after : Option Variable}
    (ran : first before = ⟨c, middle, .ok ()⟩)
    (later : next () middle = ⟨c', after, .ok ()⟩) :
    (first >>= next) before = ⟨c ++ c', after, .ok ()⟩ := by
  rw [run_bind_of_eq ran, later]

theorem exists_forM_appends {ι : Type}
    {Given : ι → Platform → Env → Heap → Datum → Prop}
    {tokens : ι → Datum → List Token} {f : ι → Emitter Unit} {xs : List ι}
    (each : ∀ x ∈ xs, Appends parcel (Given x) (tokens x) (f x)) :
    ∃ code, (∀ loader, xs.forM f loader = ⟨code, loader, .ok ()⟩) ∧
      ∀ {m : Platform} {s : State} {id : Nat} {content : ι → Datum},
        s.env.get? parcel = some (.parcel id) →
        (∀ x ∈ xs, Given x m s.env s.heap (content x)) → Block.exec m code s =
          some (s.append id (xs.flatMap fun x => tokens x (content x))) := by
  induction xs with
  | nil =>
      exact ⟨[], fun _ => rfl,
        fun _ _ => congrArg some (State.append_nil _ _).symm⟩
  | cons x others induction =>
      obtain ⟨here, later⟩ := List.forall_mem_cons.mp each
      obtain ⟨first, emitted, wrote⟩ := here
      obtain ⟨second, done, written⟩ := induction later
      refine ⟨first ++ second,
        fun loader => run_bind_eq (emitted loader) (done loader), ?_⟩
      intro m s id content bound given
      obtain ⟨now, after⟩ := List.forall_mem_cons.mp given
      have more := written (s := s.append id (tokens x (content x))) bound after
      rw [Block.exec_append_of_eq_some (wrote bound now), more,
        List.flatMap_cons, State.append_append]

/-- The code of a loop of emitters: that of its turns, one behind the other. -/
inductive Turns {ι : Type} (Turn : ι → Bool → Bool → Block → Prop) :
    List ι → Bool → Bool → Block → Prop where
  | nil (held : Bool) : Turns Turn [] held held []
  | cons {x : ι} {others : List ι} {held middle late : Bool}
      {first second : Block} : Turn x held middle first →
        Turns Turn others middle late second →
        Turns Turn (x :: others) held late (first ++ second)

theorem exists_turns {ι : Type} {Turn : ι → Bool → Bool → Block → Prop}
    {f : ι → Emitter Unit} {xs : List ι}
    (each : ∀ x ∈ xs, ∀ held, ∃ code late,
      f x (slot held) = ⟨code, slot late, .ok ()⟩ ∧ Turn x held late code)
    (held : Bool) :
    ∃ code late, xs.forM f (slot held) = ⟨code, slot late, .ok ()⟩ ∧
      Turns Turn xs held late code := by
  induction xs generalizing held with
  | nil => exact ⟨[], held, rfl, .nil held⟩
  | cons x others induction =>
      obtain ⟨here, later⟩ := List.forall_mem_cons.mp each
      obtain ⟨first, middle, emitted, turn⟩ := here held
      obtain ⟨second, late, done, turns⟩ := induction later middle
      exact ⟨first ++ second, late, run_bind_eq emitted done, .cons turn turns⟩

section

variable {ι : Type} {value : ι → Variable} {Fits : ι → Datum → Prop}
variable {tokens : ι → Datum → List Token}
  {Shown : ι → Datum → Heap → Value → Prop}

/-- What code has done that creates the values of several data. -/
structure AllCreated (held : Bool) (value : ι → Variable) (xs : List ι)
    (id : Nat) (rest : List Token) (Shown : ι → Heap → Value → Prop)
    (s s' : State) : Prop where
  scope : ∃ added, s'.env = added ++ s.env ∧
    ∀ entry ∈ added, ∃ x ∈ xs, Helper (value x) entry.1
  shown : ∀ x ∈ xs, ∃ z, s'.env.get? (value x) = some z ∧ Shown x s'.heap z
  heap : ∃ more, s'.heap = s.heap ++ more
  parcels : s'.parcels = (s.setParcel id rest).parcels
  loaded : Loaded held s'.env

theorem AllCreated.get?_eq {held : Bool} {xs : List ι}
    {Shown : ι → Heap → Value → Prop} {s' : State}
    (created : AllCreated held value xs id rest Shown s s') {v : Variable}
    (apart : ∀ x ∈ xs, ∀ w, Helper (value x) w → w ≠ v) :
    s'.env.get? v = s.env.get? v := by
  obtain ⟨added, scope, helpers⟩ := created.scope
  rw [scope, Env.get?_append_of_forall_ne]
  intro entry listed
  obtain ⟨x, member, helper⟩ := helpers entry listed
  exact apart x member entry.1 helper

theorem exists_allCreated {xs : List ι} {held late : Bool} {code : Block}
    (turns : Turns
      (fun x held late code =>
        Creates m (value x) parcel held late (Fits x) (tokens x) (Shown x) code)
      xs held late code)
    (typed : parcel.type = "android.os.Parcel")
    (plain : ∀ x ∈ xs, (value x).type ≠ "android.os.Parcel")
    (apart : xs.Pairwise fun x y => ∀ v, Helper (value y) v → v ≠ value x)
    (kept : ∀ x d h z more, Shown x d h z → Shown x d (h ++ more) z)
      {content : ι → Datum}
    (bound : s.env.get? parcel = some (.parcel id)) (loaded : Loaded held s.env)
    (fits : ∀ x ∈ xs, Fits x (content x))
    (front : s.parcels id =
      xs.flatMap (fun x => tokens x (content x)) ++ rest) :
    ∃ s', Block.exec m code s = some s' ∧
      AllCreated late value xs id rest (fun x => Shown x (content x)) s s' := by
  induction turns generalizing s with
  | nil held =>
      exact ⟨s, rfl, ⟨[], rfl, nofun⟩, nofun, ⟨[], (List.append_nil _).symm⟩,
        congrArg _ (setParcel_parcels front).symm, loaded⟩
  | @cons x others held middle late first second turn turns induction =>
      obtain ⟨herePlain, laterPlain⟩ := List.forall_mem_cons.mp plain
      obtain ⟨hereApart, laterApart⟩ := List.pairwise_cons.mp apart
      obtain ⟨hereFits, laterFits⟩ := List.forall_mem_cons.mp fits
      rw [List.flatMap_cons, List.append_assoc] at front
      obtain ⟨t, ran, ⟨added, scope, helpers⟩, ⟨z, zBound, shown⟩, ⟨more, heap⟩,
          parcels, ready⟩ :=
        turn s id (content x) _ bound loaded hereFits front
      have stillBound : t.env.get? parcel = some (.parcel id) := by
        rw [scope, Env.get?_append_of_forall_ne]
        · exact bound
        · exact fun entry listed =>
            (helpers entry listed).ne_parcel typed herePlain
      have tokensLeft : t.parcels id =
          others.flatMap (fun x => tokens x (content x)) ++ rest := by
        rw [parcels, State.parcels_setParcel_self]
      obtain ⟨s', done, ⟨laterAdded, laterScope, laterHelpers⟩, laterShown,
          ⟨extra, grown⟩, emptied, last⟩ :=
        induction laterPlain laterApart stillBound ready laterFits tokensLeft
      refine ⟨s', (Block.exec_append_of_eq_some ran).trans done,
        ⟨laterAdded ++ added, ?_, ?_⟩,
        List.forall_mem_cons.mpr ⟨⟨z, ?_, ?_⟩, laterShown⟩, ⟨more ++ extra, ?_⟩,
        emptied.trans (State.parcels_setParcel_of_eq s id rest parcels), last⟩
      · rw [laterScope, scope, List.append_assoc]
      · intro entry listed
        rcases List.mem_append.mp listed with new | old
        · obtain ⟨y, member, helper⟩ := laterHelpers entry new
          exact ⟨y, List.mem_cons_of_mem x member, helper⟩
        · exact ⟨x, List.mem_cons_self, helpers entry old⟩
      · rw [laterScope, Env.get?_append_of_forall_ne]
        · exact zBound
        · intro entry listed
          obtain ⟨y, member, helper⟩ := laterHelpers entry listed
          exact hereApart y member entry.1 helper
      · rw [grown]
        exact kept _ _ _ _ extra shown
      · rw [grown, heap, List.append_assoc]

end

def parcelNamed (name : String) : Variable := ⟨"android.os.Parcel", name⟩

theorem type_parcelNamed (name : String) :
    (parcelNamed name).type = "android.os.Parcel" := rfl

def lengthToken : Datum → Token
  | .collection items => intToken items.length
  | _ => intToken (-1)

namespace Parameter

/-- The parameter of the caller's side. -/
def callerVariable (p : Parameter) : Variable := p.type.variableNamed p.name

/-- What a parameter is bound to. Its content matters where some of it is sent:
all of it, or the length of an array. -/
def Given (r : Registry) (p : Parameter) (m : Platform) (env : Env) (h : Heap)
    (y : Datum) : Prop :=
  ∃ x, env.get? p.callerVariable = some x ∧
    (p.direction.isIn ∨ p.type.isArray → p.type.Shows h x y ∧ p.type.Fits m r y)

def requestTokens (r : Registry) (p : Parameter) (y : Datum) : List Token :=
  if p.direction.isIn then p.type.tokens r y
  else if p.type.isArray then [lengthToken y]
  else []

end Parameter

theorem exec_writeLength {value : Variable}
    (bound : s.env.get? parcel = some (.parcel id)) {x : Value}
    (valueBound : s.env.get? value = some x) (array : s.heap.ArrayOf x y) :
    Stmt.exec m (writeSized value parcel (.field value.ref "length") []) s =
      some (s.append id [lengthToken y]) := by
  cases array with
  | null => exact exec_writeSized_of_isNull bound valueBound rfl _ []
  | @array a items ds known elements =>
      have nothing : Block.exec m [] (s.append id [intToken items.length]) =
          some ((s.append id [intToken items.length]).append id []) :=
        congrArg some (State.append_nil _ _).symm
      rw [exec_writeSized bound valueBound rfl (eval_length valueBound known)
        nothing, lengthToken, elements.length_eq]

theorem Parameter.Sound.appends_sendParameter (sound : p.Sound r)
    (formed : r.WellFormed) (typed : parcel.type = "android.os.Parcel") :
    Appends parcel (p.Given r) (p.requestTokens r)
      (sendParameter r parcel p) := by
  unfold sendParameter Parameter.requestTokens
  dsimp only
  split
  · next isIn =>
      obtain ⟨code, emitted, written⟩ :=
        sound.type.exists_write formed p.callerVariable typed .none
      refine ⟨code, emitted, ?_⟩
      rintro m s id y bound ⟨x, valueBound, content⟩
      obtain ⟨shown, fits⟩ := content (.inl isIn)
      exact written bound valueBound shown fits
  · split
    · next array =>
        refine ⟨_, fun _ => rfl, ?_⟩
        rintro m s id y bound ⟨x, valueBound, content⟩
        have shown := (content (.inr array)).1
        rw [ValueType.Shows, if_pos array] at shown
        rw [Block.exec_singleton]
        exact exec_writeLength bound valueBound shown
    · exact ⟨[], fun _ => rfl,
        fun _ _ => congrArg some (State.append_nil _ _).symm⟩

theorem exec_writeInterfaceToken
    (bound : s.env.get? parcel = some (.parcel id)) :
    Stmt.exec m
      (.expr (parcel.call "writeInterfaceToken" [.literal "DESCRIPTOR"])) s =
      some (s.append id [⟨.interfaceName, .text "DESCRIPTOR"⟩]) := by
  have arguments : Expr.evalAll m [.literal "DESCRIPTOR"] s =
      some ([.symbol "DESCRIPTOR"], s) := rfl
  rw [Stmt.exec,
    eval_call_parcel (c := .writeInterfaceName) bound rfl arguments]
  rfl

theorem exec_enforceInterface (bound : s.env.get? parcel = some (.parcel id))
    (front : s.parcels id = ⟨.interfaceName, .text "DESCRIPTOR"⟩ :: rest) :
    Stmt.exec m (.expr (parcel.call "enforceInterface" [.literal "DESCRIPTOR"]))
      s = some (s.setParcel id rest) := by
  have arguments : Expr.evalAll m [.literal "DESCRIPTOR"] s =
      some ([.symbol "DESCRIPTOR"], s) := rfl
  rw [Stmt.exec, eval_call_parcel (c := .enforceInterface) bound rfl arguments]
  simp [ParcelMethod.run, take_eq_some front]

/-- The argument that is made for what was sent. An array that only comes back
has the length of the caller's, anything else that only comes back is new. -/
def Parameter.Receipt (p : Parameter) (m : Platform) (h : Heap) (z : Value)
    (y : Datum) : Prop :=
  if p.direction.isIn then p.type.Shows h z y
  else if p.type.isArray then h.HasRoom z y
  else h.Item z (m.fresh p.type.descriptor.instantiable)

def Parameter.Sendable (p : Parameter) (m : Platform) (r : Registry)
    (y : Datum) : Prop :=
  p.direction.isIn ∨ p.type.isArray → p.type.Fits m r y

theorem eq_of_arrayFits {d : Descriptor} (fits : d.arrayFits y) :
    y = .null ∨ ∃ items, y = .collection items := by
  cases y with
  | null => exact .inl rfl
  | collection items => exact .inr ⟨items, rfl⟩
  | _ =>
      unfold Descriptor.arrayFits at fits
      cases strategy : d.strategy with
      | binder kind =>
          cases kind <;>
            simp [strategy, Tag.admits, Datum.isCollectionOf] at fits
      | _ => simp [strategy, Tag.admits, Datum.isCollectionOf] at fits

theorem exec_allocateArray (d : Descriptor) (value : Variable)
    (bound : s.env.get? parcel = some (.parcel id)) {n : Int}
    (front : s.parcels id = intToken n :: rest) {x : Value} {heap : Heap}
    (evaluated : ∀ t : State,
      t.env.get? (lengthVariable value) = some (.int n) → t.heap = s.heap →
      (if n < 0 then Expr.null
        else .newArray d.importType (lengthVariable value).ref).eval m t =
        some (x, { t with heap := heap })) :
    Block.exec m (allocateArray d value parcel) s =
      some ⟨(value, some x) :: (lengthVariable value, some (.int n)) :: s.env,
        heap, (s.setParcel id rest).parcels⟩ := by
  let ready : State :=
    ⟨(value, none) :: (lengthVariable value, some (.int n)) :: s.env, s.heap,
      (s.setParcel id rest).parcels⟩
  have apart : value ≠ lengthVariable value := (derived_ne_owner value _ _).symm
  have length : ready.env.get? (lengthVariable value) = some (.int n) :=
    (Env.get?_cons_of_ne apart _ _).trans (Env.get?_cons_self _ _ _)
  have read := eval_readInt (m := m) bound front
  have condition := eval_size_lt_zero (m := m) (s := ready) length
  have set := exec_set (m := m) (v := value) (evaluated ready length rfl) rfl
  have branches :
      (if decide (n < 0) then Block.exec m [.set value .null] ready
      else
        Block.exec m
          [.set value (.newArray d.importType (lengthVariable value).ref)]
          ready) =
        some
          ⟨(value, some x) :: (lengthVariable value, some (.int n)) :: s.env,
            heap, ready.parcels⟩ := by
    by_cases negative : n < 0
    · simpa [negative] using set
    · simpa [negative] using set
  have declared :
      Stmt.exec m (.declare (lengthVariable value) (readInt parcel)) s =
        some ((s.setParcel id rest).push (lengthVariable value)
          (some (.int n))) := by
    simp [Stmt.exec, read]
  have unset : Stmt.exec m (.declareUnset value)
      ((s.setParcel id rest).push (lengthVariable value) (some (.int n))) =
      some ready := rfl
  rw [allocateArray, Block.exec_cons_of_eq_some declared,
    Block.exec_cons_of_eq_some unset, Block.exec_singleton]
  simp only [Stmt.exec, condition, branches, Option.bind_eq_bind,
    Option.bind_some, Option.map_some]
  exact congrArg some (State.leave_of_length_eq rfl)

theorem creates_allocateArray (m : Platform) (d : Descriptor) {value : Variable}
    (plain : Plain value) (held : Bool) :
    Creates m value parcel held held
      (fun y => y = .null ∨ ∃ items, y = .collection items)
      (fun y => [lengthToken y])
      (fun y h x => h.HasRoom x y) (allocateArray d value parcel) := by
  intro s id y rest bound loaded fits front
  have created {n : Int} {x : Value} {heap : Heap} (more : List Cell)
      (grown : heap = s.heap ++ more) (room : heap.HasRoom x y) :
      Created held value id rest (fun h x => h.HasRoom x y) s
        ⟨(value, some x) :: (lengthVariable value, some (.int n)) :: s.env,
          heap, (s.setParcel id rest).parcels⟩ := by
    refine ⟨⟨[(value, some x), (lengthVariable value, some (.int n))], rfl, ?_⟩,
      ⟨x, Env.get?_cons_self _ _ _, room⟩, ⟨more, grown⟩, rfl, ?_⟩
    · intro entry listed
      simp only [List.mem_cons, List.not_mem_nil, or_false] at listed
      rcases listed with rfl | rfl
      · exact .self
      · exact .length
    · exact loaded_push (s := s.push (lengthVariable value) (some (.int n)))
        (loaded_push loaded (plain_int rfl).loader _) plain.loader _
  rcases fits with rfl | ⟨items, rfl⟩
  · refine ⟨_, exec_allocateArray d value bound front ?_,
      created [] (List.append_nil _).symm (.inl ⟨rfl, rfl⟩)⟩
    intro t length same
    simp [← same]
  · refine ⟨_, exec_allocateArray (x := .ref s.heap.length) d value bound front
      ?_, created
        [.array (List.replicate items.length (.data (.default d.importType)))]
        rfl (.inr ⟨_, _, items, rfl, List.getElem?_concat_length, rfl,
          List.length_replicate⟩)⟩
    intro t length same
    have natural : ¬ (items.length : Int) < 0 := by omega
    simp [natural, Expr.eval, eval_ref length, Value.int?, Value.int, Datum.int,
      State.allocate, same]

/-- What only comes back and is no array is made without a look
at the parcel. -/
theorem creates_new (m : Platform) (type : String) {value : Variable}
    (plain : Plain value) (held : Bool) (Fits : Datum → Prop) :
    Creates m value parcel held held Fits (fun _ => [])
      (fun _ h x => h.Item x (m.fresh type)) [.declare value
        (.new type [])] := by
  intro s id y rest _ loaded _ front
  obtain ⟨scope, heap, parcels, item⟩ := item_place s (m.fresh type)
  refine ⟨(s.place (m.fresh type)).2.push value
    (some (s.place (m.fresh type)).1), ?_, ?_,
    ⟨_, Env.get?_cons_self _ _ _, item⟩, heap, ?_, ?_⟩
  · simp [Stmt.exec, Expr.eval]
  · refine ⟨[(value, some (s.place (m.fresh type)).1)], congrArg _ scope,
      fun entry listed => ?_⟩
    rw [List.mem_singleton] at listed
    exact listed ▸ .self
  · have same : s.setParcel id rest = s := setParcel_parcels front
    rw [same]
    exact parcels
  · exact loaded_push (scope ▸ loaded) plain.loader _

/-- The argument of a parameter is made of just what was sent for it. -/
theorem Parameter.Sound.exists_receiveArgument (sound : p.Sound r)
    (formed : r.WellFormed) (makes : m.MakesContainers r)
    (typed : parcel.type = "android.os.Parcel") (position : Nat) (held : Bool) :
    ∃ code late,
      receiveArgument r parcel p position (slot held) =
        ⟨code, slot late, .ok ()⟩ ∧
      Creates m (argumentVariable p position) parcel held late (p.Sendable m r)
        (p.requestTokens r) (fun y h x => p.Receipt m h x y) code := by
  have plain : Plain (argumentVariable p position) := sound.type.plain formed _
  unfold receiveArgument Parameter.requestTokens Parameter.Receipt
    Parameter.Sendable
  by_cases isIn : p.direction.isIn
  · obtain ⟨code, late, emitted, creates⟩ :=
      sound.type.exists_creates formed makes plain typed held
    refine ⟨code, late, ?_, ?_⟩
    · rw [if_pos isIn]
      exact emitted
    · simpa only [isIn, if_true, true_or, true_imp_iff] using creates
  · by_cases array : p.type.isArray
    · refine ⟨allocateArray p.type.descriptor (argumentVariable p position)
        parcel, held, ?_, ?_⟩
      · rw [if_neg isIn, if_pos array]
        rfl
      · simp only [isIn, array, Bool.false_eq_true, if_true, if_false, or_true,
          true_imp_iff]
        intro s id y rest bound loaded fits
        rw [ValueType.Fits, if_pos array] at fits
        exact creates_allocateArray m p.type.descriptor plain held s id y rest
          bound loaded (eq_of_arrayFits fits)
    · refine ⟨[.declare (argumentVariable p position)
          (.new p.type.descriptor.instantiable [])], held, ?_, ?_⟩
      · rw [if_neg isIn, if_neg array]
        rfl
      · simp only [isIn, array, Bool.false_eq_true, if_false]
        exact creates_new m _ plain held _

@[simp]
theorem ValueType.name_variableNamed (t : ValueType) (name : String) :
    (t.variableNamed name).name = name := by
  unfold ValueType.variableNamed Descriptor.variableFor
  split <;> rfl

theorem underscore_not_mem_toString (n : Nat) : '_' ∉ (toString n).toList := by
  intro listed
  rw [Nat.toString_eq_ofList_toDigits, String.toList_ofList] at listed
  exact absurd (Nat.isDigit_of_mem_toDigits (by decide) (by decide) listed)
    (by decide)

theorem pairwise_positions {α : Type} (xs : List α) :
    xs.zipIdx.Pairwise fun e e' => e.2 ≠ e'.2 := by
  have distinct : (xs.zipIdx.map Prod.snd).Nodup := by
    rw [List.zipIdx_map_snd]
    exact List.nodup_range' 1
  exact List.pairwise_map.mp distinct

theorem ne_argumentVariable_of_helper {p q : Parameter} {position other : Nat}
    {v : Variable} (helper : Helper (argumentVariable q other) v)
    (apart : position ≠ other) (plain : Plain (argumentVariable p position)) :
    v ≠ argumentVariable p position := by
  have derived (type suffix : String) :
      (argumentVariable q other).derived type suffix ≠
        argumentVariable p position := by
    intro same
    have names := congrArg Variable.name same
    simp only [Variable.derived, argumentVariable, ValueType.name_variableNamed,
      String.append_assoc, String.append_right_inj] at names
    apply underscore_not_mem_toString position
    rw [← names]
    simp
  cases helper with
  | self =>
      intro same
      have names := congrArg Variable.name same
      simp only [argumentVariable, ValueType.name_variableNamed,
        String.append_right_inj, Nat.toString_eq_repr, Nat.repr_inj] at names
      exact apart names.symm
  | size => exact derived _ _
  | length => exact derived _ _
  | binder => exact derived _ _
  | loader => exact plain.ne_loader.symm

theorem ValueType.Shows.append {t : ValueType} {h : Heap} {x : Value}
    (shown : t.Shows h x y) (more : List Cell) : t.Shows (h ++ more) x y := by
  unfold ValueType.Shows at shown ⊢
  by_cases array : t.isArray
  · rw [if_pos array] at shown ⊢
    exact shown.append more
  · rw [if_neg array] at shown ⊢
    exact shown.append more

theorem Parameter.Receipt.append {h : Heap} {z : Value}
    (receipt : p.Receipt m h z y) (more : List Cell) :
    p.Receipt m (h ++ more) z y := by
  unfold Parameter.Receipt at receipt ⊢
  by_cases isIn : p.direction.isIn
  · rw [if_pos isIn] at receipt ⊢
    exact receipt.append more
  · rw [if_neg isIn] at receipt ⊢
    by_cases array : p.type.isArray
    · rw [if_pos array] at receipt ⊢
      exact (Heap.changed_append (fun _ => False) h more).hasRoom receipt
    · rw [if_neg array] at receipt ⊢
      exact receipt.append more

theorem flatMap_zipIdx {α β : Type} (f : α → List β) (xs : List α) :
    xs.zipIdx.flatMap (fun e => f e.1) = xs.flatMap f := by
  have mapped := List.flatMap_map Prod.fst f xs.zipIdx
  rw [List.zipIdx_map_fst] at mapped
  exact mapped.symm

theorem evalAll_refs {vs : List Variable} {zs : List Value}
    (bound : List.Forall₂ (fun v z => s.env.get? v = some z) vs zs) :
    Expr.evalAll m (vs.map Variable.ref) s = some (zs, s) := by
  induction bound with
  | nil => rfl
  | cons here _ induction => simp [Expr.evalAll, eval_ref here, induction]

namespace Signature

def arguments (s : Signature) : List Variable :=
  s.parameters.zipIdx.map fun (p, position) => argumentVariable p position

variable {s : Signature}

theorem Sound.exists_receive (sound : s.Sound r) (formed : r.WellFormed)
    (makes : m.MakesContainers r) (typed : parcel.type = "android.os.Parcel") :
    ∃ code late,
      (s.parameters.zipIdx.forM fun (p, position) =>
        receiveArgument r parcel p position) (slot false) =
          ⟨code, slot late, .ok ()⟩ ∧
      ∀ {u : State} {id : Nat} {sent : Parameter → Datum} {rest : List Token},
        u.env.get? parcel = some (.parcel id) →
        (∀ p ∈ s.parameters, p.Sendable m r (sent p)) → u.parcels id =
          s.parameters.flatMap (fun p => p.requestTokens r (sent p)) ++ rest →
        ∃ u', Block.exec m code u = some u' ∧ AllCreated late
          (fun e => argumentVariable e.1 e.2) s.parameters.zipIdx id rest
          (fun e h z => e.1.Receipt m h z (sent e.1)) u u' := by
  have parameter : ∀ e ∈ s.parameters.zipIdx, e.1.Sound r := fun e listed =>
    sound.parameters e.1 (List.fst_mem_of_mem_zipIdx listed)
  have plain : ∀ e ∈ s.parameters.zipIdx, Plain (argumentVariable e.1 e.2) :=
    fun e listed => (parameter e listed).type.plain formed _
  have apart : s.parameters.zipIdx.Pairwise fun e e' =>
      ∀ v, Helper (argumentVariable e'.1 e'.2) v →
        v ≠ argumentVariable e.1 e.2 := by
    refine (pairwise_positions s.parameters).imp_of_mem ?_
    exact fun here _ other v helper =>
      ne_argumentVariable_of_helper helper other (plain _ here)
  obtain ⟨code, late, emitted, turns⟩ := exists_turns
    (fun e (listed : e ∈ s.parameters.zipIdx) =>
      (parameter e listed).exists_receiveArgument formed makes typed e.2)
    false
  refine ⟨code, late, emitted, fun {u id sent rest} bound sendable front => ?_⟩
  have tokens : u.parcels id = s.parameters.zipIdx.flatMap
      (fun e => e.1.requestTokens r (sent e.1)) ++ rest := by
    rw [front, flatMap_zipIdx fun p : Parameter => p.requestTokens r (sent p)]
  exact exists_allCreated turns typed (fun e listed => (plain e listed).parcel)
    apart (fun e d h z more receipt => receipt.append more) bound nofun
    (fun e listed => sendable e.1 (List.fst_mem_of_mem_zipIdx listed)) tokens

/-- The request of a call: the name of the interface, and then what is sent for
each parameter. -/
def request (s : Signature) (r : Registry) (sent : Parameter → Datum) :
    List Token :=
  ⟨.interfaceName, .text "DESCRIPTOR"⟩ :: s.parameters.flatMap fun p =>
    p.requestTokens r (sent p)

end Signature

end BinderIdl.Method
