import BinderIdl.Parcel.Marshal
import BinderIdl.Proofs.Java.Declared
import BinderIdl.Proofs.Parcel.Alike
import BinderIdl.Proofs.Parcel.Scope
import BinderIdl.Proofs.Parcel.Success

namespace BinderIdl.Parcel

open Java BinderIdl.Types Emitter Block

variable {α β : Type} {r : Registry} {d : Descriptor} {value parcel : Variable}
  {flags : WriteFlags} {needed also : Bool}

/-- With the class loader at hand if one is needed, an emitter that leaves the
slot as it is. -/
inductive Steady (needed : Bool) (e : Emitter α) : Prop where
  | fails :
      (∀ held : Bool, (needed → held) →
        ∃ error, (e (slot held)).outcome = .error error) → Steady needed e
  | runs (code : Block) (a : α) :
      (∀ held : Bool, (needed → held) →
        e (slot held) = ⟨code, slot held, .ok a⟩) → code.Undeclared loaderName →
      (needed = false → code.Unmentioned loaderName) → Steady needed e

/-- An emitter that declares the class loader, if it is needed and not at hand,
before it does anything else. -/
inductive Leads (needed : Bool) (e : Emitter Unit) : Prop where
  | fails : (∀ held, ∃ error, (e (slot held)).outcome = .error error) →
      Leads needed e
  | runs (code : Block) :
      (∀ held, e (slot held) =
        ⟨acquireCode held needed ++ code, slot (held || needed), .ok ()⟩) →
      code.Undeclared loaderName →
      (needed = false → code.Unmentioned loaderName) → Leads needed e

theorem steady_emitAll {code : Block} (free : code.Unmentioned loaderName) :
    Steady needed (emitAll code) :=
  .runs code () (fun _ _ => rfl) free.undeclared fun _ => free

theorem steady_emit {stmt : Stmt} (free : Unmentioned loaderName [stmt]) :
    Steady needed (emit stmt) :=
  steady_emitAll free

theorem Steady.bind {first : Emitter α} {next : α → Emitter β}
    (before : Steady needed first) (after : ∀ a, Steady also (next a)) :
    Steady (needed || also) (first >>= next) := by
  cases before with
  | fails failed =>
      refine .fails fun held enough => ?_
      obtain ⟨error, here⟩ :=
        failed held fun n => enough (Bool.or_eq_true_iff.mpr (.inl n))
      exact ⟨error, by rw [run_bind_error here]⟩
  | runs code a done undeclared unmentioned =>
      -- The second part starts from the slot that the first has started from.
      have firstRun (held : Bool) (enough : (needed || also) = true →
          held = true) :=
        done held fun n => enough (Bool.or_eq_true_iff.mpr (.inl n))
      cases after a with
      | fails failed =>
          refine .fails fun held enough => ?_
          obtain ⟨error, later⟩ :=
            failed held fun n => enough (Bool.or_eq_true_iff.mpr (.inr n))
          rw [run_bind_ok (by rw [firstRun held enough]), firstRun held enough]
          exact ⟨error, later⟩
      | runs rest b doneLater undeclaredLater unmentionedLater =>
          refine .runs (code ++ rest) b (fun held enough => ?_) ?_ ?_
          · rw [run_bind_ok (by rw [firstRun held enough]),
              firstRun held enough]
            dsimp only
            rw [doneLater held fun n =>
              enough (Bool.or_eq_true_iff.mpr (.inr n))]
          · exact undeclared_append.mpr ⟨undeclared, undeclaredLater⟩
          · intro none
            obtain ⟨here, later⟩ := Bool.or_eq_false_iff.mp none
            exact unmentioned_append.mpr ⟨unmentioned here,
              unmentionedLater later⟩

theorem Steady.bind_emit {first : Emitter α} (before : Steady needed first)
    {stmt : Stmt} (free : Unmentioned loaderName [stmt]) :
    Steady needed (first >>= fun _ => emit stmt) :=
  Bool.or_false needed ▸ before.bind fun _ => steady_emit free

theorem steady_emitAll_bind {code : Block} (free : code.Unmentioned loaderName)
    {e : Emitter α} (rest : Steady needed e) :
    Steady needed (emitAll code >>= fun _ => e) :=
  Bool.false_or needed ▸ (steady_emitAll free).bind fun _ => rest

theorem Steady.around {body : Emitter Unit} (inner : Steady needed body)
    {wrap : Block → Stmt}
    (undeclared : ∀ code : Block,
      code.Undeclared loaderName → Undeclared loaderName [wrap code])
    (unmentioned : ∀ code : Block,
      code.Unmentioned loaderName → Unmentioned loaderName [wrap code]) :
    Steady needed (nested body >>= fun code => emit (wrap code)) := by
  cases inner with
  | fails failed =>
      refine .fails fun held enough => ?_
      obtain ⟨error, here⟩ := failed held enough
      have failing : (nested body (slot held)).outcome = .error error := by
        simp [nested, here, Except.map]
      exact ⟨error, by rw [run_bind_error failing]⟩
  | runs code a done inside free =>
      refine .runs [wrap code] () (fun held enough => ?_)
        (undeclared code inside) fun none => unmentioned code (free none)
      have emission : nested body (slot held) = ⟨[], slot held, .ok code⟩ := by
        simp [nested, done held enough, Except.map]
      rw [run_bind_ok (by rw [emission]), emission]
      rfl

theorem Leads.steady {e : Emitter Unit} (leads : Leads needed e)
    (enough : needed → also) :
    Steady also e := by
  cases leads with
  | fails failed => exact .fails fun held _ => failed held
  | runs code done undeclared unmentioned =>
      refine .runs code () (fun held there => ?_) undeclared fun none =>
        unmentioned ?_
      · rw [done held]
        cases needed with
        | false => simp [acquireCode]
        | true =>
            obtain rfl := there (enough rfl)
            rfl
      · exact Bool.eq_false_iff.mpr fun yes => by simp [enough yes] at none

theorem Steady.leads {e : Emitter Unit} (steady : Steady false e) :
    Leads false e := by
  cases steady with
  | fails failed => exact .fails fun held => failed held nofun
  | runs code a done undeclared unmentioned =>
      refine .runs code (fun held => ?_) undeclared unmentioned
      rw [done held nofun, acquireCode, Bool.or_false]
      rfl

theorem leads_fail (error : MarshalError) :
    Leads needed (fail error : Emitter Unit) :=
  .fails fun _ => ⟨error, rfl⟩

theorem leads_emit {stmt : Stmt} (free : Unmentioned loaderName [stmt]) :
    Leads false (emit stmt) :=
  (steady_emit free).leads

theorem leads_acquireIf (formed : r.WellFormed) {e : Emitter Unit}
    (steady : Steady needed e) :
    Leads needed (acquireIf r needed >>= fun _ => e) := by
  have taken := acquireIf_slot formed
  have enough (held : Bool) : needed = true → (held || needed) = true :=
    fun yes => by simp [yes]
  cases steady with
  | fails failed =>
      refine .fails fun held => ?_
      obtain ⟨error, here⟩ := failed (held || needed) (enough held)
      rw [run_bind_ok (by rw [taken held needed]), taken held needed]
      exact ⟨error, here⟩
  | runs code a done undeclared unmentioned =>
      refine .runs code (fun held => ?_) undeclared unmentioned
      rw [run_bind_ok (by rw [taken held needed]), taken held needed]
      dsimp only
      rw [done (held || needed) (enough held)]

theorem leads_acquire (formed : r.WellFormed) {stmt : Variable → Stmt}
    (undeclared : Undeclared loaderName [stmt loaderVariable]) :
    Leads true (acquire r >>= fun loader => emit (stmt loader)) := by
  refine .runs [stmt loaderVariable] (fun held => ?_) undeclared nofun
  rw [run_bind_ok (by rw [acquire_slot formed]), acquire_slot formed,
    Bool.or_true]
  rfl

/-- A variable that does not go by the name of the class loader. -/
def Other (v : Variable) : Prop := v.name ≠ loaderName

@[simp] theorem other_derived (owner : Variable) (type suffix : String) :
    Other (owner.derived type suffix) := by
  intro same
  have marked : '_' ∈ (owner.name ++ "_" ++ suffix).toList := by simp
  have names : owner.name ++ "_" ++ suffix = loaderName := same
  rw [names] at marked
  revert marked
  decide

theorem unmentioned_iff {code : Block} :
    code.Unmentioned loaderName ↔ ∀ v ∈ Block.vars code, Other v := Iff.rfl

theorem undeclared_iff {code : Block} :
    code.Undeclared loaderName ↔ ∀ v ∈ Block.declared code, Other v := Iff.rfl

section Vars

variable (v : Variable)

@[simp] theorem vars_ref : v.ref.vars = [v] := rfl

@[simp] theorem vars_call (method : String) (arguments : List Expr) :
    (v.call method arguments).vars = v :: Expr.listVars arguments := rfl

@[simp] theorem vars_isNull : v.isNull.vars = [v] := rfl

@[simp] theorem vars_isNotNull : v.isNotNull.vars = [v] := rfl

@[simp] theorem vars_set (value : Expr) :
    (Stmt.set v value).vars = v :: value.vars := rfl

@[simp] theorem vars_writeInt (e : Expr) :
    (writeInt v e).vars = v :: e.vars := by
  simp [writeInt, Stmt.vars, Expr.listVars]

@[simp] theorem vars_readInt : (readInt v).vars = [v] := rfl

@[simp] theorem vars_readMarker : (readMarker v).vars = [v] := rfl

@[simp] theorem vars_readSize :
    (readSize v parcel).vars = [sizeVariable v, parcel] := rfl

@[simp] theorem other_sizeVariable :
    Other (sizeVariable v) := other_derived v _ _

@[simp] theorem other_indexVariable :
    Other (indexVariable v) := other_derived v _ _

@[simp] theorem other_itemVariable (element : Descriptor) :
    Other (itemVariable v element) :=
  other_derived v _ _

@[simp] theorem other_entryKeyVariable (key : Descriptor) :
    Other (entryKeyVariable v key) :=
  other_derived v _ _

@[simp] theorem other_entryValueVariable (type : Descriptor) :
    Other (entryValueVariable v type) :=
  other_derived v _ _

@[simp] theorem other_entryVariable (map : Descriptor) :
    Other (entryVariable v map) :=
  other_derived v _ _

end Vars

theorem vars_carry (p : Primitive) (v : Variable) : (carry p v).vars = [v] := by
  unfold carry
  split <;> rfl

theorem vars_flagsExpr {e : Expr} (flagged : flagsExpr r flags = .ok e) :
    e.vars = [] := by
  unfold flagsExpr at flagged
  split at flagged
  · obtain ⟨owner, _, done⟩ := bind_eq_ok_iff.mp flagged
    cases done
    rfl
  · cases flagged
    rfl

@[simp] theorem vars_writeMarked (present : Expr) :
    (writeMarked value parcel present).vars =
      value :: parcel :: (present.vars ++ [parcel]) := by
  simp [writeMarked, Block.vars, Stmt.vars, Expr.int, Expr.vars]

@[simp] theorem vars_createMarked (present : Expr) :
    (createMarked value parcel present).vars =
      parcel :: value :: (present.vars ++ [value]) := by
  simp [createMarked, Block.vars, Stmt.vars, Expr.null, Expr.vars]

@[simp] theorem vars_writeSized (size : Expr) (body : Block) :
    (writeSized value parcel size body).vars =
      value :: parcel :: parcel :: (size.vars ++ Block.vars body) := by
  simp [writeSized, Block.vars, Stmt.vars, Expr.int, Expr.vars]

@[simp] theorem vars_sizedLoop (body : Block) :
    (sizedLoop value body).vars =
      indexVariable value :: sizeVariable value :: Block.vars body :=
  rfl

@[simp] theorem vars_createSized (fresh : Expr) (body : Block) :
    (createSized value fresh body).vars =
      sizeVariable value :: value :: value :: (fresh.vars ++
        indexVariable value :: sizeVariable value :: Block.vars body) := by
  simp [createSized, Block.vars, Stmt.vars, Expr.int, Expr.null, Expr.vars]

theorem unmentioned_writeSized (own : Other value) (other : Other parcel)
    {size : Expr} (sized : ∀ v ∈ size.vars, Other v) {body : Block}
    (free : body.Unmentioned loaderName) :
    Unmentioned loaderName [writeSized value parcel size body] := by
  rw [unmentioned_iff] at free ⊢
  simp only [Block.vars, vars_writeSized, List.append_nil, List.forall_mem_cons,
    List.forall_mem_append]
  exact ⟨own, other, other, sized, free⟩

/-- Code that writes a value as a whole has no locals, and mentions the value
and the parcel. -/
theorem silent_writeWhole (formed : r.WellFormed) {code : Block}
    (written : writeWhole r d value parcel flags = .ok code) :
    Block.declared code = [] ∧ Block.vars code ⊆ [value, parcel] := by
  have call (method : String) {argument : Expr}
      (own : argument.vars ⊆ [value]) :
      Block.declared [.expr (parcel.call method [argument])] = [] ∧
      Block.vars [.expr (parcel.call method [argument])] ⊆ [value, parcel] := by
    refine ⟨rfl, ?_⟩
    simpa [Block.vars, Stmt.vars, Expr.listVars] using
      List.Subset.trans own (by simp)
  obtain ⟨e, flagged⟩ := exists_flagsExpr formed flags
  have none := vars_flagsExpr flagged
  unfold writeWhole at written
  split at written
  case h_1 p _ =>
    cases written
    exact call _ (by simp [vars_carry])
  case h_3 =>
    simp only [writeCharSequence, flagged,
      formed.require_builtIn (h := .textUtils) rfl, bind, Except.bind, pure,
      Except.pure, Except.ok.injEq] at written
    subst written
    exact ⟨rfl, by simp [Block.vars, Expr.vars, Expr.listVars, none]⟩
  case h_8 =>
    simp only [writeRecord, flagged, bind, Except.bind, pure, Except.pure,
      Except.ok.injEq] at written
    subst written
    exact ⟨rfl, by simp [Block.vars, Expr.listVars, none]⟩
  case h_9 =>
    cases written
    exact call _ (by simp [asBinder, Expr.vars, Expr.listVars, Expr.null])
  case h_11 => cases written
  case h_12 => cases written
  case h_13 => cases written
  all_goals
    cases written
    exact call _ (by simp)

theorem unmentioned_writeWhole (formed : r.WellFormed) (own : Other value)
    (other : Other parcel) {code : Block}
    (written : writeWhole r d value parcel flags = .ok code) :
    code.Unmentioned loaderName := by
  obtain ⟨_, known⟩ := silent_writeWhole formed written
  have both : ∀ v ∈ [value, parcel], Other v := by simp [own, other]
  exact fun v listed => both v (known listed)

theorem unmentioned_write (formed : r.WellFormed)
    {types : Option (List Descriptor)} (seen : Seen r d types)
    (own : Other value) (other : Other parcel) {code : Block}
    (written : write r d value parcel flags = .ok code) :
    code.Unmentioned loaderName := by
  unfold write at written
  rw [seen.layout_eq formed] at written
  match types with
  | none => exact unmentioned_writeWhole formed own other written
  | some [] => cases written
  | some [element] =>
      simp only [seenLayout, List.map_cons, List.map_nil, Layout.ofArguments,
        Layout.write, Layout.type] at written
      obtain ⟨body, part, done⟩ := bind_eq_ok_iff.mp written
      cases done
      have free := unmentioned_writeWhole formed
        (other_itemVariable value element) other part
      apply unmentioned_writeSized own other (by simp [Expr.listVars, own])
      rw [unmentioned_iff] at free ⊢
      simpa [Block.vars, Stmt.vars, own] using free
  | some [key, val] =>
      simp only [seenLayout, List.map_cons, List.map_nil, Layout.ofArguments,
        Layout.write, Layout.type] at written
      obtain ⟨keyCode, first, written⟩ := bind_eq_ok_iff.mp written
      obtain ⟨valueCode, second, done⟩ := bind_eq_ok_iff.mp written
      cases done
      have keyFree := unmentioned_writeWhole formed
        (other_entryKeyVariable value key) other first
      have valueFree :=
        unmentioned_writeWhole formed (other_entryValueVariable value val)
          other second
      apply unmentioned_writeSized own other (by simp [Expr.listVars, own])
      have both := unmentioned_append.mpr ⟨keyFree, valueFree⟩
      rw [unmentioned_iff] at both ⊢
      simpa [Block.vars, Stmt.vars, Expr.listVars, own] using both
  | some (_ :: _ :: _ :: _) => cases written

theorem unmentioned_writeArray (formed : r.WellFormed) (own : Other value)
    (other : Other parcel) {code : Block}
    (written : writeArray r d value parcel flags = .ok code) :
    code.Unmentioned loaderName := by
  obtain ⟨e, flagged⟩ := exists_flagsExpr formed flags
  have none := vars_flagsExpr flagged
  unfold writeArray at written
  split at written
  case h_4 =>
    simp only [flagged, bind, Except.bind, pure, Except.pure,
      Except.ok.injEq] at written
    subst written
    simp [unmentioned_iff, Block.vars, Stmt.vars, Expr.listVars, none,
      own, other]
  case h_5 =>
    obtain ⟨body, part, done⟩ := bind_eq_ok_iff.mp written
    cases done
    have free :=
      unmentioned_writeWhole formed (other_itemVariable value d) other part
    apply unmentioned_writeSized own other (by simp [Expr.vars, own])
    rw [unmentioned_iff] at free ⊢
    simpa [Block.vars, Stmt.vars, own] using free
  case h_6 => cases written
  all_goals
    cases written
    simp [unmentioned_iff, Block.vars, Stmt.vars, Expr.listVars, own, other]

theorem leads_ofCode {result : Except MarshalError Block}
    (free : ∀ code, result = .ok code → code.Unmentioned loaderName) :
    Leads false (ofCode result) := by
  cases result with
  | error error => exact leads_fail error
  | ok code => exact (steady_emitAll (free code rfl)).leads

theorem leads_createList (formed : r.WellFormed) (element : ListElement)
    (own : Other value) (other : Other parcel) :
    Leads (element matches .untyped) (createList r element value parcel) := by
  cases element with
  | untyped =>
      apply leads_acquire formed
      simp [undeclared_iff, Block.declared, Stmt.declared, own]
  | _ =>
      apply leads_emit
      simp [unmentioned_iff, Block.vars, Stmt.vars, Expr.vars, Expr.listVars,
        own, other]

theorem leads_createBinder (formed : r.WellFormed) (kind : BinderKind)
    (own : Other value) (other : Other parcel) :
    Leads false (createBinder r kind value parcel) := by
  cases kind with
  | interface =>
      have known := formed.require_builtIn (h := .binder) rfl
      simp only [createBinder, known, Emitter.ofExcept, pure_bind]
      apply (steady_emitAll _).leads
      simp [unmentioned_iff, Block.vars, Stmt.vars, readBinder, Expr.vars,
        Expr.listVars, Expr.null, own, other]
  | _ =>
      apply leads_emit
      simp [unmentioned_iff, Block.vars, Stmt.vars, readBinder, Expr.vars,
        Expr.listVars, own, other]

theorem looksUpClasses_genericList (arguments : TypeArguments)
    (element : ListElement) :
    Strategy.looksUpClasses (.genericList arguments element) =
      (element matches .untyped) := by
  cases element <;> rfl

theorem leads_createWhole (formed : r.WellFormed) (d : Descriptor)
    (own : Other value) (other : Other parcel) :
    Leads d.strategy.looksUpClasses (createWhole r d value parcel) := by
  unfold createWhole
  cases d.strategy with
  | map | list =>
      apply leads_acquire formed
      simp [undeclared_iff, Block.declared, Stmt.declared, own]
  | genericList arguments element =>
      rw [looksUpClasses_genericList]
      exact leads_createList formed element own other
  | binder kind => exact leads_createBinder formed kind own other
  | charSequence =>
      have known := formed.require_builtIn (h := .textUtils) rfl
      simp only [createCharSequence, known, Emitter.ofExcept, pure_bind]
      apply (steady_emitAll _).leads
      simp [unmentioned_iff, Block.vars, Stmt.vars, Expr.vars, Expr.listVars,
        own, other]
  | parcelable =>
      apply (steady_emitAll _).leads
      simp [unmentioned_iff, Block.vars, Stmt.vars, creatorExpr, Expr.vars,
        Expr.listVars, own, other]
  | primitive p =>
      apply leads_emit
      have read : ∀ v ∈ (createPrimitive p parcel).vars, Other v := by
        unfold createPrimitive
        split <;> simp [Expr.vars, Expr.listVars, other]
      simpa [unmentioned_iff, Block.vars, Stmt.vars, own] using read
  | void | helper | generic => exact leads_fail _
  | _ =>
      apply leads_emit
      simp [unmentioned_iff, Block.vars, Stmt.vars, createException,
        createInterface, readBinder, Expr.vars, Expr.listVars, own, other]

theorem steady_createWhole (formed : r.WellFormed) (d : Descriptor)
    (own : Other value) (other : Other parcel) :
    Steady d.strategy.looksUpClasses (createWhole r d value parcel) :=
  (leads_createWhole formed d own other).steady id

theorem steady_fillElement (formed : r.WellFormed) (element : Descriptor)
    (own : Other value) (other : Other parcel) :
    Steady element.strategy.looksUpClasses (fillElement value element
      fun item => createWhole r element item parcel) := by
  have made :=
    steady_createWhole formed element (other_itemVariable value element) other
  apply made.bind_emit
  simp [unmentioned_iff, Block.vars, Stmt.vars, addElement, Expr.listVars, own]

theorem steady_fillEntry (formed : r.WellFormed) (key val : Descriptor)
    (own : Other value) (other : Other parcel) :
    Steady (key.strategy.looksUpClasses || val.strategy.looksUpClasses)
      (fillEntry value key val (fun v => createWhole r key v parcel)
        fun v => createWhole r val v parcel) := by
  have first :=
    steady_createWhole formed key (other_entryKeyVariable value key) other
  have second :=
    steady_createWhole formed val (other_entryValueVariable value val) other
  refine first.bind fun _ => second.bind_emit ?_
  simp [unmentioned_iff, Block.vars, Stmt.vars, putEntry, Expr.listVars, own]

theorem steady_createContainer {body : Emitter Unit}
    (inner : Steady needed body) {fresh : Expr} (own : Other value)
    (other : Other parcel) (free : ∀ v ∈ fresh.vars, Other v) :
    Steady needed (createContainer value parcel fresh body) := by
  apply steady_emitAll_bind
  · simp [unmentioned_iff, Block.vars, Stmt.vars, own, other]
  · apply inner.around
    · intro code undeclared
      rw [undeclared_iff] at undeclared ⊢
      simpa [createSized, sizedLoop, Stmt.set, Block.declared, Stmt.declared]
        using undeclared
    · intro code unmentioned
      rw [unmentioned_iff] at unmentioned ⊢
      simp only [Block.vars, vars_createSized, List.append_nil,
        List.forall_mem_cons, List.forall_mem_append]
      exact ⟨other_sizeVariable value, own, own, free,
        other_indexVariable value, other_sizeVariable value, unmentioned⟩

section Instances

variable {arguments : TypeArguments} {container : Emitter Unit → Emitter Unit}
  (formed : r.WellFormed) (generic : d.strategy = .generic arguments)
  (keeps : ∀ {needed : Bool} {body : Emitter Unit}, Steady needed body →
    Steady needed (container body))

include formed generic keeps

theorem leads_elements {element : Descriptor}
    (known : r.Arguments arguments.handles [element]) (own : Other value)
    (other : Other parcel) :
    Leads (r.needsClassLoader d)
      (acquireIf r (r.needsClassLoader d) >>= fun _ =>
        container (fillElement value element fun item =>
          createWhole r element item parcel)) := by
  have needed := needsClassLoader_of_arguments formed generic known
  rw [List.any_cons, List.any_nil, Bool.or_false] at needed
  apply leads_acquireIf formed
  rw [needed]
  exact keeps (steady_fillElement formed element own other)

theorem leads_entries {key val : Descriptor}
    (known : r.Arguments arguments.handles [key, val]) (own : Other value)
    (other : Other parcel) :
    Leads (r.needsClassLoader d)
      (acquireIf r (r.needsClassLoader d) >>= fun _ =>
        container (fillEntry value key val (fun v => createWhole r key v parcel)
          fun v => createWhole r val v parcel)) := by
  have needed := needsClassLoader_of_arguments formed generic known
  rw [List.any_cons, List.any_cons, List.any_nil, Bool.or_false] at needed
  apply leads_acquireIf formed
  rw [needed]
  exact keeps (steady_fillEntry formed key val own other)

end Instances

theorem leads_create (formed : r.WellFormed) {types : Option (List Descriptor)}
    (seen : Seen r d types) (own : Other value) (other : Other parcel) :
    Leads (r.needsClassLoader d) (create r d value parcel) := by
  unfold create
  rw [seen.layout_eq formed]
  cases seen with
  | whole whole =>
      rw [Registry.needsClassLoader_eq_of_not_generic whole]
      exact leads_createWhole formed d own other
  | @«instance» arguments types generic known =>
      have keeps {needed : Bool} {body : Emitter Unit}
          (inner : Steady needed body) : Steady needed
            (createContainer value parcel (.new d.instantiable []) body) :=
        steady_createContainer inner own other
          (by simp [Expr.vars, Expr.listVars])
      match types with
      | [] => exact leads_fail _
      | [element] => exact leads_elements formed generic keeps known own other
      | [key, val] => exact leads_entries formed generic keeps known own other
      | _ :: _ :: _ :: _ => exact leads_fail _

theorem leads_emit_plain {s : Strategy} (strategy : d.strategy = s)
    (whole : ∀ arguments, s ≠ .generic arguments)
    (plain : s.looksUpClasses = false) {stmt : Stmt}
    (free : Unmentioned loaderName [stmt]) :
    Leads (r.needsClassLoader d) (emit stmt) := by
  subst strategy
  rw [Registry.needsClassLoader_eq_of_not_generic whole, plain]
  exact leads_emit free

theorem leads_createArray (formed : r.WellFormed) (d : Descriptor)
    (own : Other value) (other : Other parcel) :
    Leads (r.needsClassLoader d) (createArray r d value parcel) := by
  unfold createArray
  split
  case h_5 arguments element strategy =>
    have whole : ∀ arguments, d.strategy ≠ .generic arguments := by
      simp [strategy]
    apply leads_acquireIf formed
    rw [Registry.needsClassLoader_eq_of_not_generic whole]
    refine steady_createContainer ?_ own other (by simp [Expr.vars])
    have made := steady_createWhole formed d (other_itemVariable value d) other
    apply made.bind_emit
    simp [unmentioned_iff, Block.vars, Stmt.vars, Expr.vars, own]
  case h_6 => exact leads_fail _
  all_goals
    next strategy =>
      apply leads_emit_plain strategy (by simp) rfl
      simp [unmentioned_iff, Block.vars, Stmt.vars, Expr.listVars, creatorExpr,
        Expr.vars, own, other]

theorem leads_readList (formed : r.WellFormed) (element : ListElement)
    (own : Other value) (other : Other parcel) :
    Leads (element matches .untyped) (readList r element value parcel) := by
  cases element with
  | untyped =>
      apply leads_acquire formed
      simp [undeclared_iff, Block.declared, Stmt.declared]
  | _ =>
      apply leads_emit
      simp [unmentioned_iff, Block.vars, Stmt.vars, Expr.vars, Expr.listVars,
        own, other]

theorem leads_readWhole (formed : r.WellFormed) (d : Descriptor)
    (own : Other value) (other : Other parcel) :
    Leads d.strategy.looksUpClasses (readWhole r d value parcel) := by
  unfold readWhole
  cases d.strategy with
  | map | list =>
      apply leads_acquire formed
      simp [undeclared_iff, Block.declared, Stmt.declared]
  | genericList arguments element =>
      rw [looksUpClasses_genericList]
      exact leads_readList formed element own other
  | parcelable =>
      apply leads_emit
      simp [unmentioned_iff, Block.vars, Stmt.vars, readRecord, Expr.listVars,
        own, other]
  | _ => exact leads_fail _

theorem Steady.sizedLoop {body : Emitter Unit} (inner : Steady needed body)
    (value : Variable) :
    Steady needed (nested body >>= fun code =>
      emit (sizedLoop value code)) := by
  apply inner.around
  · intro code undeclared
    rw [undeclared_iff] at undeclared ⊢
    simpa [Parcel.sizedLoop, Block.declared, Stmt.declared] using undeclared
  · intro code unmentioned
    rw [unmentioned_iff] at unmentioned ⊢
    simpa [Block.vars] using unmentioned

theorem steady_refillContainer {body : Emitter Unit}
    (inner : Steady needed body) (own : Other value) (other : Other parcel) :
    Steady needed (refillContainer value parcel body) := by
  apply steady_emitAll_bind
  · simp [unmentioned_iff, Block.vars, Stmt.vars, Expr.listVars, own, other]
  · exact inner.sizedLoop value

theorem leads_read (formed : r.WellFormed) {types : Option (List Descriptor)}
    (seen : Seen r d types) (own : Other value) (other : Other parcel) :
    Leads (r.needsClassLoader d) (read r d value parcel) := by
  unfold read
  split
  case isFalse => exact leads_fail _
  rw [seen.layout_eq formed]
  cases seen with
  | whole whole =>
      rw [Registry.needsClassLoader_eq_of_not_generic whole]
      exact leads_readWhole formed d own other
  | @«instance» arguments types generic known =>
      have keeps {needed : Bool} {body : Emitter Unit}
          (inner : Steady needed body) :
          Steady needed (refillContainer value parcel body) :=
        steady_refillContainer inner own other
      match types with
      | [] => exact leads_fail _
      | [element] => exact leads_elements formed generic keeps known own other
      | [key, val] => exact leads_entries formed generic keeps known own other
      | _ :: _ :: _ :: _ => exact leads_fail _

theorem leads_readArray (formed : r.WellFormed)
    {types : Option (List Descriptor)} (seen : Seen r d types)
    (own : Other value) (other : Other parcel) :
    Leads (r.needsClassLoader d) (readArray r d value parcel) := by
  unfold readArray
  split
  case h_5 arguments element strategy =>
    apply leads_acquireIf formed
    apply steady_emitAll_bind
    · simp [unmentioned_iff, Block.vars, other]
    · apply Steady.sizedLoop
      apply steady_emitAll_bind
      · simp [unmentioned_iff, Block.vars, Stmt.vars, Expr.vars, own]
      · exact (leads_read formed seen (other_itemVariable value d) other).steady
          id
  case h_6 => exact leads_fail _
  all_goals
    next strategy =>
      apply leads_emit_plain strategy (by simp) rfl
      simp [unmentioned_iff, Block.vars, Stmt.vars, Expr.listVars, creatorExpr,
        Expr.vars, own, other]

theorem exists_seen_of_known (formed : r.WellFormed) {h : Handle}
    (known : r.get? h = some d) :
    ∃ types, Seen r d types := by
  cases strategy : d.strategy with
  | generic arguments =>
      have handles := Registry.argumentHandles_of_generic strategy
      obtain ⟨types, parts⟩ := exists_forall₂
        (R := fun part type => r.get? part = some type ∧ type.kind ≠ .generic)
        fun part listed => formed.argument_known known (handles ▸ listed)
      exact ⟨some types, .instance strategy parts⟩
  | _ =>
      refine ⟨none, .whole fun _ also => ?_⟩
      cases strategy.symm.trans also

/-- Whether code of the operation on a value of the type takes a class loader.
Writing never does. -/
def Operation.needsClassLoader (operation : Operation) (r : Registry)
    (d : Descriptor) : Bool :=
  match operation with
  | .write | .writeArray => false
  | .create | .createArray | .read | .readArray => r.needsClassLoader d

theorem leads_emit_operation (formed : r.WellFormed) {h : Handle}
    (known : r.get? h = some d) (operation : Operation) (own : Other value)
    (other : Other parcel) :
    Leads (operation.needsClassLoader r d)
      (operation.emit r d value parcel flags) := by
  obtain ⟨types, seen⟩ := exists_seen_of_known formed known
  cases operation with
  | write => exact leads_ofCode fun _ => unmentioned_write formed seen own other
  | create => exact leads_create formed seen own other
  | read => exact leads_read formed seen own other
  | writeArray =>
      exact leads_ofCode fun _ => unmentioned_writeArray formed own other
  | createArray => exact leads_createArray formed d own other
  | readArray => exact leads_readArray formed seen own other

end BinderIdl.Parcel
