import BinderIdl.Proofs.Method.Request
import BinderIdl.Proofs.Parcel.Loading

namespace BinderIdl

open Document Java BinderIdl.Types Parcel Emitter Block

namespace Parcel

variable {r : Registry} {needed also : Bool}

/-- An emitter that declares the class loader at one place, if it is needed and
not at hand. -/
inductive Loads (needed : Bool) (e : Emitter Unit) : Prop where
  | fails : (∀ held, ∃ error, (e (slot held)).outcome = .error error) →
      Loads needed e
  | runs (ahead behind : Block) :
      (∀ held, e (slot held) = ⟨ahead ++ acquireCode held needed ++ behind,
        slot (held || needed), .ok ()⟩) →
      ahead.Unmentioned loaderName → behind.Undeclared loaderName →
      (needed = false → behind.Unmentioned loaderName) → Loads needed e

theorem Leads.loads {e : Emitter Unit} (leads : Leads needed e) :
    Loads needed e := by
  cases leads with
  | fails failed => exact .fails failed
  | runs code done undeclared unmentioned =>
      exact .runs [] code done (unmentioned_nil loaderName) undeclared
        unmentioned

theorem loads_pure : Loads false (pure () : Emitter Unit) :=
  (steady_emitAll (unmentioned_nil loaderName)).leads.loads

theorem Loads.bind {first second : Emitter Unit} (before : Loads needed first)
    (after : Loads also second) :
    Loads (needed || also) (first >>= fun _ => second) := by
  cases before with
  | fails failed =>
      refine .fails fun held => ?_
      obtain ⟨error, here⟩ := failed held
      exact ⟨error, by rw [run_bind_error here]⟩
  | runs ahead behind done aheadFree undeclared unmentioned =>
      cases after with
      | fails failed =>
          refine .fails fun held => ?_
          obtain ⟨error, later⟩ := failed (held || needed)
          rw [run_bind_ok (by rw [done held]), done held]
          exact ⟨error, later⟩
      | runs next last doneLater nextFree undeclaredLater unmentionedLater =>
          have run (held : Bool) : (first >>= fun _ => second) (slot held) =
              ⟨ahead ++ acquireCode held needed ++ behind ++
                (next ++ acquireCode (held || needed) also ++ last),
                slot (held || needed || also), .ok ()⟩ := by
            rw [run_bind_ok (by rw [done held]), done held]
            dsimp only
            rw [doneLater]
          cases needed with
          | true =>
              -- The first part has declared it, so the second only
              -- refers to it.
              refine .runs ahead (behind ++ (next ++ last))
                (fun held => ?_) aheadFree ?_ nofun
              · rw [run held]
                simp [acquireCode]
              · exact undeclared_append.mpr ⟨undeclared,
                  undeclared_append.mpr ⟨nextFree.undeclared, undeclaredLater⟩⟩
          | false =>
              -- The first part does not mention it, so all of it is ahead of
              -- the declaration.
              refine .runs (ahead ++ behind ++ next) last
                (fun held => ?_) ?_ undeclaredLater unmentionedLater
              · rw [run held]
                simp [acquireCode]
              · exact unmentioned_append.mpr ⟨unmentioned_append.mpr
                  ⟨aheadFree, unmentioned rfl⟩, nextFree⟩

theorem loads_forM {α : Type} {f : α → Emitter Unit} {needs : α → Bool}
    {xs : List α} (each : ∀ x ∈ xs, Loads (needs x) (f x)) :
    Loads (xs.any needs) (xs.forM f) := by
  induction xs with
  | nil => exact loads_pure
  | cons x rest induction =>
      obtain ⟨here, others⟩ := List.forall_mem_cons.mp each
      rw [List.any_cons]
      exact here.bind (induction others)

theorem Loads.exists_run {e : Emitter Unit} (loads : Loads needed e)
    (held : Bool) (done : (e (slot held)).outcome = .ok ()) :
    ∃ ahead behind,
      (∀ held, e (slot held) = ⟨ahead ++ acquireCode held needed ++ behind,
        slot (held || needed), .ok ()⟩) ∧
      ahead.Unmentioned loaderName ∧ behind.Undeclared loaderName ∧
      (needed = false → behind.Unmentioned loaderName) := by
  cases loads with
  | fails failed =>
      obtain ⟨error, here⟩ := failed held
      cases done.symm.trans here
  | runs ahead behind run aheadFree undeclared unmentioned =>
      exact ⟨ahead, behind, run, aheadFree, undeclared, unmentioned⟩

structure Call where
  operation : Operation
  type : Descriptor
  value : Variable
  parcel : Variable
  flags : WriteFlags

namespace Call

def emit (r : Registry) (c : Call) : Emitter Unit :=
  c.operation.emit r c.type c.value c.parcel c.flags

def needsClassLoader (r : Registry) (c : Call) :
    Bool := c.operation.needsClassLoader r c.type

/-- A call on a known type, whose variables do not go by the name of the
class loader. -/
structure Proper (r : Registry) (c : Call) : Prop where
  known : ∃ h, r.get? h = some c.type
  value : c.value.name ≠ loaderName
  parcel : c.parcel.name ≠ loaderName

theorem Proper.leads {c : Call} (proper : c.Proper r) (formed : r.WellFormed) :
    Leads (c.needsClassLoader r) (c.emit r) := by
  obtain ⟨h, known⟩ := proper.known
  exact leads_emit_operation formed known c.operation proper.value proper.parcel

end Call

def emitCalls (r : Registry) (calls : List Call) :
    Emitter Unit := calls.forM (Call.emit r)

theorem loads_emitCalls (formed : r.WellFormed) {calls : List Call}
    (proper : ∀ c ∈ calls, c.Proper r) :
    Loads (calls.any (Call.needsClassLoader r)) (emitCalls r calls) :=
  loads_forM fun c listed => ((proper c listed).leads formed).loads

theorem emitCalls_append (r : Registry) (before after : List Call) :
    emitCalls r (before ++ after) =
      (emitCalls r before >>= fun _ => emitCalls r after) :=
  List.forM_append

theorem emitCalls_cons (r : Registry) (first : Call) (after : List Call) :
    emitCalls r (first :: after) =
      (first.emit r >>= fun _ => emitCalls r after) :=
  rfl

variable {calls before after : List Call} {first : Call}

theorem outcome_of_code_eq_ok {e : Emitter Unit} {code : Block}
    (emitted : e.code = .ok code) :
    (e none).code = code ∧ (e none).outcome = .ok () := by
  unfold Emitter.code at emitted
  cases done : (e none).outcome with
  | error error =>
      rw [done] at emitted
      cases emitted
  | ok a =>
      rw [done] at emitted
      exact ⟨Except.ok.inj emitted, rfl⟩

/-- Calls that need no class loader leave the slot alone and do not
mention one. -/
theorem exists_code_of_unneeded (formed : r.WellFormed)
    (proper : ∀ c ∈ calls, c.Proper r)
    (unneeded : ∀ c ∈ calls, c.needsClassLoader r = false) (held : Bool)
    (done : (emitCalls r calls (slot held)).outcome = .ok ()) :
    ∃ code : Block, code.Unmentioned loaderName ∧
      ∀ held, emitCalls r calls (slot held) = ⟨code, slot held, .ok ()⟩ := by
  have loads := loads_emitCalls formed proper
  have none : calls.any (Call.needsClassLoader r) = false := by
    simpa [List.any_eq_false] using unneeded
  rw [none] at loads
  obtain ⟨ahead, behind, run, aheadFree, _, behindFree⟩ :=
    loads.exists_run held done
  refine ⟨ahead ++ behind, unmentioned_append.mpr ⟨aheadFree, behindFree rfl⟩,
    fun held => ?_⟩
  rw [run held]
  simp [acquireCode]

theorem exists_code_of_held (formed : r.WellFormed)
    (proper : ∀ c ∈ calls, c.Proper r) (held : Bool)
    (done : (emitCalls r calls (slot held)).outcome = .ok ()) :
    ∃ code : Block, code.Undeclared loaderName ∧
      emitCalls r calls (slot true) = ⟨code, slot true, .ok ()⟩ := by
  obtain ⟨ahead, behind, run, aheadFree, undeclared, _⟩ :=
    (loads_emitCalls formed proper).exists_run held done
  refine ⟨ahead ++ behind,
    undeclared_append.mpr ⟨aheadFree.undeclared, undeclared⟩, ?_⟩
  rw [run true]
  simp [acquireCode]

/-- The parts of a body around the first call that needs a class loader: in
front of it none is mentioned, and behind the declaration none is declared. -/
structure Split (r : Registry) (before : List Call) (first : Call)
    (after : List Call) (ahead own behind : Block) : Prop where
  before : ∀ held, emitCalls r before (slot held) = ⟨ahead, slot held, .ok ()⟩
  first : ∀ held,
    first.emit r (slot held) = ⟨acquireCode held true ++ own, slot true, .ok ()⟩
  after : emitCalls r after (slot true) = ⟨behind, slot true, .ok ()⟩
  unmentioned : ahead.Unmentioned loaderName
  undeclared : (own ++ behind).Undeclared loaderName

theorem exists_split (formed : r.WellFormed)
    (proper : ∀ c ∈ before ++ first :: after, c.Proper r)
    (unneeded : ∀ c ∈ before, c.needsClassLoader r = false)
    (needs : first.needsClassLoader r)
    (done : (emitCalls r (before ++ first :: after) none).outcome = .ok ()) :
    ∃ ahead own behind, Split r before first after ahead own behind := by
  change (emitCalls r (before ++ first :: after) (slot false)).outcome =
    .ok () at done
  rw [emitCalls_append, emitCalls_cons] at done
  obtain ⟨properBefore, properAfter⟩ := List.forall_mem_append.mp proper
  obtain ⟨properFirst, properRest⟩ := List.forall_mem_cons.mp properAfter
  obtain ⟨_, beforeDone, done⟩ := outcomes_of_bind done
  obtain ⟨ahead, unmentioned, run⟩ :=
    exists_code_of_unneeded formed properBefore unneeded false beforeDone
  rw [run false] at done
  dsimp only at done
  obtain ⟨_, firstDone, done⟩ := outcomes_of_bind done
  have leads := properFirst.leads formed
  rw [needs] at leads
  cases leads with
  | fails failed =>
      obtain ⟨error, here⟩ := failed false
      cases firstDone.symm.trans here
  | runs own firstRun ownUndeclared _ =>
      simp only [Bool.or_true] at firstRun
      rw [firstRun false] at done
      obtain ⟨behind, behindUndeclared, afterRun⟩ :=
        exists_code_of_held formed properRest true done
      exact ⟨ahead, own, behind, run, firstRun, afterRun, unmentioned,
        undeclared_append.mpr ⟨ownUndeclared, behindUndeclared⟩⟩

/-- The whole body, from a slot that holds the class loader or from
an empty one. -/
theorem Split.run {ahead own behind : Block}
    (split : Split r before first after ahead own behind) (held : Bool) :
    emitCalls r (before ++ first :: after) (slot held) = ⟨ahead ++
      (acquireCode held true ++ (own ++ behind)), slot true, .ok ()⟩ := by
  rw [emitCalls_append, emitCalls_cons, run_bind_ok (by rw [split.before held]),
    split.before held, run_bind_ok (by rw [split.first held]), split.first held]
  dsimp only
  rw [split.after]
  simp

theorem declarations_of_split {ahead behind : Block}
    (unmentioned : ahead.Unmentioned loaderName)
    (undeclared : behind.Undeclared loaderName) :
    declarations loaderName
      (ahead ++ .declare loaderVariable loaderValue :: behind) =
      [loaderVariable] := by
  have front := declarations_eq_nil_iff.mpr unmentioned.undeclared
  have rest := declarations_eq_nil_iff.mpr undeclared
  have cut : ahead ++ .declare loaderVariable loaderValue :: behind =
      ahead ++ ([.declare loaderVariable loaderValue] ++ behind) := rfl
  rw [cut, declarations_append, declarations_append, front, rest]
  rfl

/-- Code that does not mention the class loader, or declares it once, at its top
level and ahead of every mention. -/
inductive Provided (code : Block) : Prop where
  | unmentioned : code.Unmentioned loaderName → Provided code
  | declared {ahead behind : Block} :
      code = ahead ++ .declare loaderVariable loaderValue :: behind →
      ahead.Unmentioned loaderName →
      code.declarations loaderName = [loaderVariable] → Provided code

theorem Loads.provided {e : Emitter Unit} (loads : Loads needed e)
    {code : Block} (emitted : e.code = .ok code) : Provided code := by
  obtain ⟨rfl, done⟩ := outcome_of_code_eq_ok emitted
  obtain ⟨ahead, behind, run, aheadFree, undeclared, behindFree⟩ :=
    loads.exists_run false done
  have start : e none = _ := run false
  rw [start]
  cases needed with
  | false =>
      apply Provided.unmentioned
      simpa [acquireCode] using
        unmentioned_append.mpr ⟨aheadFree, behindFree rfl⟩
  | true =>
      have code : ahead ++ acquireCode false true ++ behind =
          ahead ++ .declare loaderVariable loaderValue :: behind := by
        simp [acquireCode]
      exact .declared code aheadFree (code ▸
        declarations_of_split aheadFree undeclared)

end Parcel

namespace Method

variable {r : Registry} {s : Signature} {data reply : Java.Variable}

def ValueType.Known (r : Registry) (t : ValueType) :
    Prop := ∃ h, r.get? h = some t.descriptor

structure Signature.Known (r : Registry) (s : Signature) : Prop where
  result : ∀ t, s.result = some t → t.Known r
  parameters : ∀ p ∈ s.parameters, p.type.Known r

theorem known_of_valueType_eq_ok {t : ResolvedType} {type : ValueType}
    (found : Signature.valueType r t = .ok type) : type.Known r := by
  unfold Signature.valueType at found
  split at found
  · next d known =>
      cases found
      exact ⟨t.handle, known⟩
  · cases found

theorem known_of_parameter_eq_ok {p : ResolvedParameter} {q : Parameter}
    (resolved : Signature.parameter r p = .ok q) :
    q.type.Known r ∧ q.name = p.name := by
  obtain ⟨type, found, rfl⟩ := map_eq_ok_iff.mp resolved
  exact ⟨known_of_valueType_eq_ok found, rfl⟩

theorem known_of_result?_eq_ok {t : ResolvedType} {result : Option ValueType}
    (resolved : Signature.result? r t = .ok result) :
    ∀ type, result = some type → type.Known r := by
  unfold Signature.result? at resolved
  split at resolved
  · cases resolved
    nofun
  · obtain ⟨type, found, rfl⟩ := map_eq_ok_iff.mp resolved
    rintro _ ⟨⟩
    exact known_of_valueType_eq_ok found

theorem known_of_ofResolved_eq_ok {m : ResolvedMethod}
    (resolved : Signature.ofResolved r m = .ok s) :
    s.Known r ∧ ∀ p ∈ s.parameters, ∃ q ∈ m.parameters, p.name = q.name := by
  obtain ⟨result, resultFound, rest⟩ := bind_eq_ok_iff.mp resolved
  obtain ⟨parameters, parametersFound, done⟩ := bind_eq_ok_iff.mp rest
  cases done
  have each := (mapM_eq_ok_iff.mp parametersFound).flip
  refine ⟨⟨known_of_result?_eq_ok resultFound, ?_⟩, ?_⟩
  · intro p listed
    obtain ⟨q, _, here⟩ := exists_mem_of_forall₂ each listed
    exact (known_of_parameter_eq_ok here).1
  · intro p listed
    obtain ⟨q, member, here⟩ := exists_mem_of_forall₂ each listed
    exact ⟨q, member, (known_of_parameter_eq_ok here).2⟩

/-- An emitter that declares the class loader at one place at most. -/
def Tidy (e : Emitter Unit) : Prop := ∃ needed, Loads needed e

theorem Tidy.bind {first second : Emitter Unit} (before : Tidy first)
    (after : Tidy second) :
    Tidy (first >>= fun _ => second) := by
  obtain ⟨needed, here⟩ := before
  obtain ⟨also, there⟩ := after
  exact ⟨_, here.bind there⟩

theorem tidy_pure : Tidy (pure ()) := ⟨false, loads_pure⟩

theorem tidy_emitAll {code : Block} (free : code.Unmentioned loaderName) :
    Tidy (emitAll code) :=
  ⟨false, (steady_emitAll free).leads.loads⟩

theorem tidy_emit {stmt : Stmt} (free : Unmentioned loaderName [stmt]) :
    Tidy (emit stmt) :=
  tidy_emitAll free

theorem tidy_forM {α : Type} {f : α → Emitter Unit} {xs : List α}
    (each : ∀ x ∈ xs, Tidy (f x)) :
    Tidy (xs.forM f) := by
  induction xs with
  | nil => exact tidy_pure
  | cons x rest induction =>
      obtain ⟨here, others⟩ := List.forall_mem_cons.mp each
      exact here.bind (induction others)

theorem tidy_operation (formed : r.WellFormed) {t : ValueType}
    (known : t.Known r) {value parcel : Java.Variable} (own : Other value)
    (other : Other parcel) (operation : Operation) (flags : WriteFlags) :
    Tidy (operation.emit r t.descriptor value parcel flags) := by
  obtain ⟨h, there⟩ := known
  exact ⟨_, (leads_emit_operation formed there operation own other).loads⟩

theorem other_variableNamed (t : ValueType) {name : String}
    (other : name ≠ loaderName) :
    Other (t.variableNamed name) := by
  rw [Other, t.name_variableNamed]
  exact other

theorem other_argumentVariable (p : Parameter) (position : Nat) :
    Other (argumentVariable p position) := by
  apply other_variableNamed
  intro same
  have marked : '_' ∈ ("_arg" ++ toString position).toList := by simp
  rw [same] at marked
  revert marked
  decide

theorem tidy_sendParameter (formed : r.WellFormed) {p : Parameter}
    (known : p.type.Known r) (name : p.name ≠ loaderName) (other : Other data) :
    Tidy (sendParameter r data p) := by
  have own := other_variableNamed p.type name
  unfold sendParameter
  dsimp only
  split
  · exact tidy_operation formed known own other _ _
  · split
    · apply tidy_emit
      apply unmentioned_writeSized own other
      · simp [Expr.vars, own]
      · exact unmentioned_nil loaderName
    · exact tidy_pure

theorem tidy_receiveResult (formed : r.WellFormed) {result : Option ValueType}
    (known : ∀ t, result = some t → t.Known r) (other : Other reply) :
    Tidy (receiveResult r reply result) := by
  cases result with
  | none => exact tidy_pure
  | some t =>
      exact tidy_operation formed (known t rfl)
        (other_variableNamed t (by decide)) other _ _

theorem tidy_sendResult (formed : r.WellFormed) {result : Option ValueType}
    (known : ∀ t, result = some t → t.Known r) (other : Other reply) :
    Tidy (sendResult r reply result) := by
  cases result with
  | none => exact tidy_pure
  | some t =>
      exact tidy_operation formed (known t rfl)
        (other_variableNamed t (by decide)) other _ _

theorem tidy_proxyBody (data reply : Java.Variable) (formed : r.WellFormed)
    (known : s.Known r) (names : ∀ p ∈ s.parameters, p.name ≠ loaderName)
    (first : Other data) (second : Other reply) :
    Tidy (proxyBody r s data reply) := by
  unfold proxyBody
  apply Tidy.bind
  · apply tidy_emit
    simp [unmentioned_iff, Block.vars, Stmt.vars, Expr.listVars,
      Expr.vars, first]
  apply Tidy.bind
  · exact tidy_forM fun p listed =>
      tidy_sendParameter formed (known.parameters p listed)
        (names p listed) first
  apply Tidy.bind
  · apply tidy_emit
    have flags : (transactFlags s.oneway).vars = [] := by
      unfold transactFlags
      split <;> rfl
    simp [unmentioned_iff, Block.vars, Stmt.vars, transact, Expr.listVars,
      Expr.vars, flags, first, second]
  split
  · exact tidy_pure
  apply Tidy.bind
  · apply tidy_emit
    simp [unmentioned_iff, Block.vars, Stmt.vars, Expr.listVars, second]
  apply Tidy.bind
  · exact tidy_receiveResult formed known.result second
  · apply tidy_forM
    intro p listed
    obtain ⟨member, _⟩ := List.mem_filter.mp listed
    exact tidy_operation formed (known.parameters p member)
      (other_variableNamed p.type (names p member)) second _ _

theorem listVars_refs (vs : List Java.Variable) :
    Expr.listVars (vs.map Variable.ref) = vs := by
  induction vs with
  | nil => rfl
  | cons v rest induction => simp [Expr.listVars, induction]

theorem tidy_callImplementation (s : Signature) {arguments : List Java.Variable}
    (others : ∀ v ∈ arguments, Other v) :
    Tidy (emit (callImplementation s arguments)) := by
  apply tidy_emit
  unfold callImplementation
  cases s.result with
  | none =>
      simpa [unmentioned_iff, Block.vars, Stmt.vars, Expr.vars, listVars_refs]
        using others
  | some t =>
      have own := other_variableNamed t (by decide : resultName ≠ loaderName)
      simpa [unmentioned_iff, Block.vars, Stmt.vars, Expr.vars, listVars_refs,
        own] using others

theorem tidy_receiveArgument (formed : r.WellFormed) {p : Parameter}
    (known : p.type.Known r) (other : Other data) (position : Nat) :
    Tidy (receiveArgument r data p position) := by
  have own := other_argumentVariable p position
  unfold receiveArgument
  dsimp only
  split
  · exact tidy_operation formed known own other _ _
  · split
    · apply tidy_emitAll
      simp [unmentioned_iff, allocateArray, lengthVariable, Block.vars,
        Stmt.vars, Expr.vars, Expr.null, Expr.int, own, other]
    · apply tidy_emit
      simp [unmentioned_iff, Block.vars, Stmt.vars, Expr.vars,
        Expr.listVars, own]

theorem tidy_stubBody (data reply : Java.Variable) (formed : r.WellFormed)
    (known : s.Known r) (first : Other data) (second : Other reply) :
    Tidy (stubBody r s data reply) := by
  have types : ∀ entry ∈ s.parameters.zipIdx, entry.1.type.Known r :=
    fun entry listed =>
      known.parameters entry.1 (List.fst_mem_of_mem_zipIdx listed)
  unfold stubBody
  apply Tidy.bind
  · apply tidy_emit
    simp [unmentioned_iff, Block.vars, Stmt.vars, Expr.listVars,
      Expr.vars, first]
  apply Tidy.bind
  · exact tidy_forM fun entry listed =>
      tidy_receiveArgument formed (types entry listed) first entry.2
  apply Tidy.bind
  · apply tidy_callImplementation
    intro v listed
    obtain ⟨entry, _, rfl⟩ := List.mem_map.mp listed
    exact other_argumentVariable entry.1 entry.2
  split
  · exact tidy_pure
  apply Tidy.bind
  · apply tidy_emit
    simp [unmentioned_iff, Block.vars, Stmt.vars, Expr.listVars, second]
  apply Tidy.bind
  · exact tidy_sendResult formed known.result second
  · apply tidy_forM
    intro entry listed
    dsimp only [sendArgument]
    split
    · exact tidy_operation formed (types entry listed)
        (other_argumentVariable _ _) second _ _
    · exact tidy_pure

theorem provided_proxy (formed : r.WellFormed) (known : s.Known r)
    (names : ∀ p ∈ s.parameters, p.name ≠ loaderName) {code : Block}
    (made : proxy r s = .ok code) : Provided code := by
  simp only [proxy, parcelVariable_eq_ok formed, bind, Except.bind] at made
  obtain ⟨needed, loads⟩ :=
    tidy_proxyBody ⟨"android.os.Parcel", "_data"⟩
      ⟨"android.os.Parcel", "_reply"⟩ formed known names
      (by simp [Other, loaderName]) (by simp [Other, loaderName])
  exact loads.provided made

theorem provided_stub (formed : r.WellFormed) (known : s.Known r) {code : Block}
    (made : stub r s = .ok code) : Provided code := by
  simp only [stub, parcelVariable_eq_ok formed, bind, Except.bind] at made
  obtain ⟨needed, loads⟩ := tidy_stubBody ⟨"android.os.Parcel", "data"⟩
    ⟨"android.os.Parcel", "reply"⟩ formed known (by simp [Other, loaderName])
    (by simp [Other, loaderName])
  exact loads.provided made

theorem ofMarshalling_eq_ok_iff {α : Type} {x : Except MarshalError α} {a : α} :
    ofMarshalling x = .ok a ↔ x = .ok a := by
  cases x <;> simp [ofMarshalling, Except.mapError]

theorem exists_sides_of_generate_eq_ok {i : ResolvedInterface}
    {m : ResolvedMethod} {g : Generated} (generated : generate r i m = .ok g) :
    ∃ s, Signature.ofResolved r m = .ok s ∧
      proxy r s = .ok g.proxy ∧ stub r s = .ok g.stub := by
  obtain ⟨owner, _, rest⟩ := bind_eq_ok_iff.mp generated
  obtain ⟨s, resolved, rest⟩ := bind_eq_ok_iff.mp rest
  obtain ⟨caller, proxied, rest⟩ := bind_eq_ok_iff.mp rest
  obtain ⟨callee, stubbed, done⟩ := bind_eq_ok_iff.mp rest
  cases done
  exact ⟨s, resolved, ofMarshalling_eq_ok_iff.mp proxied,
    ofMarshalling_eq_ok_iff.mp stubbed⟩

theorem provided_of_generate_eq_ok (formed : r.WellFormed)
    {i : ResolvedInterface} {m : ResolvedMethod} {g : Generated}
    (generated : generate r i m = .ok g)
    (names : ∀ p ∈ m.parameters, p.name ≠ loaderName) :
    Provided g.proxy ∧ Provided g.stub := by
  obtain ⟨s, resolved, proxied, stubbed⟩ :=
    exists_sides_of_generate_eq_ok generated
  obtain ⟨known, named⟩ := known_of_ofResolved_eq_ok resolved
  have others : ∀ p ∈ s.parameters, p.name ≠ loaderName := by
    intro p listed
    obtain ⟨q, member, same⟩ := named p listed
    exact same ▸ names q member
  exact ⟨provided_proxy formed known others proxied,
    provided_stub formed known stubbed⟩

/-- The class loader of a body is declared once, at its top level, where the
first operation that needs one stands, and ahead of every mention; the rest of
the body is what a slot that holds it gives. So each side of a method declares
it once at most. -/
theorem class_loader_is_declared_once {r : Registry} (reachable : r.Reachable) :
    (∀ (calls : List Call) (code : Block), (∀ c ∈ calls, c.Proper r) →
      (emitCalls r calls).code = .ok code →
        (code.declarations loaderName ≠ [] ↔
          ∃ c ∈ calls, c.needsClassLoader r) ∧
        ((∀ c ∈ calls, c.needsClassLoader r = false) →
          code.Unmentioned loaderName ∧
          emitCalls r calls (slot true) = ⟨code, slot true, .ok ()⟩) ∧
        ∀ before first after, calls = before ++ first :: after →
          (∀ c ∈ before, c.needsClassLoader r = false) →
          first.needsClassLoader r →
          ∃ ahead own behind : Block,
            (emitCalls r before).code = .ok ahead ∧
            first.emit r (slot true) = ⟨own, slot true, .ok ()⟩ ∧
            emitCalls r after (slot true) = ⟨behind, slot true, .ok ()⟩ ∧
            code =
              ahead ++ .declare loaderVariable loaderValue :: (own ++ behind) ∧
            code.declarations loaderName = [loaderVariable] ∧
            ahead.Unmentioned loaderName ∧
            emitCalls r calls (slot true) =
              ⟨ahead ++ (own ++ behind), slot true, .ok ()⟩) ∧
      ∀ (i : ResolvedInterface) (m : ResolvedMethod) (g : Generated),
        generate r i m = .ok g → (∀ p ∈ m.parameters, p.name ≠ loaderName) →
          Provided g.proxy ∧ Provided g.stub := by
  have formed := reachable.wellFormed
  refine ⟨?_, fun i m g => provided_of_generate_eq_ok formed⟩
  intro calls code proper emitted
  obtain ⟨start, done⟩ := outcome_of_code_eq_ok emitted
  have unneeded (none : ∀ c ∈ calls, c.needsClassLoader r = false) :
      code.Unmentioned loaderName ∧
        emitCalls r calls (slot true) = ⟨code, slot true, .ok ()⟩ := by
    obtain ⟨rest, free, run⟩ :=
      exists_code_of_unneeded formed proper none false done
    have same : (emitCalls r calls Option.none).code = rest :=
      congrArg Emission.code (run false)
    obtain rfl := start.symm.trans same
    exact ⟨free, run true⟩
  have split (before : List Call) (first : Call) (after : List Call)
      (cut : calls = before ++ first :: after) (none : ∀ c ∈ before,
          c.needsClassLoader r = false) (needs : first.needsClassLoader r) :
      ∃ ahead own behind, Split r before first after ahead own behind ∧ code =
        ahead ++ .declare loaderVariable loaderValue :: (own ++ behind) := by
    subst cut
    obtain ⟨ahead, own, behind, split⟩ :=
      exists_split formed proper none needs done
    refine ⟨ahead, own, behind, split, ?_⟩
    have run : (emitCalls r (before ++ first :: after) Option.none).code = _ :=
      congrArg Emission.code (split.run false)
    exact start.symm.trans run
  refine ⟨⟨?_, ?_⟩, unneeded, ?_⟩
  · intro declares
    by_contra needless
    apply declares
    apply declarations_eq_nil_iff.mpr
    apply (unneeded ?_).1.undeclared
    exact fun c listed =>
      Bool.eq_false_iff.mpr fun needs => needless ⟨c, listed, needs⟩
  · rintro ⟨c, listed, needs⟩
    have found : (calls.find? (Call.needsClassLoader r)).isSome :=
      List.find?_isSome.mpr ⟨c, listed, needs⟩
    obtain ⟨first, isFirst⟩ := Option.isSome_iff_exists.mp found
    obtain ⟨firstNeeds, before, after, cut, none⟩ :=
      List.find?_eq_some_iff_append.mp isFirst
    obtain ⟨ahead, own, behind, parts, rfl⟩ :=
      split before first after cut
        (fun c listed => by simpa using none c listed) firstNeeds
    rw [declarations_of_split parts.unmentioned parts.undeclared]
    nofun
  · intro before first after cut none needs
    obtain ⟨ahead, own, behind, parts, rfl⟩ :=
      split before first after cut none needs
    subst cut
    refine ⟨ahead, own, behind, ?_, parts.first true, parts.after, rfl,
      declarations_of_split parts.unmentioned parts.undeclared,
      parts.unmentioned, parts.run true⟩
    have run : emitCalls r before Option.none = _ := parts.before false
    rw [Emitter.code, run]
    rfl

def keeper : Document where
  package := "a.b"
  file := "Keeper.aidl"
  items := [.interface ⟨"Keeper", 1, false, [⟨"keep", 2, false,
    ⟨"void", false, 2⟩, [⟨.input, ⟨"Map", false, 2⟩, "first", 2⟩,
      ⟨.inOut, ⟨"List", false, 2⟩, "second", 2⟩]⟩]⟩]

/-- A map is written, and a string, a map and a list are taken out again. -/
def keeping : List Call :=
  let parcel : Java.Variable := ⟨"android.os.Parcel", "data"⟩
  let map : Descriptor := .builtIn "java.util" "Map" .writeAndOut .map
  let list : Descriptor := .builtIn "java.util" "List" .writeAndOut .list
  let string : Descriptor := .builtIn "java.lang" "String" .write .string
  [⟨.write, map, ⟨"java.util.Map", "given"⟩, parcel, .none⟩,
    ⟨.create, string, ⟨"java.lang.String", "name"⟩, parcel, .none⟩,
    ⟨.create, map, ⟨"java.util.Map", "made"⟩, parcel, .none⟩,
    ⟨.read, list, ⟨"java.util.List", "filled"⟩, parcel, .none⟩]

theorem proper_keeping (formed : r.WellFormed) : ∀ c ∈ keeping, c.Proper r := by
  have map := formed.get?_builtIn (h := .map) rfl
  have list := formed.get?_builtIn (h := .list) rfl
  have string := formed.get?_builtIn (h := .string) rfl
  simp only [keeping, List.forall_mem_cons]
  exact ⟨⟨⟨_, map⟩, by decide, by decide⟩, ⟨⟨_, string⟩, by decide, by decide⟩,
    ⟨⟨_, map⟩, by decide, by decide⟩, ⟨⟨_, list⟩, by decide, by decide⟩,
    List.forall_mem_nil _⟩

theorem class_loader_is_declared_once_keeper :
    let r := (keeper.declare .standard).1
    let m : ResolvedMethod :=
      ⟨"keep", 2, false, ⟨.void, false⟩, [⟨"first", .input, ⟨.map, false⟩, 2⟩,
        ⟨"second", .inOut, ⟨.list, false⟩, 2⟩]⟩
    (∃ code : Block, (emitCalls r keeping).code = .ok code ∧
      code.length = 5 ∧ code.declarations loaderName = [loaderVariable]) ∧
    ∃ g, generate r ⟨⟨24⟩, 1, [m]⟩ m = .ok g ∧
      Provided g.proxy ∧ Provided g.stub := by
  intro r m
  have reachable : r.Reachable :=
    declareItems_grows keeper .standard keeper.items
  obtain ⟨bodies, methods⟩ := class_loader_is_declared_once reachable
  constructor
  · have size : (emitCalls r keeping).code.toOption.map List.length =
        some 5 := by decide +kernel
    cases emitted : (emitCalls r keeping).code with
    | error error => simp [emitted, Except.toOption] at size
    | ok code =>
        obtain ⟨_, _, split⟩ :=
          bodies keeping code (proper_keeping reachable.wellFormed) emitted
        obtain ⟨_, _, _, _, _, _, _, once, _⟩ :=
          split (keeping.take 2) (keeping.get ⟨2, by decide⟩) (keeping.drop 3)
            rfl (by decide +kernel) (by decide +kernel)
        exact ⟨code, rfl, by simpa [emitted, Except.toOption] using size, once⟩
  · have ok : (generate r ⟨⟨24⟩, 1, [m]⟩ m).isOk := by decide +kernel
    cases made : generate r ⟨⟨24⟩, 1, [m]⟩ m with
    | error error => simp [made, Except.isOk, Except.toBool] at ok
    | ok g => exact ⟨g, rfl, methods _ m g made (by decide)⟩

end Method

end BinderIdl
