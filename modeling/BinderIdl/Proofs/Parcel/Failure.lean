import BinderIdl.Proofs.Parcel.Loading

/-! What an operation that fails leaves in the body. As a rule nothing: it finds
out that there is no code before it emits any. A container is begun too early,
though: when the first part without code is met, the class loader is declared
and the size is read already, and both stay. -/

namespace BinderIdl.Parcel

open Java BinderIdl.Types

variable {α β : Type}

namespace Emitter

/-- A failure leaves neither code nor a class loader behind. -/
def Atomic (e : Emitter α) : Prop :=
  ∀ loader error,
    (e loader).outcome = .error error → e loader = ⟨[], loader, .error error⟩

theorem atomic_fail (error : MarshalError) :
    (fail error : Emitter α).Atomic := by
  intro loader other failed
  cases failed
  rfl

theorem Succeeds.atomic {e : Emitter α} (succeeds : e.Succeeds) : e.Atomic := by
  intro loader error failed
  obtain ⟨a, done⟩ := succeeds loader
  cases done.symm.trans failed

theorem atomic_ofCode (result : Except MarshalError Block) :
    (ofCode result).Atomic := by
  cases result with
  | error error => exact atomic_fail error
  | ok code => exact (succeeds_emitAll code).atomic

/-- With the class loader at hand if one is needed, the emitter leaves the slot
as it is, whether it fails or not. -/
def Keeps (needed : Bool) (e : Emitter α) : Prop :=
  ∀ loader, (needed → loader.isSome) → (e loader).loader = loader

variable {needed also : Bool}

theorem keeps_fail (error : MarshalError) :
    (fail error : Emitter α).Keeps needed :=
  fun _ _ => rfl

theorem keeps_emitAll (code : Block) :
    (emitAll code).Keeps needed := fun _ _ => rfl

theorem keeps_ofExcept (result : Except MarshalError α) :
    (ofExcept result).Keeps needed := by
  cases result with
  | error error => exact keeps_fail error
  | ok a => exact fun _ _ => rfl

theorem keeps_acquire (r : Registry) : (acquire r).Keeps true := by
  intro loader enough
  obtain ⟨v, rfl⟩ := Option.isSome_iff_exists.mp (enough rfl)
  rfl

theorem Keeps.bind {first : Emitter α} {next : α → Emitter β}
    (before : first.Keeps needed) (after : ∀ a, (next a).Keeps needed) :
    (first >>= next).Keeps needed := by
  intro loader enough
  have here := before loader enough
  cases done : (first loader).outcome with
  | error error => rw [run_bind_error done, here]
  | ok a =>
      rw [run_bind_ok done, here]
      exact after a loader enough

theorem Keeps.weaken {e : Emitter α} (keeps : e.Keeps needed)
    (enough : needed → also) :
    e.Keeps also :=
  fun loader there => keeps loader fun n => there (enough n)

theorem acquireIf_loader {r : Registry} (formed : r.WellFormed) (needed : Bool)
    (loader : Option Variable) :
    acquireIf r needed loader = ⟨acquireCode loader.isSome needed, if needed
      then some (loader.getD loaderVariable) else loader, .ok ()⟩ := by
  cases loader with
  | none => cases needed <;> exact acquireIf_slot formed false _
  | some v => cases needed <;> rfl

/-- Code around a body of its own, behind the class loader and an opening. -/
inductive Begins (r : Registry) (needed : Bool) (opening : Block) :
    Emitter Unit → Prop where
  | around {body : Emitter Unit} (wrap : Block → Stmt) : body.Keeps needed →
      Begins r needed opening (acquireIf r needed >>= fun _ =>
        emitAll opening >>= fun _ =>
          nested body >>= fun code => emit (wrap code))

/-- If it fails, the body has failed, and all that stands in front of
the body stays. -/
theorem Begins.eq_of_outcome_eq_error {r : Registry} (formed : r.WellFormed)
    {opening : Block} {e : Emitter Unit} (begins : Begins r needed opening e)
    {loader : Option Variable} {error : MarshalError}
    (failed : (e loader).outcome = .error error) :
    e loader = ⟨acquireCode loader.isSome needed ++ opening, if needed
      then some (loader.getD loaderVariable) else loader, .error error⟩ := by
  obtain @⟨body, wrap, keeps⟩ := begins
  have taken := acquireIf_loader formed needed loader
  generalize held :
    (if needed then some (loader.getD loaderVariable) else loader) =
      slot at taken ⊢
  have kept : (body slot).loader = slot :=
    keeps slot fun n => by rw [← held, if_pos n]; rfl
  have opened : emitAll opening slot = ⟨opening, slot, .ok ()⟩ := rfl
  rw [run_bind_ok (by rw [taken]), taken, run_bind_ok (by rw [opened]),
    opened] at failed ⊢
  dsimp only at failed ⊢
  cases inside : (body slot).outcome with
  | ok _ =>
      -- The code of a body that succeeds is emitted, and then
      -- nothing has failed.
      have done : (nested body slot).outcome = .ok (body slot).code := by
        simp [nested, inside, Except.map]
      rw [run_bind_ok done] at failed
      cases failed
  | error reason =>
      have stopped : (nested body slot).outcome = .error reason := by
        simp [nested, inside, Except.map]
      rw [run_bind_error stopped] at failed ⊢
      cases failed
      simp [nested, kept]

end Emitter

open Emitter

variable {r : Registry} {d : Descriptor} {value parcel : Variable}

theorem atomic_createWhole (formed : r.WellFormed) (d : Descriptor)
    (value parcel : Variable) :
    (createWhole r d value parcel).Atomic := by
  by_cases whole : d.strategy.isWhole
  · exact (succeeds_createWhole formed whole value parcel).atomic
  · rw [createWhole_of_not_isWhole whole]
    exact atomic_fail _

theorem atomic_readWhole (formed : r.WellFormed) (d : Descriptor)
    (value parcel : Variable) :
    (readWhole r d value parcel).Atomic := by
  by_cases fillable : d.strategy.isFillable
  · exact (succeeds_readWhole formed fillable value parcel).atomic
  · rw [readWhole_of_not_isFillable fillable]
    exact atomic_fail _

theorem keeps_acquire_emit (r : Registry) (stmt : Variable → Stmt) :
    (acquire r >>= fun loader => emit (stmt loader)).Keeps true :=
  (keeps_acquire r).bind fun _ => keeps_emitAll _

theorem keeps_createList (r : Registry) (arguments : TypeArguments)
    (element : ListElement) (value parcel : Variable) :
    (createList r element value parcel).Keeps
      (Strategy.genericList arguments element).looksUpClasses := by
  cases element with
  | untyped => exact keeps_acquire_emit r _
  | _ => exact keeps_emitAll _

theorem keeps_createWhole (r : Registry) (d : Descriptor)
    (value parcel : Variable) :
    (createWhole r d value parcel).Keeps d.strategy.looksUpClasses := by
  unfold createWhole
  cases d.strategy with
  | map | list => exact keeps_acquire_emit r _
  | genericList arguments element =>
      exact keeps_createList r arguments element value parcel
  | charSequence => exact (keeps_ofExcept _).bind fun _ => keeps_emitAll _
  | binder kind =>
      cases kind with
      | interface => exact (keeps_ofExcept _).bind fun _ => keeps_emitAll _
      | _ => exact keeps_emitAll _
  | void | helper | generic => exact keeps_fail _
  | _ => exact keeps_emitAll _

theorem keeps_fillElement (r : Registry) (element : Descriptor)
    (value parcel : Variable) :
    (fillElement value element fun v => createWhole r element v parcel).Keeps
      element.strategy.looksUpClasses :=
  (keeps_createWhole r element _ parcel).bind fun _ => keeps_emitAll _

theorem keeps_fillEntry (r : Registry) (key val : Descriptor)
    (value parcel : Variable) :
    (fillEntry value key val (fun v => createWhole r key v parcel)
      fun v => createWhole r val v parcel).Keeps
      (key.strategy.looksUpClasses || val.strategy.looksUpClasses) := by
  refine ((keeps_createWhole r key _ parcel).weaken fun n => by simp [n]).bind
    fun _ => ?_
  exact ((keeps_createWhole r val _ parcel).weaken fun n => by simp [n]).bind
    fun _ => keeps_emitAll _

/-- What is emitted ahead of the loop over the parts of a container. -/
def Operation.opening (value parcel : Variable) : Operation → Block
  | .create => [.declareUnset value, readSize value parcel]
  | .read => [.expr (value.call "clear" []), readSize value parcel]
  | .write | .writeArray | .createArray | .readArray => []

/-- The operation gets the parts of a container out of the parcel one by one. -/
structure Operation.TakesParts (operation : Operation) (d : Descriptor) :
    Prop where
  gets : operation = .create ∨ operation = .read
  parts : ∃ arguments, d.strategy = .generic arguments ∧
    (arguments.handles.length = 1 ∨ arguments.handles.length = 2)

/-- Creating and reading such a container fill it with the same code. -/
theorem exists_body_of_parts (formed : r.WellFormed) {arguments : TypeArguments}
    {types : List Descriptor} (generic : d.strategy = .generic arguments)
    (known : r.Arguments arguments.handles types)
    (few : types.length = 1 ∨ types.length = 2) (value parcel : Variable) :
    ∃ body : Emitter Unit, body.Keeps (r.needsClassLoader d) ∧
      create r d value parcel = (acquireIf r (r.needsClassLoader d) >>= fun _ =>
        createContainer value parcel (.new d.instantiable []) body) ∧
      (r.layout d).read r parcel value =
        (acquireIf r (r.needsClassLoader d) >>= fun _ =>
          refillContainer value parcel body) := by
  have needed := needsClassLoader_of_arguments formed generic known
  rw [create, layout_of_arguments formed generic known]
  match types with
  | [] => simp at few
  | [element] =>
      rw [List.any_cons, List.any_nil, Bool.or_false] at needed
      exact ⟨_, needed ▸ keeps_fillElement r element value parcel, rfl, rfl⟩
  | [key, val] =>
      rw [List.any_cons, List.any_cons, List.any_nil, Bool.or_false] at needed
      exact ⟨_, needed ▸ keeps_fillEntry r key val value parcel, rfl, rfl⟩
  | _ :: _ :: _ :: _ => simp at few

theorem layout_of_not_takesParts (formed : r.WellFormed) {h : Handle}
    (known : r.get? h = some d) {operation : Operation}
    (gets : operation = .create ∨ operation = .read)
    (plain : ¬ operation.TakesParts d) :
    r.layout d = .whole d ∨ r.layout d = .shapeless d := by
  obtain ⟨types, seen⟩ := exists_seen_of_known formed known
  rw [seen.layout_eq formed]
  cases seen with
  | whole => exact .inl rfl
  | @«instance» arguments types generic known =>
      have many (few : types.length = 1 ∨ types.length = 2) : False :=
        plain ⟨gets, arguments, generic, by rwa [known.length_eq]⟩
      match types with
      | [] => exact .inr rfl
      | [_] => exact (many (.inl rfl)).elim
      | [_, _] => exact (many (.inr rfl)).elim
      | _ :: _ :: _ :: _ => exact .inr rfl

theorem atomic_create (formed : r.WellFormed) {h : Handle}
    (known : r.get? h = some d) (plain : ¬ Operation.create.TakesParts d)
    (value parcel : Variable) :
    (create r d value parcel).Atomic := by
  unfold create
  rcases layout_of_not_takesParts formed known (.inl rfl) plain with
    layout | layout
  · rw [layout]
    exact atomic_createWhole formed d value parcel
  · rw [layout]
    exact atomic_fail _

theorem atomic_read (formed : r.WellFormed) {h : Handle}
    (known : r.get? h = some d) (plain : ¬ Operation.read.TakesParts d)
    (value parcel : Variable) :
    (read r d value parcel).Atomic := by
  unfold read
  split
  · rcases layout_of_not_takesParts formed known (.inr rfl) plain with
      layout | layout
    · rw [layout]
      exact atomic_readWhole formed d value parcel
    · rw [layout]
      exact atomic_fail _
  · exact atomic_fail _

theorem atomic_createArray (formed : r.WellFormed) (d : Descriptor)
    (value parcel : Variable) :
    (createArray r d value parcel).Atomic := by
  by_cases array : d.canBeArray
  · exact (succeeds_createArray formed array value parcel).atomic
  · rw [createArray_of_not_canBeArray array]
    exact atomic_fail _

theorem atomic_readArray (formed : r.WellFormed) {h : Handle}
    (known : r.get? h = some d) (value parcel : Variable) :
    (readArray r d value parcel).Atomic := by
  by_cases array : d.canBeArray
  · exact (succeeds_readArray formed known array value parcel).atomic
  · rw [readArray_of_not_canBeArray array]
    exact atomic_fail _

theorem atomic_emit (formed : r.WellFormed) {h : Handle}
    (known : r.get? h = some d) {operation : Operation}
    (plain : ¬ operation.TakesParts d) (value parcel : Variable)
    (flags : WriteFlags) : (operation.emit r d value parcel flags).Atomic := by
  cases operation with
  | write => exact atomic_ofCode _
  | create => exact atomic_create formed known plain value parcel
  | read => exact atomic_read formed known plain value parcel
  | writeArray => exact atomic_ofCode _
  | createArray => exact atomic_createArray formed d value parcel
  | readArray => exact atomic_readArray formed known value parcel

theorem begins_emit (formed : r.WellFormed) {h : Handle}
    (known : r.get? h = some d) {operation : Operation}
    (takes : operation.TakesParts d) (value parcel : Variable)
    (flags : WriteFlags) :
    Begins r (r.needsClassLoader d) (operation.opening value parcel)
      (operation.emit r d value parcel flags) := by
  obtain ⟨gets, arguments, generic, few⟩ := takes
  obtain ⟨_, seen⟩ := exists_seen_of_known formed known
  cases seen with
  | whole whole => exact absurd generic (whole arguments)
  | @«instance» others types same parts =>
      cases generic.symm.trans same
      have fit := (formed.canBeOut_iff_of_generic known generic).mpr few
      obtain ⟨body, keeps, created, filled⟩ :=
        exists_body_of_parts formed generic parts (by rwa [← parts.length_eq])
          value parcel
      rcases gets with rfl | rfl
      · simp only [Operation.emit, created]
        exact .around _ keeps
      · simp only [Operation.emit, read, fit, if_true, filled]
        exact .around _ keeps

theorem opening_ne_nil {operation : Operation} (takes : operation.TakesParts d)
    (value parcel : Variable) : operation.opening value parcel ≠ [] := by
  rcases takes.gets with rfl | rfl <;> exact List.cons_ne_nil _ _

/-- An operation that fails leaves the code and the class loader of the body
as they are, unless it gets the parts of a container one by one. Then the
class loader that the parts need, and what stands ahead of the loop, is
emitted and stays. -/
theorem failure_leaves_opening (reachable : r.Reachable) {h : Handle}
    (known : r.get? h = some d) (operation : Operation)
    (value parcel : Variable) (flags : WriteFlags) (loader : Option Variable)
    {error : MarshalError}
    (failed : (operation.emit r d value parcel flags loader).outcome =
      .error error) :
    let left := operation.emit r d value parcel flags loader
    (left.code = [] ∧ left.loader = loader ↔ ¬ operation.TakesParts d) ∧
    (operation.TakesParts d →
      left.code = acquireCode loader.isSome (r.needsClassLoader d) ++
        operation.opening value parcel ∧ left.loader = if r.needsClassLoader d
      then some (loader.getD loaderVariable) else loader) := by
  intro left
  have formed := reachable.wellFormed
  have opened (takes : operation.TakesParts d) :=
    (begins_emit formed known takes value parcel flags).eq_of_outcome_eq_error
      formed failed
  refine ⟨⟨fun untouched takes => ?_, fun plain => ?_⟩, fun takes => ?_⟩
  · have code : acquireCode loader.isSome (r.needsClassLoader d) ++
        operation.opening value parcel = [] :=
      (congrArg Emission.code (opened takes)).symm.trans untouched.1
    exact opening_ne_nil takes value parcel (List.append_eq_nil_iff.mp code).2
  · have clean :=
      atomic_emit formed known plain value parcel flags loader error failed
    exact ⟨congrArg Emission.code clean, congrArg Emission.loader clean⟩
  · exact ⟨congrArg Emission.code (opened takes),
      congrArg Emission.loader (opened takes)⟩

/-- A map from lists, which need a class loader, to contexts, which
have no code. -/
def mapFromLists : Descriptor :=
  .ofTemplate "java.util" "Map" .writeAndOut (.generic ⟨[.list, .context],
    "<java.util.List,android.content.Context>",
    "java.util.HashMap<java.util.List,android.content.Context>"⟩)

def withMapFromLists : Registry :=
  { Registry.standard with types := BuiltIn.types ++ [mapFromLists] }

theorem reachable_withMapFromLists : withMapFromLists.Reachable := by
  have made : Registry.standard.resolve "Map<List,Context>" =
      .ok (⟨24⟩, withMapFromLists) := by
    decide +kernel
  exact Registry.reachable_standard.grows (Registry.Step.resolve made).grows

/-- Reading such a map has emptied it before it fails; an array of them is
refused at once. -/
theorem failure_leaves_opening_mapFromLists :
    let value := mapFromLists.valueVariable "v"
    let parcel : Variable := ⟨"android.os.Parcel", "data"⟩
    let read :=
      Operation.read.emit withMapFromLists mapFromLists value parcel .none none
    let array := Operation.readArray.emit withMapFromLists mapFromLists value
      parcel .none none
    read.outcome = .error (.unsupported "android.content.Context" .create) ∧
    read.code = [.declare loaderVariable loaderValue,
      .expr (value.call "clear" []), readSize value parcel] ∧ array.outcome =
        .error (.unsupported mapFromLists.qualifiedName .readArray) ∧
    array.code = [] ∧ array.loader = none := by
  intro value parcel read array
  have emptied : read.outcome =
      .error (.unsupported "android.content.Context" .create) := by rfl
  have refused : array.outcome =
      .error (.unsupported mapFromLists.qualifiedName .readArray) := by
    rfl
  have takes : Operation.read.TakesParts mapFromLists :=
    ⟨.inr rfl, _, rfl, .inr rfl⟩
  have plain : ¬ Operation.readArray.TakesParts mapFromLists := fun other => by
    rcases other.gets with same | same <;> cases same
  obtain ⟨_, opened⟩ := failure_leaves_opening reachable_withMapFromLists
    (h := ⟨24⟩) (d := mapFromLists) rfl .read value parcel .none none emptied
  obtain ⟨untouched, _⟩ :=
    failure_leaves_opening reachable_withMapFromLists (h := ⟨24⟩)
      (d := mapFromLists) rfl .readArray value parcel .none none refused
  obtain ⟨code, loader⟩ := untouched.mpr plain
  exact ⟨emptied, (opened takes).1.trans (by rfl), refused, code, loader⟩

/-- Creating such a map fails too, behind the class loader, a declaration and
the size. -/
theorem failed_create_emits_mapFromLists :
    let value := mapFromLists.valueVariable "v"
    let parcel : Variable := ⟨"android.os.Parcel", "data"⟩
    let left := Operation.create.emit withMapFromLists mapFromLists value parcel
      .none none
    withMapFromLists.Reachable ∧
    withMapFromLists.get? ⟨24⟩ = some mapFromLists ∧
    left.outcome = .error (.unsupported "android.content.Context" .create) ∧
    left.code = [.declare loaderVariable loaderValue, .declareUnset value,
      readSize value parcel] ∧ left.loader = some loaderVariable :=
  ⟨reachable_withMapFromLists, rfl, rfl, rfl, rfl⟩

end BinderIdl.Parcel
