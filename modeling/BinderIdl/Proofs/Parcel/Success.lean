import BinderIdl.Parcel.Marshal
import BinderIdl.Proofs.Parcel.Carried

namespace BinderIdl.Parcel

open Java BinderIdl.Types

variable {α β : Type}

namespace Emitter

/-- Whatever the class-loader local is, the emitter does not fail. -/
def Succeeds (e : Emitter α) : Prop := ∀ loader, ∃ a, (e loader).outcome = .ok a

theorem succeeds_pure (a : α) :
    (pure a : Emitter α).Succeeds := fun _ => ⟨a, rfl⟩

theorem succeeds_emitAll (code : Block) :
    (emitAll code).Succeeds := fun _ => ⟨(), rfl⟩

theorem succeeds_emit (stmt : Stmt) :
    (emit stmt).Succeeds := succeeds_emitAll [stmt]

theorem Succeeds.bind {first : Emitter α} {next : α → Emitter β}
    (before : first.Succeeds) (after : ∀ a, (next a).Succeeds) :
    (first >>= next).Succeeds := by
  intro loader
  obtain ⟨a, done⟩ := before loader
  obtain ⟨b, rest⟩ := after a (first loader).loader
  exact ⟨b, by rw [run_bind_ok done]; exact rest⟩

theorem outcomes_of_bind {first : Emitter α} {next : α → Emitter β}
    {loader : Option Variable} {b : β}
    (done : ((first >>= next) loader).outcome = .ok b) :
    ∃ a, (first loader).outcome = .ok a ∧
      (next a (first loader).loader).outcome = .ok b := by
  cases before : (first loader).outcome with
  | error error =>
      rw [run_bind_error before] at done
      cases done
  | ok a =>
      rw [run_bind_ok before] at done
      exact ⟨a, rfl, done⟩

theorem succeeds_ofExcept {result : Except MarshalError α} {a : α}
    (done : result = .ok a) :
    (ofExcept result).Succeeds := by
  subst done
  exact succeeds_pure a

theorem succeeds_ofCode {result : Except MarshalError Block} {code : Block}
    (done : result = .ok code) : (ofCode result).Succeeds := by
  subst done
  exact succeeds_emitAll code

theorem Succeeds.nested {body : Emitter Unit} (inner : body.Succeeds) :
    (nested body).Succeeds := by
  intro loader
  obtain ⟨a, done⟩ := inner loader
  exact ⟨(body loader).code, by simp [Emitter.nested, done, Except.map]⟩

theorem Succeeds.code {body : Emitter Unit} (inner : body.Succeeds) :
    body.code = .ok (body none).code := by
  obtain ⟨a, done⟩ := inner none
  simp [Emitter.code, done, Except.map]

theorem succeeds_forM (xs : List α) {f : α → Emitter Unit}
    (all : ∀ x ∈ xs, (f x).Succeeds) : (xs.forM f).Succeeds := by
  induction xs with
  | nil => exact succeeds_pure ()
  | cons x rest induction =>
      apply (all x (by simp)).bind
      intro _
      exact induction fun y listed => all y (by simp [listed])

theorem succeeds_acquire {r : Registry} (formed : r.WellFormed) :
    (acquire r).Succeeds := by
  intro loader
  cases loader with
  | some v => exact ⟨v, rfl⟩
  | none =>
      have required := formed.require_builtIn (h := .classLoader) rfl
      simp [acquire, required]

theorem succeeds_acquireIf {r : Registry} (formed : r.WellFormed)
    (needed : Bool) :
    (acquireIf r needed).Succeeds := by
  unfold acquireIf
  split
  · exact (succeeds_acquire formed).bind fun _ => succeeds_pure ()
  · exact succeeds_pure ()

end Emitter

open Emitter

variable {r : Registry} {d : Descriptor} {value parcel : Variable}
  {flags : WriteFlags}

theorem writeWhole_of_not_isWhole (none : ¬ d.strategy.isWhole) :
    writeWhole r d value parcel flags =
      .error (.unsupported d.qualifiedName .write) := by
  unfold writeWhole
  cases strategy : d.strategy <;> simp_all [Strategy.isWhole]

theorem createWhole_of_not_isWhole (none : ¬ d.strategy.isWhole) :
    createWhole r d value parcel =
      fail (.unsupported d.qualifiedName .create) := by
  unfold createWhole
  cases strategy : d.strategy <;> simp_all [Strategy.isWhole]

theorem readWhole_of_not_isFillable (none : ¬ d.strategy.isFillable) :
    readWhole r d value parcel = fail (.unsupported d.qualifiedName .read) := by
  unfold readWhole
  cases strategy : d.strategy <;> simp_all [Strategy.isFillable]

theorem writeArray_of_not_canBeArray (none : ¬ d.canBeArray) :
    writeArray r d value parcel flags =
      .error (.unsupported d.qualifiedName .writeArray) := by
  unfold Descriptor.canBeArray at none
  unfold writeArray
  split <;> simp_all

theorem createArray_of_not_canBeArray (none : ¬ d.canBeArray) :
    createArray r d value parcel =
      fail (.unsupported d.qualifiedName .createArray) := by
  unfold Descriptor.canBeArray at none
  unfold createArray
  split <;> simp_all

theorem readArray_of_not_canBeArray (none : ¬ d.canBeArray) :
    readArray r d value parcel =
      fail (.unsupported d.qualifiedName .readArray) := by
  unfold Descriptor.canBeArray at none
  unfold readArray
  split <;> simp_all

theorem exists_flagsExpr (formed : r.WellFormed) (flags : WriteFlags) :
    ∃ e, flagsExpr r flags = .ok e := by
  unfold flagsExpr
  rw [formed.require_builtIn (h := .parcelable) rfl]
  split <;> exact ⟨_, rfl⟩

theorem exists_writeWhole (formed : r.WellFormed) {d : Descriptor}
    (whole : d.strategy.isWhole) (value parcel : Variable)
    (flags : WriteFlags) :
    ∃ code, writeWhole r d value parcel flags = .ok code := by
  obtain ⟨e, flagged⟩ := exists_flagsExpr formed flags
  unfold writeWhole
  split <;> first
    | exact ⟨_, rfl⟩
    | skip
  · simp [writeCharSequence, flagged, formed.require_builtIn (h := .textUtils)
      rfl, bind, Except.bind, pure, Except.pure]
  · simp [writeRecord, flagged, bind, Except.bind, pure, Except.pure]
  · next void => simp [void, Strategy.isWhole] at whole
  · next helper => simp [helper, Strategy.isWhole] at whole
  · next generic => simp [generic, Strategy.isWhole] at whole

theorem exists_write (formed : r.WellFormed) {d : Descriptor}
    (carried : r.Carried d) (value parcel : Variable) (flags : WriteFlags) :
    ∃ code, write r d value parcel flags = .ok code := by
  unfold write
  cases carried with
  | whole whole =>
      rw [Registry.layout_of_isWhole r whole]
      exact exists_writeWhole formed whole value parcel flags
  | @elements element _ _ generic single known whole =>
      rw [Registry.layout_of_elements generic single known whole]
      obtain ⟨body, done⟩ :=
        exists_writeWhole formed whole (itemVariable value element) parcel flags
      simp [Layout.write, Layout.type, done, bind, Except.bind, pure,
        Except.pure]
  | @entries key val _ _ _ generic pair keyKnown keyWhole valueKnown
      valueWhole =>
      rw [Registry.layout_of_entries generic pair keyKnown keyWhole valueKnown
        valueWhole]
      obtain ⟨keyCode, keyDone⟩ :=
        exists_writeWhole formed keyWhole (entryKeyVariable value key)
          parcel flags
      obtain ⟨valueCode, valueDone⟩ :=
        exists_writeWhole formed valueWhole (entryValueVariable value val)
          parcel flags
      simp [Layout.write, Layout.type, keyDone, valueDone, bind, Except.bind,
        pure, Except.pure]

theorem exists_writeArray (formed : r.WellFormed) {d : Descriptor}
    (array : d.canBeArray) (value parcel : Variable) (flags : WriteFlags) :
    ∃ code, writeArray r d value parcel flags = .ok code := by
  obtain ⟨e, flagged⟩ := exists_flagsExpr formed flags
  cases d.strategy_of_canBeArray array with
  | primitive p primitive => simp [writeArray, primitive]
  | string string => simp [writeArray, string]
  | binder binder => simp [writeArray, binder]
  | record record =>
      simp [writeArray, record, flagged, bind, Except.bind, pure, Except.pure]
  | list arguments element list =>
      simp [writeArray, list, writeWhole, bind, Except.bind, pure, Except.pure]

theorem succeeds_acquire_emit (formed : r.WellFormed) (stmt : Variable → Stmt) :
    (acquire r >>= fun loader => emit (stmt loader)).Succeeds :=
  (succeeds_acquire formed).bind fun _ => succeeds_emit _

theorem succeeds_createCharSequence (formed : r.WellFormed)
    (value parcel : Variable) :
    (createCharSequence r value parcel).Succeeds :=
  (succeeds_ofExcept (formed.require_builtIn (h := .textUtils) rfl)).bind
    fun _ => succeeds_emitAll _

theorem succeeds_createBinder (formed : r.WellFormed) (kind : BinderKind)
    (value parcel : Variable) :
    (createBinder r kind value parcel).Succeeds := by
  cases kind with
  | interface =>
      exact (succeeds_ofExcept (formed.require_builtIn (h := .binder) rfl)).bind
        fun _ => succeeds_emitAll _
  | handle => exact succeeds_emit _
  | native => exact succeeds_emit _
  | proxy => exact succeeds_emit _

theorem succeeds_createList (formed : r.WellFormed) (element : ListElement)
    (value parcel : Variable) :
    (createList r element value parcel).Succeeds := by
  cases element with
  | untyped => exact succeeds_acquire_emit formed _
  | strings => exact succeeds_emit _
  | binders => exact succeeds_emit _
  | typed creator => exact succeeds_emit _

theorem succeeds_createWhole (formed : r.WellFormed) {d : Descriptor}
    (whole : d.strategy.isWhole) (value parcel : Variable) :
    (createWhole r d value parcel).Succeeds := by
  unfold createWhole
  cases strategy : d.strategy with
  | void => simp [strategy, Strategy.isWhole] at whole
  | helper => simp [strategy, Strategy.isWhole] at whole
  | generic arguments => simp [strategy, Strategy.isWhole] at whole
  | primitive p => exact succeeds_emit _
  | string => exact succeeds_emit _
  | exception kind => exact succeeds_emit _
  | interface oneway => exact succeeds_emit _
  | map => exact succeeds_acquire_emit formed _
  | list => exact succeeds_acquire_emit formed _
  | parcelable => exact succeeds_emitAll _
  | charSequence => exact succeeds_createCharSequence formed value parcel
  | binder kind => exact succeeds_createBinder formed kind value parcel
  | genericList arguments element =>
      exact succeeds_createList formed element value parcel

theorem succeeds_createContainer {fresh : Expr} {body : Emitter Unit}
    (inner : body.Succeeds) :
    (createContainer value parcel fresh body).Succeeds :=
  (succeeds_emitAll _).bind fun _ => inner.nested.bind fun _ => succeeds_emit _

theorem succeeds_refillContainer {body : Emitter Unit} (inner : body.Succeeds) :
    (refillContainer value parcel body).Succeeds :=
  (succeeds_emitAll _).bind fun _ => inner.nested.bind fun _ => succeeds_emit _

theorem succeeds_fillElement (formed : r.WellFormed) {element : Descriptor}
    (whole : element.strategy.isWhole) (value parcel : Variable) :
    (fillElement value element fun v =>
      createWhole r element v parcel).Succeeds :=
  (succeeds_createWhole formed whole _ parcel).bind fun _ => succeeds_emit _

theorem succeeds_fillEntry (formed : r.WellFormed) {key val : Descriptor}
    (keyWhole : key.strategy.isWhole) (valueWhole : val.strategy.isWhole)
    (value parcel : Variable) :
    (fillEntry value key val (fun v => createWhole r key v parcel)
      fun v => createWhole r val v parcel).Succeeds :=
  (succeeds_createWhole formed keyWhole _ parcel).bind fun _ =>
    (succeeds_createWhole formed valueWhole _ parcel).bind fun _ =>
      succeeds_emit _

theorem succeeds_create (formed : r.WellFormed) {d : Descriptor}
    (carried : r.Carried d) (value parcel : Variable) :
    (create r d value parcel).Succeeds := by
  unfold create
  cases carried with
  | whole whole =>
      rw [Registry.layout_of_isWhole r whole]
      exact succeeds_createWhole formed whole value parcel
  | elements generic single known whole =>
      rw [Registry.layout_of_elements generic single known whole]
      exact (succeeds_acquireIf formed _).bind fun _ =>
        succeeds_createContainer (succeeds_fillElement formed whole
          value parcel)
  | entries generic pair keyKnown keyWhole valueKnown valueWhole =>
      rw [Registry.layout_of_entries generic pair keyKnown keyWhole valueKnown
        valueWhole]
      exact (succeeds_acquireIf formed _).bind fun _ =>
        succeeds_createContainer (succeeds_fillEntry formed keyWhole valueWhole
          value parcel)

theorem succeeds_createArray (formed : r.WellFormed) {d : Descriptor}
    (array : d.canBeArray) (value parcel : Variable) :
    (createArray r d value parcel).Succeeds := by
  cases d.strategy_of_canBeArray array with
  | primitive p primitive =>
      simp only [createArray, primitive]
      exact succeeds_emit _
  | string string =>
      simp only [createArray, string]
      exact succeeds_emit _
  | binder binder =>
      simp only [createArray, binder]
      exact succeeds_emit _
  | record record =>
      simp only [createArray, record]
      exact succeeds_emit _
  | list arguments element list =>
      have whole : d.strategy.isWhole := by rw [list]; rfl
      simp only [createArray, list]
      refine (succeeds_acquireIf formed _).bind fun _ =>
        succeeds_createContainer ?_
      exact (succeeds_createWhole formed whole _ parcel).bind fun _ =>
        succeeds_emit _

theorem succeeds_readList (formed : r.WellFormed) (element : ListElement)
    (value parcel : Variable) : (readList r element value parcel).Succeeds := by
  cases element with
  | untyped => exact succeeds_acquire_emit formed _
  | strings => exact succeeds_emit _
  | binders => exact succeeds_emit _
  | typed creator => exact succeeds_emit _

theorem succeeds_readWhole (formed : r.WellFormed) {d : Descriptor}
    (fillable : d.strategy.isFillable) (value parcel : Variable) :
    (readWhole r d value parcel).Succeeds := by
  unfold readWhole
  cases strategy : d.strategy with
  | map => exact succeeds_acquire_emit formed _
  | list => exact succeeds_acquire_emit formed _
  | parcelable => exact succeeds_emit _
  | genericList arguments element =>
      exact succeeds_readList formed element value parcel
  | _ => simp [strategy, Strategy.isFillable] at fillable

theorem succeeds_read (formed : r.WellFormed) {h : Handle} {d : Descriptor}
    (known : r.get? h = some d) (carried : r.Carried d) (fit : d.canBeOut)
    (value parcel : Variable) : (read r d value parcel).Succeeds := by
  unfold read
  rw [if_pos fit]
  cases carried with
  | whole whole =>
      rw [Registry.layout_of_isWhole r whole]
      exact succeeds_readWhole formed
        (formed.isFillable_of_canBeOut known whole fit) value parcel
  | elements generic single partKnown whole =>
      rw [Registry.layout_of_elements generic single partKnown whole]
      exact (succeeds_acquireIf formed _).bind fun _ =>
        succeeds_refillContainer (succeeds_fillElement formed whole
          value parcel)
  | entries generic pair keyKnown keyWhole valueKnown valueWhole =>
      rw [Registry.layout_of_entries generic pair keyKnown keyWhole valueKnown
        valueWhole]
      exact (succeeds_acquireIf formed _).bind fun _ =>
        succeeds_refillContainer (succeeds_fillEntry formed keyWhole valueWhole
          value parcel)

theorem succeeds_readArray (formed : r.WellFormed) {h : Handle} {d : Descriptor}
    (known : r.get? h = some d) (array : d.canBeArray)
    (value parcel : Variable) :
    (readArray r d value parcel).Succeeds := by
  cases d.strategy_of_canBeArray array with
  | primitive p primitive =>
      simp only [readArray, primitive]
      exact succeeds_emit _
  | string string =>
      simp only [readArray, string]
      exact succeeds_emit _
  | binder binder =>
      simp only [readArray, binder]
      exact succeeds_emit _
  | record record =>
      simp only [readArray, record]
      exact succeeds_emit _
  | list arguments element list =>
      have whole : d.strategy.isWhole := by rw [list]; rfl
      have fit := formed.canBeOut_of_genericList known list
      simp only [readArray, list]
      refine (succeeds_acquireIf formed _).bind fun _ =>
        (succeeds_emit _).bind fun _ => ?_
      refine Succeeds.bind (Succeeds.nested ?_) fun _ => succeeds_emit _
      exact (succeeds_emit _).bind fun _ =>
        succeeds_read formed known (.whole whole) fit _ parcel

end BinderIdl.Parcel
