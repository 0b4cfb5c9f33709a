import BinderIdl.Method.Generated
import BinderIdl.Proofs.Document.Legality
import BinderIdl.Proofs.Parcel.Success

namespace BinderIdl

open Document BinderIdl.Types Parcel Emitter

namespace Method

variable {r : Registry}

structure ValueType.Sound (r : Registry) (t : ValueType) : Prop where
  known : ∃ h, r.get? h = some t.descriptor
  carried : r.Carried t.descriptor
  array : t.isArray → t.descriptor.canBeArray

structure Parameter.Sound (r : Registry) (p : Parameter) : Prop where
  type : p.type.Sound r
  comesBack : p.direction.isOut → canReadInto p.type.descriptor p.type.isArray

structure Signature.Sound (r : Registry) (s : Signature) : Prop where
  result : ∀ t, s.result = some t → t.Sound r
  parameters : ∀ p ∈ s.parameters, p.Sound r
  distinct : (s.parameters.map Parameter.name).Nodup
  oneway : s.oneway →
    s.result = none ∧ ∀ p ∈ s.parameters, p.direction.isOut = false

theorem sound_of_marshallable (formed : r.WellFormed) {t : ResolvedType}
    {d : Descriptor} (marshallable : Marshallable r t d) :
    ValueType.Sound r ⟨d, t.isArray⟩ where
  known := ⟨t.handle, marshallable.known⟩
  carried := formed.carried marshallable.known marshallable.writable
    fun part listed e known => by
    obtain ⟨argument, other, writable⟩ := marshallable.arguments part listed
    cases Option.some.inj (known.symm.trans other)
    exact writable
  array := marshallable.array

theorem valueType_eq_ok {t : ResolvedType} {d : Descriptor}
    (known : r.get? t.handle = some d) :
    Signature.valueType r t = .ok ⟨d, t.isArray⟩ := by
  simp [Signature.valueType, known]

theorem exists_parameter (formed : r.WellFormed) {oneway : Bool}
    {p : ResolvedParameter} (legal : LegalParameter r oneway p) :
    ∃ q, Signature.parameter r p = .ok q ∧ q.Sound r ∧ q.name = p.name ∧
      (q.direction.isOut → oneway = false) := by
  obtain ⟨d, marshallable, comesBack⟩ := legal.marshallable
  refine ⟨⟨p.name, p.direction, d, p.type.isArray⟩, ?_, ⟨?_, ?_⟩, rfl, ?_⟩
  · simp [Signature.parameter, valueType_eq_ok marshallable.known, Except.map]
  · exact sound_of_marshallable formed marshallable
  · exact fun out => (comesBack out).2
  · exact fun out => (comesBack out).1

theorem exists_parameters (formed : r.WellFormed) {oneway : Bool}
    {parameters : List ResolvedParameter}
    (legal : ∀ p ∈ parameters, LegalParameter r oneway p) :
    ∃ resolved, parameters.mapM (Signature.parameter r) = .ok resolved ∧
      (∀ q ∈ resolved, q.Sound r ∧ (q.direction.isOut → oneway = false)) ∧
      resolved.map Parameter.name = parameters.map ResolvedParameter.name := by
  induction parameters with
  | nil => exact ⟨[], rfl, by simp, rfl⟩
  | cons p rest induction =>
      obtain ⟨here, later⟩ := List.forall_mem_cons.mp legal
      obtain ⟨q, made, sound, name, waits⟩ := exists_parameter formed here
      obtain ⟨others, done, allSound, names⟩ := induction later
      refine ⟨q :: others, ?_,
        List.forall_mem_cons.mpr ⟨⟨sound, waits⟩, allSound⟩, ?_⟩
      · exact mapM_eq_ok_iff.mpr (.cons made (mapM_eq_ok_iff.mp done))
      · rw [List.map_cons, List.map_cons, name, names]

theorem exists_result (formed : r.WellFormed) {oneway : Bool} {t : ResolvedType}
    (legal : t.isVoid ∨ oneway = false ∧ ∃ d, Marshallable r t d) :
    ∃ result, Signature.result? r t = .ok result ∧
      (∀ v, result = some v → v.Sound r) ∧ (oneway → result = none) := by
  unfold Signature.result?
  split
  · exact ⟨none, rfl, by simp, fun _ => rfl⟩
  · next notVoid =>
      obtain ⟨waits, d, marshallable⟩ := legal.resolve_left notVoid
      refine ⟨some ⟨d, t.isArray⟩, ?_, ?_, ?_⟩
      · simp [valueType_eq_ok marshallable.known, Except.map]
      · rintro v same
        cases same
        exact sound_of_marshallable formed marshallable
      · simp [waits]

theorem exists_signature (formed : r.WellFormed) {m : ResolvedMethod}
    (legal : LegalMethod r m) :
    ∃ s, Signature.ofResolved r m = .ok s ∧ s.Sound r ∧ s.name = m.name := by
  obtain ⟨result, returned, resultSound, noResult⟩ :=
    exists_result formed legal.result
  obtain ⟨parameters, done, sound, names⟩ :=
    exists_parameters formed legal.parameters
  refine ⟨⟨m.name, m.oneway, result, parameters⟩, ?_,
    ⟨resultSound, ?_, ?_, ?_⟩, rfl⟩
  · simp [Signature.ofResolved, returned, done, bind, Except.bind, pure,
      Except.pure]
  · exact fun q listed => (sound q listed).1
  · exact names ▸ legal.distinct
  · intro oneway
    refine ⟨noResult oneway, fun q listed => ?_⟩
    by_contra comesBack
    rw [(sound q listed).2 (by simpa using comesBack)] at oneway
    cases oneway

theorem ValueType.Sound.succeeds_write {t : ValueType} (sound : t.Sound r)
    (formed : r.WellFormed) (value parcel : Java.Variable)
    (flags : WriteFlags) :
    (t.write r value parcel flags).Succeeds := by
  unfold ValueType.write
  split
  · next array =>
      obtain ⟨code, done⟩ :=
        exists_writeArray formed (sound.array array) value parcel flags
      exact succeeds_ofCode done
  · obtain ⟨code, done⟩ := exists_write formed sound.carried value parcel flags
    exact succeeds_ofCode done

theorem ValueType.Sound.succeeds_create {t : ValueType} (sound : t.Sound r)
    (formed : r.WellFormed) (value parcel : Java.Variable) :
    (t.create r value parcel).Succeeds := by
  unfold ValueType.create
  split
  · next array =>
      exact succeeds_createArray formed (sound.array array) value parcel
  · exact Parcel.succeeds_create formed sound.carried value parcel

theorem ValueType.Sound.succeeds_read {t : ValueType} (sound : t.Sound r)
    (formed : r.WellFormed) (fit : canReadInto t.descriptor t.isArray)
    (value parcel : Java.Variable) : (t.read r value parcel).Succeeds := by
  obtain ⟨h, known⟩ := sound.known
  unfold ValueType.read
  unfold canReadInto at fit
  split
  · exact succeeds_readArray formed known (by simp_all) value parcel
  · exact Parcel.succeeds_read formed known sound.carried (by simp_all)
      value parcel

theorem succeeds_sendParameter (formed : r.WellFormed) (data : Java.Variable)
    {p : Parameter} (sound : p.Sound r) :
    (sendParameter r data p).Succeeds := by
  unfold sendParameter
  split
  · exact sound.type.succeeds_write formed _ data .none
  · split
    · exact succeeds_emit _
    · exact succeeds_pure ()

theorem succeeds_proxyBody (formed : r.WellFormed) {s : Signature}
    (sound : s.Sound r) (data reply : Java.Variable) :
    (proxyBody r s data reply).Succeeds := by
  refine (succeeds_emit _).bind fun _ =>
    Succeeds.bind ?_ fun _ => (succeeds_emit _).bind fun _ => ?_
  · exact succeeds_forM _ fun p listed =>
      succeeds_sendParameter formed data (sound.parameters p listed)
  · split
    · exact succeeds_pure ()
    · refine (succeeds_emit _).bind fun _ => Succeeds.bind ?_ fun _ => ?_
      · unfold receiveResult
        cases result : s.result with
        | none => exact succeeds_pure ()
        | some t => exact (sound.result t result).succeeds_create formed _ reply
      · apply succeeds_forM
        intro p listed
        obtain ⟨listed, out⟩ := List.mem_filter.mp listed
        have parameter := sound.parameters p listed
        exact parameter.type.succeeds_read formed
          (parameter.comesBack out) _ reply

theorem succeeds_receiveArgument (formed : r.WellFormed) (data : Java.Variable)
    {p : Parameter} (sound : p.Sound r) (position : Nat) :
    (receiveArgument r data p position).Succeeds := by
  unfold receiveArgument
  dsimp only
  split
  · exact sound.type.succeeds_create formed _ data
  · split
    · exact succeeds_emitAll _
    · exact succeeds_emit _

theorem succeeds_sendArgument (formed : r.WellFormed) (reply : Java.Variable)
    {p : Parameter} (sound : p.Sound r) (position : Nat) :
    (sendArgument r reply p position).Succeeds := by
  unfold sendArgument
  split
  · exact sound.type.succeeds_write formed _ reply .returnValue
  · exact succeeds_pure ()

theorem succeeds_stubBody (formed : r.WellFormed) {s : Signature}
    (sound : s.Sound r) (data reply : Java.Variable) :
    (stubBody r s data reply).Succeeds := by
  have parameters : ∀ entry ∈ s.parameters.zipIdx, entry.1.Sound r :=
    fun entry listed =>
      sound.parameters entry.1 (List.fst_mem_of_mem_zipIdx listed)
  refine (succeeds_emit _).bind fun _ =>
    Succeeds.bind ?_ fun _ => (succeeds_emit _).bind fun _ => ?_
  · exact succeeds_forM _ fun entry listed =>
      succeeds_receiveArgument formed data (parameters entry listed) entry.2
  · split
    · exact succeeds_pure ()
    · refine (succeeds_emit _).bind fun _ => Succeeds.bind ?_ fun _ => ?_
      · unfold sendResult
        cases result : s.result with
        | none => exact succeeds_pure ()
        | some t =>
            exact (sound.result t result).succeeds_write formed _ reply
              .returnValue
      · exact succeeds_forM _ fun entry listed =>
          succeeds_sendArgument formed reply (parameters entry listed) entry.2

theorem parcelVariable_eq_ok (formed : r.WellFormed) (name : String) :
    parcelVariable r name = .ok ⟨"android.os.Parcel", name⟩ := by
  rw [parcelVariable, formed.require_builtIn (h := .parcel) rfl]
  rfl

theorem exists_proxy (formed : r.WellFormed) {s : Signature}
    (sound : s.Sound r) :
    ∃ code, proxy r s = .ok code := by
  have body := succeeds_proxyBody formed sound ⟨"android.os.Parcel", "_data"⟩
    ⟨"android.os.Parcel", "_reply"⟩
  exact ⟨_, by simpa [proxy, parcelVariable_eq_ok formed, bind,
    Except.bind] using body.code⟩

theorem exists_stub (formed : r.WellFormed) {s : Signature}
    (sound : s.Sound r) :
    ∃ code, stub r s = .ok code := by
  have body := succeeds_stubBody formed sound ⟨"android.os.Parcel", "data"⟩
    ⟨"android.os.Parcel", "reply"⟩
  exact ⟨_, by simpa [stub, parcelVariable_eq_ok formed, bind,
    Except.bind] using body.code⟩

theorem generate_eq_ok {i : ResolvedInterface} {owner : Descriptor}
    (known : r.get? i.handle = some owner) {m : ResolvedMethod} {s : Signature}
    (resolved : Signature.ofResolved r m = .ok s) {caller callee : Java.Block}
    (proxied : proxy r s = .ok caller) (stubbed : stub r s = .ok callee) :
    generate r i m = .ok ⟨owner.qualifiedName, m.name, caller, callee⟩ := by
  simp [generate, known, resolved, proxied, stubbed, ofMarshalling,
    Except.mapError, bind, Except.bind, pure, Except.pure]

theorem exists_generated (formed : r.WellFormed) {i : ResolvedInterface}
    {owner : Descriptor} (known : r.get? i.handle = some owner)
    {m : ResolvedMethod} (legal : LegalMethod r m) :
    ∃ g, generate r i m = .ok g ∧
      g.interface = owner.qualifiedName ∧ g.name = m.name := by
  obtain ⟨s, resolved, sound, _⟩ := exists_signature formed legal
  obtain ⟨caller, proxied⟩ := exists_proxy formed sound
  obtain ⟨callee, stubbed⟩ := exists_stub formed sound
  exact ⟨_, generate_eq_ok known resolved proxied stubbed, rfl, rfl⟩

/-- A method that the check keeps has a sound signature, and is made of the code
of both sides. -/
theorem exists_signature_of_kept (formed : r.WellFormed) {doc : Document}
    {i : ResolvedInterface} (known : i.Known r) {m : ResolvedMethod}
    (kept : m ∈ (checkInterface doc r i).kept.methods) :
    ∃ (s : Signature) (interface : String),
      Signature.ofResolved r m = .ok s ∧ s.Sound r ∧
      ∀ {caller callee : Java.Block}, proxy r s = .ok caller →
        stub r s = .ok callee → generate r (checkInterface doc r i).kept m =
          .ok ⟨interface, m.name, caller, callee⟩ := by
  obtain ⟨owner, here⟩ := known.handle
  have legal := (checkMethods_complete formed doc [] known.methods).kept m kept
  obtain ⟨s, resolved, sound, _⟩ := exists_signature formed legal.2
  exact ⟨s, owner.qualifiedName, resolved, sound, generate_eq_ok here resolved⟩

end Method

end BinderIdl
