import BinderIdl.Proofs.Parcel.Capability
import BinderIdl.Proofs.Parcel.Reading
import BinderIdl.Proofs.Parcel.Writing

namespace BinderIdl

open Java BinderIdl.Types

namespace Method

open Parcel Emitter Document

variable {r : Registry} {t : ValueType}

theorem ValueType.sound_of_write (formed : r.WellFormed) {h : Handle}
    (known : r.get? h = some t.descriptor) {value parcel : Variable}
    {flags : WriteFlags} {loader : Option Variable}
    (written : (t.write r value parcel flags loader).outcome = .ok ()) :
    t.Sound r := by
  obtain ⟨d, isArray⟩ := t
  cases isArray with
  | false =>
      cases code : Parcel.write r d value parcel flags with
      | error error =>
          simp [ValueType.write, Operation.emit, code, ofCode,
            Emitter.fail] at written
      | ok code =>
          exact ⟨⟨h, known⟩, carried_of_write formed known code,
            fun array => absurd array Bool.false_ne_true⟩
  | true =>
      cases code : Parcel.writeArray r d value parcel flags with
      | error error =>
          simp [ValueType.write, Operation.emit, code, ofCode,
            Emitter.fail] at written
      | ok code =>
          have array := canBeArray_of_writeArray code
          exact ⟨⟨h, known⟩, .whole (Descriptor.isWhole_of_canBeArray array),
            fun _ => array⟩

/-- Wherever a type can be written, its values can be created, and read if the
type comes back. The code that writes a value appends its tokens. In front of
any others, the code that creates a value takes exactly these and makes an equal
one, and the code that reads one takes exactly these and leaves what they say in
the object it is given. -/
theorem written_values_are_read_back {r : Registry} (reachable : r.Reachable)
    {m : Platform} (makes : m.MakesContainers r) {h : Handle} {t : ValueType}
    (known : r.get? h = some t.descriptor) {name : String} {parcel : Variable}
    (typed : parcel.type = "android.os.Parcel") {flags : WriteFlags}
    {held : Bool}
    (writes :
      (t.write r (t.variableNamed name) parcel flags (slot held)).outcome =
        .ok ()) {s : State} {id : Nat} {x : Value} {y : Datum}
    (bound : s.env.get? parcel = some (.parcel id))
    (valueBound : s.env.get? (t.variableNamed name) = some x)
    (shown : t.Shows s.heap x y) (fits : t.Fits m r y) :
    Block.exec m
      (t.write r (t.variableNamed name) parcel flags (slot held)).code s =
      some (s.append id (t.tokens r y)) ∧
    (∀ (target : String) (source : Variable) (ready : Bool) (u : State)
        (k : Nat)
      (rest : List Token), source.type = "android.os.Parcel" →
      u.env.get? source = some (.parcel k) → Loaded ready u.env →
      u.parcels k = t.tokens r y ++ rest →
      (t.create r (t.variableNamed target) source (slot ready)).outcome =
        .ok () ∧
      ∃ u' z, Block.exec m (t.create r (t.variableNamed target) source
            (slot ready)).code u = some u' ∧
        u'.env.get? (t.variableNamed target) = some z ∧ t.Shows u'.heap z y ∧
        u'.parcels = (u.setParcel k rest).parcels ∧
        ∃ more, u'.heap = u.heap ++ more) ∧
    (canReadInto t.descriptor t.isArray →
      ∀ (target : String) (source : Variable) (ready : Bool) (u : State)
          (k : Nat) (z : Value)
        (rest : List Token), source.type = "android.os.Parcel" →
        u.env.get? source = some (.parcel k) →
        u.env.get? (t.variableNamed target) = some z →
        Loaded ready u.env →
        t.Receives u.heap z y → u.parcels k = t.tokens r y ++ rest →
        (t.read r (t.variableNamed target) source (slot ready)).outcome =
          .ok () ∧
        ∃ u', Block.exec m (t.read r (t.variableNamed target) source
              (slot ready)).code u = some u' ∧
          (t.Apart u.heap z → ∀ old, t.Shows u.heap z old →
            t.Shows u'.heap z (t.refilled m old y)) ∧
          u'.parcels = (u.setParcel k rest).parcels ∧
          u.heap.Changed (t.Touches u.heap z) u'.heap) := by
  have formed := reachable.wellFormed
  have sound := ValueType.sound_of_write formed known writes
  refine ⟨?_, ?_, ?_⟩
  · obtain ⟨code, emitted, written⟩ :=
      sound.exists_write formed (t.variableNamed name) typed flags
    rw [emitted]
    exact written bound valueBound shown fits
  · intro name source ready u k rest typed bound loaded front
    obtain ⟨code, late, emitted, creates⟩ :=
      sound.exists_creates formed makes (sound.plain formed name) typed ready
    obtain ⟨u', ran, created⟩ := creates u k y rest bound loaded fits front
    obtain ⟨z, valueBound, shown⟩ := created.shown
    rw [emitted]
    exact ⟨rfl, u', z, ran, valueBound, shown, created.parcels, created.heap⟩
  · intro fit name source ready u k z rest typed bound valueBound loaded
      receives front
    obtain ⟨code, late, emitted, fills⟩ :=
      sound.exists_fills formed m fit (sound.plain formed name) typed ready
    obtain ⟨u', ran, filled⟩ :=
      fills u k z y rest bound valueBound loaded fits receives front
    rw [emitted]
    exact ⟨rfl, u', ran, filled.shown, filled.parcels, filled.heap⟩

def scores : ValueType where
  descriptor :=
    .ofTemplate "java.util" "Map" .writeAndOut (.generic ⟨[.string, .int],
      "<java.lang.String,int>", "java.util.HashMap<java.lang.String,int>"⟩)
  isArray := false

def hashing : Platform where
  fresh type :=
    if type = "java.util.HashMap<java.lang.String,int>" then .collection []
      else .record type ""
  sameKey
    | .text first, .text second => first == second
    | _, _ => false
  merged old new := old ++ new
  voided old := old

theorem written_values_are_read_back_scores :
    let r : Registry :=
      { Registry.standard with types := BuiltIn.types ++ [scores.descriptor] }
    let value := scores.variableNamed "scores"
    let parcel : Java.Variable := ⟨"android.os.Parcel", "_data"⟩
    let y : Datum := .collection [.entry (.text "a") (.number .int 3)]
    let tokens := [intToken 1, ⟨.string, .text "a"⟩, intToken 3]
    let s : State := ⟨[(value, some (.ref 0)), (parcel, some (.parcel 0))],
      [.data y], fun _ => []⟩
    Block.exec hashing (scores.write r value parcel .none none).code s =
      some (s.append 0 tokens) ∧
    ∃ u z, Block.exec hashing (scores.create r value parcel none).code
      (s.append 0 tokens) = some u ∧
      u.env.get? value = some z ∧ u.heap.Item z y ∧ u.parcels 0 = [] := by
  intro r value parcel y tokens s
  have resolved : Registry.standard.resolve "Map<String,int>" =
      .ok (⟨24⟩, r) := by decide +kernel
  have makes : hashing.MakesContainers r := by
    intro h d arguments known generic
    rcases List.mem_append.mp (List.mem_of_getElem? known) with seeded | last
    · have none := Registry.arguments?_eq_none_of_mem_types d seeded
      rw [generic] at none
      cases none
    · rw [List.mem_singleton] at last
      subst last
      rfl
  have valueBound : s.env.get? value = some (.ref 0) := Env.get?_cons_self _ _ _
  have parcelType : parcel.type = "android.os.Parcel" := rfl
  have writes :
      (scores.write r (scores.variableNamed "scores") parcel .none
        (slot false)).outcome = .ok () := by
    decide +kernel
  have apart : value ≠ parcel := by decide +kernel
  have bound : s.env.get? parcel = some (.parcel 0) :=
    (Env.get?_cons_of_ne apart _ _).trans (Env.get?_cons_self _ _ _)
  have fits : scores.Fits hashing r y := by
    have layout := Registry.layout_of_entries (r := r) (d := scores.descriptor)
      rfl rfl rfl rfl rfl rfl
    change (r.layout scores.descriptor).Fits hashing y
    rw [layout]
    refine .inr ⟨[(.text "a", .number .int 3)], rfl, ?_,
      List.pairwise_singleton _ _⟩
    intro pair listed
    cases List.mem_singleton.mp listed
    exact ⟨rfl, rfl⟩
  obtain ⟨written, created, _⟩ :=
    written_values_are_read_back
      (Registry.reachable_standard.grows (Registry.Step.resolve resolved).grows)
      makes (h := ⟨24⟩) (t := scores) rfl parcelType writes bound valueBound
      (.object rfl rfl) fits
  refine ⟨written, ?_⟩
  obtain ⟨_, u, z, ran, valueBound, shown, parcels, _⟩ :=
    created "scores" parcel false (s.append 0 tokens) 0 [] rfl bound nofun rfl
  exact ⟨u, z, ran, valueBound, shown, by rw [parcels]; rfl⟩

end Method

end BinderIdl
