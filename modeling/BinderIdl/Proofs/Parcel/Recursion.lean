import BinderIdl.Proofs.Parcel.Loading
import BinderIdl.Proofs.Types.Consistency

/-! Emission calls itself: the code for a container holds code for its parts,
the code for an array of lists holds code for one list, and a container needs a
class loader if a part does. Here each of these functions takes what it calls as
a parameter, so that calls can be nested to a given depth above any others. For
the types of a reachable registry a depth of three is enough, and gives what the
operations give. -/

namespace BinderIdl.Parcel

open Java BinderIdl.Types Emitter

/-- What is called for a type: the test whether it needs a class loader, and the
operations on a value of it. -/
structure Callees where
  needsClassLoader : Descriptor → Bool
  marshal : Operation → Descriptor → Variable → Emitter Unit

namespace Callees

variable (callees : Callees) (r : Registry) (parcel : Variable)
  (flags : WriteFlags)

def needsLoader (d : Descriptor) : Bool :=
  match d.strategy with
  | .generic arguments =>
      arguments.handles.any fun h => (r.get? h).any callees.needsClassLoader
  | strategy => strategy.looksUpClasses

def writeParts (d : Descriptor) (value : Variable) :
    List (Option Descriptor) → Emitter Unit
  | [some element] => do
      let item := itemVariable value element
      let body ← nested (callees.marshal .write element item)
      emit (writeSized value parcel (value.call "size" [])
        [.forEach item value.ref body])
  | [some key, some val] => do
      let entry := entryVariable value d
      let keyLocal := entryKeyVariable value key
      let valueLocal := entryValueVariable value val
      let body ← nested do
        emitAll [.declare keyLocal (entry.call "getKey" []),
          .declare valueLocal (entry.call "getValue" [])]
        callees.marshal .write key keyLocal
        callees.marshal .write val valueLocal
      emit (writeSized value parcel (value.call "size" [])
        [.forEach entry (value.call "entrySet" []) body])
  | _ => fail (.unsupported d.qualifiedName .write)

def fillParts (operation : Operation) (d : Descriptor) (value : Variable)
    (fill : Emitter Unit → Emitter Unit) :
    List (Option Descriptor) → Emitter Unit
  | [some element] => do
      acquireIf r (callees.needsClassLoader d)
      fill (fillElement value element (callees.marshal .create element))
  | [some key, some val] => do
      acquireIf r (callees.needsClassLoader d)
      fill (fillEntry value key val (callees.marshal .create key)
        (callees.marshal .create val))
  | _ => fail (.unsupported d.qualifiedName operation)

def write (d : Descriptor) (value : Variable) : Emitter Unit :=
  match d.strategy with
  | .generic arguments =>
      callees.writeParts parcel d value (arguments.handles.map r.get?)
  | _ => ofCode (writeWhole r d value parcel flags)

def create (d : Descriptor) (value : Variable) : Emitter Unit :=
  match d.strategy with
  | .generic arguments =>
      callees.fillParts r .create d value
        (createContainer value parcel (.new d.instantiable []))
        (arguments.handles.map r.get?)
  | _ => createWhole r d value parcel

def read (d : Descriptor) (value : Variable) : Emitter Unit :=
  if d.canBeOut then
    match d.strategy with
    | .generic arguments =>
        callees.fillParts r .read d value (refillContainer value parcel)
          (arguments.handles.map r.get?)
    | _ => readWhole r d value parcel
  else fail (.notOutParameter d.qualifiedName)

def writeArray (d : Descriptor) (value : Variable) : Emitter Unit :=
  match d.strategy with
  | .genericList _ _ => do
      let item := itemVariable value d
      let body ← nested (callees.marshal .write d item)
      emit (writeSized value parcel (.field value.ref "length")
        [.forEach item value.ref body])
  | _ => ofCode (Parcel.writeArray r d value parcel flags)

def createArray (d : Descriptor) (value : Variable) : Emitter Unit :=
  match d.strategy with
  | .genericList _ _ => do
      acquireIf r (callees.needsClassLoader d)
      createContainer value parcel
        (.newArray d.importType (sizeVariable value).ref) do
        callees.marshal .create d (itemVariable value d)
        emit (.assign (.index value.ref (indexVariable value).ref)
          (itemVariable value d).ref)
  | _ => Parcel.createArray r d value parcel

def readArray (d : Descriptor) (value : Variable) : Emitter Unit :=
  match d.strategy with
  | .genericList _ _ => do
      acquireIf r (callees.needsClassLoader d)
      emit (readSize value parcel)
      let code ← nested do
        emit (.declare (itemVariable value d)
          (.index value.ref (indexVariable value).ref))
        callees.marshal .read d (itemVariable value d)
      emit (sizedLoop value code)
  | _ => Parcel.readArray r d value parcel

/-- The functions that call the given ones. -/
def above : Callees where
  needsClassLoader := callees.needsLoader r
  marshal
    | .write => callees.write r parcel flags
    | .create => callees.create r parcel
    | .read => callees.read r parcel
    | .writeArray => callees.writeArray r parcel flags
    | .createArray => callees.createArray r parcel
    | .readArray => callees.readArray r parcel

/-- Calls nested to a depth, with the given functions in place of
deeper calls. -/
def nestedTo : Nat → Callees
  | 0 => callees
  | depth + 1 => (nestedTo depth).above r parcel flags

end Callees

variable {r : Registry} {parcel : Variable} {flags : WriteFlags}
  {callees : Callees}

theorem nested_ofCode (code : Except MarshalError Block) (wrap : Block → Stmt) :
    (nested (ofCode code) >>= fun body => emit (wrap body)) =
      ofCode (code >>= fun body => pure [wrap body]) := by
  funext loader
  cases code with
  | error error => rfl
  | ok body => rfl

theorem nested_ofCode_pair (opening : Block)
    (first second : Except MarshalError Block) (wrap : Block → Stmt) :
    (nested (do emitAll opening; ofCode first; ofCode second) >>= fun body =>
      emit (wrap body)) = ofCode (do
        let front ← first
        let back ← second
        return [wrap (opening ++ (front ++ back))]) := by
  funext loader
  cases first with
  | error error => rfl
  | ok front =>
      cases second with
      | error error => rfl
      | ok back => rfl

/-- The callees are right about everything that is not marshalled
part by part. -/
structure Callees.SoundOnWhole (callees : Callees) (r : Registry)
    (parcel : Variable) (flags : WriteFlags) : Prop where
  needsClassLoader : ∀ {d : Descriptor},
    (∀ arguments, d.strategy ≠ .generic arguments) →
    callees.needsClassLoader d = r.needsClassLoader d
  marshal : ∀ {d : Descriptor}, (∀ arguments, d.strategy ≠ .generic arguments) →
    ∀ {operation : Operation}, operation.isArray = false → ∀ value,
      callees.marshal operation d value = operation.emit r d value parcel flags

variable {d : Descriptor} {arguments : TypeArguments} {types : List Descriptor}

theorem needsLoader_eq_of_whole (callees : Callees)
    (whole : ∀ arguments, d.strategy ≠ .generic arguments) :
    callees.needsLoader r d = r.needsClassLoader d := by
  rw [Registry.needsClassLoader_eq_of_not_generic whole]
  unfold Callees.needsLoader
  split
  · next arguments generic => exact absurd generic (whole arguments)
  · rfl

theorem Callees.soundOnWhole_above (callees : Callees) :
    (callees.above r parcel flags).SoundOnWhole r parcel flags where
  needsClassLoader whole := needsLoader_eq_of_whole callees whole
  marshal := by
    intro d whole operation single value
    have layout : r.layout d = .whole d := r.layoutTo_eq_whole r.size whole
    -- `whole` rules out the one branch of each operation that calls another
    cases operation with
    | write =>
        simp only [above, write, Operation.emit, Parcel.write, layout,
          Layout.write]
    | create =>
        simp only [above, create, Operation.emit, Parcel.create, layout,
          Layout.create]
    | read =>
        simp only [above, read, Operation.emit, Parcel.read, layout,
          Layout.read]
    | writeArray => cases single
    | createArray => cases single
    | readArray => cases single

theorem Callees.SoundOnWhole.write_eq
    (sound : callees.SoundOnWhole r parcel flags)
    (whole : ∀ arguments, d.strategy ≠ .generic arguments) (item : Variable) :
    callees.marshal .write d item =
      ofCode (writeWhole r d item parcel flags) := by
  rw [sound.marshal whole rfl, Operation.emit, Parcel.write, Registry.layout,
    r.layoutTo_eq_whole r.size whole, Layout.write]

theorem Callees.SoundOnWhole.create_eq
    (sound : callees.SoundOnWhole r parcel flags)
    (whole : ∀ arguments, d.strategy ≠ .generic arguments) (item : Variable) :
    callees.marshal .create d item = createWhole r d item parcel := by
  rw [sound.marshal whole rfl, Operation.emit, Parcel.create, Registry.layout,
    r.layoutTo_eq_whole r.size whole, Layout.create]

theorem whole_of_mem_arguments (formed : r.WellFormed) {handles : List Handle}
    (parts : r.Arguments handles types) :
    ∀ e ∈ types, ∀ arguments, e.strategy ≠ .generic arguments := by
  induction parts with
  | nil => exact List.forall_mem_nil _
  | cons part _ induction =>
      exact List.forall_mem_cons.mpr ⟨formed.not_generic part.1 part.2,
        induction⟩

theorem needsLoader_eq (formed : r.WellFormed) {h : Handle}
    (known : r.get? h = some d) (sound : callees.SoundOnWhole r parcel flags) :
    callees.needsLoader r d = r.needsClassLoader d := by
  obtain ⟨_, seen⟩ := exists_seen_of_known formed known
  cases seen with
  | whole whole => exact needsLoader_eq_of_whole callees whole
  | @«instance» arguments types generic parts =>
      have each : ∀ part ∈ arguments.handles,
          (r.get? part).any callees.needsClassLoader =
            (r.get? part).any r.needsClassLoader := by
        intro part listed
        obtain ⟨type, _, denoted, plain⟩ := exists_mem_of_forall₂ parts listed
        rw [denoted]
        exact sound.needsClassLoader (formed.not_generic denoted plain)
      rw [Registry.needsClassLoader_eq_any_parts generic]
      simp only [Callees.needsLoader, generic]
      rw [Bool.eq_iff_iff, List.any_eq_true, List.any_eq_true]
      exact exists_congr fun part =>
        and_congr_right fun listed => by rw [each part listed]

theorem writeParts_eq (formed : r.WellFormed)
    (sound : callees.SoundOnWhole r parcel flags)
    (generic : d.strategy = .generic arguments)
    (parts : r.Arguments arguments.handles types) (value : Variable) :
    callees.writeParts parcel d value (types.map some) =
      ofCode (Parcel.write r d value parcel flags) := by
  have part {e : Descriptor} (listed : e ∈ types) :=
    sound.write_eq (whole_of_mem_arguments formed parts e listed)
  rw [Parcel.write, layout_of_arguments formed generic parts]
  match types with
  | [] => rfl
  | [element] =>
      simp only [Callees.writeParts, List.map_cons, List.map_nil]
      rw [part (by simp), nested_ofCode]
      rfl
  | [key, val] =>
      simp only [Callees.writeParts, List.map_cons, List.map_nil]
      rw [part (by simp), part (by simp), nested_ofCode_pair]
      rfl
  | _ :: _ :: _ :: _ => rfl

theorem fillParts_eq (formed : r.WellFormed)
    (sound : callees.SoundOnWhole r parcel flags)
    (loader : callees.needsClassLoader d = r.needsClassLoader d)
    (generic : d.strategy = .generic arguments)
    (parts : r.Arguments arguments.handles types) (value : Variable) :
    callees.fillParts r .create d value
      (createContainer value parcel (.new d.instantiable [])) (types.map some) =
      Parcel.create r d value parcel ∧
    callees.fillParts r .read d value (refillContainer value parcel)
      (types.map some) = (r.layout d).read r parcel value := by
  have part {e : Descriptor} (listed : e ∈ types) :
      callees.marshal .create e = fun item => createWhole r e item parcel :=
    funext (sound.create_eq (whole_of_mem_arguments formed parts e listed))
  rw [Parcel.create, layout_of_arguments formed generic parts]
  match types with
  | [] => exact ⟨rfl, rfl⟩
  | [element] =>
      simp only [Callees.fillParts, List.map_cons, List.map_nil, loader,
        part (List.mem_singleton_self element)]
      exact ⟨rfl, rfl⟩
  | [key, val] =>
      have keyPart := part (e := key) (by simp)
      have valuePart := part (e := val) (by simp)
      simp only [Callees.fillParts, List.map_cons, List.map_nil, loader,
        keyPart, valuePart]
      exact ⟨rfl, rfl⟩
  | _ :: _ :: _ :: _ => exact ⟨rfl, rfl⟩

theorem whole_of_genericList {element : ListElement}
    (list : d.strategy = .genericList arguments element) :
    ∀ others, d.strategy ≠ .generic others := by
  simp [list]

theorem Callees.SoundOnWhole.writeArray_eq
    (sound : callees.SoundOnWhole r parcel flags) (d : Descriptor)
    (value : Variable) :
    callees.writeArray r parcel flags d value =
      ofCode (Parcel.writeArray r d value parcel flags) := by
  cases list : d.strategy with
  | genericList arguments element =>
      have written := sound.write_eq (whole_of_genericList list)
      simp only [writeArray, Parcel.writeArray, list, written, nested_ofCode]
  | _ => simp only [writeArray, list]

theorem Callees.SoundOnWhole.createArray_eq
    (sound : callees.SoundOnWhole r parcel flags)
    (loader : callees.needsClassLoader d = r.needsClassLoader d)
    (value : Variable) :
    callees.createArray r parcel d value =
      Parcel.createArray r d value parcel := by
  cases list : d.strategy with
  | genericList arguments element =>
      have created := sound.create_eq (whole_of_genericList list)
      simp only [createArray, Parcel.createArray, list, loader, created]
      rfl
  | _ => simp only [createArray, list]

theorem Callees.SoundOnWhole.readArray_eq
    (sound : callees.SoundOnWhole r parcel flags)
    (loader : callees.needsClassLoader d = r.needsClassLoader d)
    (value : Variable) :
    callees.readArray r parcel d value = Parcel.readArray r d value parcel := by
  cases list : d.strategy with
  | genericList arguments element =>
      have filled (item : Variable) :
          callees.marshal .read d item = Parcel.read r d item parcel :=
        sound.marshal (whole_of_genericList list) rfl item
      simp only [readArray, Parcel.readArray, list, loader, filled]
      rfl
  | _ => simp only [readArray, list]

theorem marshal_above_of_value (formed : r.WellFormed) {h : Handle}
    (known : r.get? h = some d) (sound : callees.SoundOnWhole r parcel flags)
    (loader : callees.needsClassLoader d = r.needsClassLoader d)
    {operation : Operation} (single : operation.isArray = false)
    (value : Variable) :
    (callees.above r parcel flags).marshal operation d value =
      operation.emit r d value parcel flags := by
  obtain ⟨_, seen⟩ := exists_seen_of_known formed known
  cases seen with
  | whole whole => exact callees.soundOnWhole_above.marshal whole single value
  | @«instance» arguments types generic parts =>
      have found : arguments.handles.map r.get? = types.map some :=
        map_eq_of_forall₂ parts fun part => part.1
      obtain ⟨created, filled⟩ :=
        fillParts_eq formed sound loader generic parts value
      cases operation with
      | write =>
          simp only [Callees.above, Callees.write, generic, found]
          exact writeParts_eq formed sound generic parts value
      | create =>
          simp only [Callees.above, Callees.create, generic, found]
          exact created
      | read =>
          simp only [Callees.above, Callees.read, generic, found, filled]
          rfl
      | writeArray => cases single
      | createArray => cases single
      | readArray => cases single

theorem marshal_above (formed : r.WellFormed) {h : Handle}
    (known : r.get? h = some d) (sound : callees.SoundOnWhole r parcel flags)
    (loader : callees.needsClassLoader d = r.needsClassLoader d)
    (operation : Operation) (value : Variable) :
    (callees.above r parcel flags).marshal operation d value =
      operation.emit r d value parcel flags := by
  cases operation with
  | write => exact marshal_above_of_value formed known sound loader rfl value
  | create => exact marshal_above_of_value formed known sound loader rfl value
  | read => exact marshal_above_of_value formed known sound loader rfl value
  | writeArray => exact sound.writeArray_eq d value
  | createArray => exact sound.createArray_eq loader value
  | readArray => exact sound.readArray_eq loader value

/-- Only a container calls for other types, and these call for none. -/
theorem Callees.needsClassLoader_nestedTo (beyond : Callees)
    (formed : r.WellFormed) {h : Handle} (known : r.get? h = some d)
    (depth : Nat) :
    (beyond.nestedTo r parcel flags (depth + 2)).needsClassLoader d =
      r.needsClassLoader d := by
  have parts : (beyond.nestedTo r parcel flags (depth + 1)).SoundOnWhole r
      parcel flags :=
    soundOnWhole_above _
  exact needsLoader_eq formed known parts

/-- One call more, since an operation asks first whether the type needs a
class loader. -/
theorem Callees.marshal_nestedTo (beyond : Callees) (formed : r.WellFormed)
    {h : Handle} (known : r.get? h = some d) (depth : Nat)
    (operation : Operation) (value : Variable) :
    (beyond.nestedTo r parcel flags (depth + 3)).marshal operation d value =
      operation.emit r d value parcel flags := by
  have parts : (beyond.nestedTo r parcel flags (depth + 2)).SoundOnWhole r
      parcel flags :=
    soundOnWhole_above _
  exact marshal_above formed known parts
    (beyond.needsClassLoader_nestedTo formed known depth) operation value

/-- In a reachable registry every instance of a template tells the truth about
its arguments, which are earlier types and no instances, so that following
arguments comes to an end. The test for a class loader and the six operations
call each other at most three deep: whatever stands in place of deeper calls,
they give what they give. -/
theorem instances_are_well_founded (reachable : r.Reachable) :
    (∀ h d, r.get? h = some d → d.kind = .generic → r.Consistent h d) ∧
    WellFounded r.IsArgument ∧ ∀ h d, r.get? h = some d → ∀ (parcel : Variable)
      (flags : WriteFlags) (beyond : Callees) (depth : Nat),
        let limited := beyond.nestedTo r parcel flags (depth + 3)
        limited.needsClassLoader d = r.needsClassLoader d ∧
        ∀ operation value, limited.marshal operation d value =
          operation.emit r d value parcel flags := by
  have formed := reachable.wellFormed
  refine ⟨fun h d => formed.consistent, formed.wellFounded_isArgument, ?_⟩
  intro h d known parcel flags beyond depth
  constructor
  · exact beyond.needsClassLoader_nestedTo formed known (depth + 1)
  · exact beyond.marshal_nestedTo formed known depth

def pointRecord : Descriptor := .parcelable "a.b" "Point" ⟨"Point.aidl", 3⟩

def listOfPoints : Descriptor :=
  .ofTemplate "java.util" "List" .writeAndOut
    (.genericList ⟨[⟨24⟩], "<a.b.Point>", "java.util.ArrayList<a.b.Point>"⟩
      (.typed "a.b.Point.CREATOR"))

def mapToLists : Descriptor :=
  .ofTemplate "java.util" "Map" .writeAndOut (.generic ⟨[⟨24⟩, .list],
    "<a.b.Point,java.util.List>",
    "java.util.HashMap<a.b.Point,java.util.List>"⟩)

/-- A list of records is made with the creator of the record, and a map to lists
needs a class loader, whatever deeper calls would answer. -/
theorem instances_are_well_founded_points :
    let r : Registry :=
      { Registry.standard with
        types :=
          BuiltIn.types ++ [pointRecord] ++ [listOfPoints] ++ [mapToLists]}
    r.Reachable ∧
      r.Consistent ⟨25⟩ listOfPoints ∧ r.Consistent ⟨26⟩ mapToLists ∧
    pointRecord.CarriedAs (.typed "a.b.Point.CREATOR") ∧
    ∀ parcel flags (beyond : Callees),
      (beyond.nestedTo r parcel flags 3).needsClassLoader mapToLists = true ∧
      ∀ value,
        (beyond.nestedTo r parcel flags 3).marshal .create mapToLists value =
          Parcel.create r mapToLists value parcel := by
  intro r
  have declared :
      Registry.standard.declareParcelable "a.b" "Point" ⟨"Point.aidl", 3⟩ =
        .ok (⟨24⟩, { Registry.standard with types :=
          BuiltIn.types ++ [pointRecord] }) := by
    decide +kernel
  have list :
      ({ Registry.standard with types := BuiltIn.types ++ [pointRecord] } :
        Registry).resolve "List<Point>" = .ok (⟨25⟩, { Registry.standard with
          types := BuiltIn.types ++ [pointRecord] ++ [listOfPoints] }) := by
    decide +kernel
  have map :
      ({ Registry.standard with
        types := BuiltIn.types ++ [pointRecord] ++ [listOfPoints] } :
        Registry).resolve "Map<Point,List>" = .ok (⟨26⟩, r) := by
    decide +kernel
  have reachable : r.Reachable :=
    ((Registry.reachable_standard.grows (Registry.Step.parcelable
        declared).grows).grows (Registry.Step.resolve list).grows).grows
      (Registry.Step.resolve map).grows
  obtain ⟨consistent, _, bounded⟩ := instances_are_well_founded reachable
  have points := consistent ⟨25⟩ listOfPoints rfl rfl
  refine ⟨reachable, points, consistent ⟨26⟩ mapToLists rfl rfl, ?_,
    fun parcel flags beyond => ?_⟩
  · obtain ⟨part, type, single, denoted, carried⟩ := points.element _ _ rfl
    cases single
    cases denoted
    exact carried
  · obtain ⟨loads, marshalled⟩ :=
      bounded ⟨26⟩ mapToLists rfl parcel flags beyond 0
    exact ⟨loads.trans (by decide +kernel), marshalled .create⟩

/-- Where a type is its own part, the deepest call decides. -/
example :
    let circle : Descriptor :=
      .ofTemplate "a" "Circle" .writeAndOut (.generic ⟨[⟨0⟩], "<a.Circle>",
        "a.Circle"⟩)
    ∀ answer : Bool,
      (Callees.nestedTo ⟨fun _ => answer, fun _ _ _ => pure ()⟩ ⟨[circle], []⟩
        ⟨"android.os.Parcel", "data"⟩ .none 3).needsClassLoader circle =
        answer := by
  decide

end BinderIdl.Parcel
