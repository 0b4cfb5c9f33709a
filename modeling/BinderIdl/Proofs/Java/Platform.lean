import BinderIdl.Proofs.Java.State

/-! What calls do. Of the parcel it is only assumed that the readers of a
tag take off what its writer has appended; what Java leaves to classes is
left to a platform. -/

namespace BinderIdl.Java

open BinderIdl.Types

structure Platform where
  /-- What a class makes without arguments. -/
  fresh : String → Datum
  /-- The equality by which maps find their keys. -/
  sameKey : Datum → Datum → Bool
  /-- The elements of a container that held the first ones when the second ones
  were read into it through a class loader. -/
  merged : List Datum → List Datum → List Datum
  /-- The elements of a container that held the given ones when null was read
  into it. -/
  voided : List Datum → List Datum

namespace Datum

def isNumber (p : Primitive) : Datum → Bool
  | number q _ => q == p
  | _ => false

/-- A single value of a primitive type. -/
def isPrimitive : Primitive → Datum → Bool
  | .boolean, truth _ => true
  | .char, character _ => true
  | .boolean, _ | .char, _ => false
  | p, d => d.isNumber p

theorem eq_truth_of_isPrimitive {d : Datum} (fits : d.isPrimitive .boolean) :
    ∃ b, d = .truth b := by
  cases d with
  | truth b => exact ⟨b, rfl⟩
  | _ => cases fits

theorem eq_character_of_isPrimitive {d : Datum} (fits : d.isPrimitive .char) :
    ∃ c, d = .character c := by
  cases d with
  | character c => exact ⟨c, rfl⟩
  | _ => cases fits

def isText : Datum → Bool
  | null | text _ => true
  | _ => false

def isBinder : Datum → Bool
  | null | binder _ _ => true
  | _ => false

def isRecord : Datum → Bool
  | null | record _ _ => true
  | _ => false

def isEntry : Datum → Bool
  | entry _ _ => true
  | _ => false

/-- Null, or a container of which each element passes a test. -/
def isCollectionOf (test : Datum → Bool) : Datum → Bool
  | null => true
  | collection items => items.all test
  | _ => false

/-- Null, or a record of the class that has the given creator. -/
def isMadeBy (creator : String) : Datum → Bool
  | null => true
  | record type _ => type ++ ".CREATOR" == creator
  | _ => false

theorem eq_of_isMadeBy {d : Datum} {name : String}
    (made : d.isMadeBy (name ++ ".CREATOR")) :
    d = .null ∨ ∃ content, d = .record name content := by
  cases d with
  | null => exact .inl rfl
  | record type content =>
      have same : type ++ ".CREATOR" = name ++ ".CREATOR" := by
        simpa [isMadeBy] using made
      rw [String.append_left_inj] at same
      exact .inr ⟨content, same ▸ rfl⟩
  | _ => cases made

end Datum

/-- The data that a writer takes. -/
def Tag.admits : Tag → Datum → Bool
  | scalar p, d => d.isNumber p
  | string, d => d.isText
  | binder, d => d.isBinder
  | map, d => d.isCollectionOf Datum.isEntry
  | list, d => d.isCollectionOf fun _ => true
  | stringList, d | stringArray, d => d.isCollectionOf Datum.isText
  | binderList, d | binderArray, d => d.isCollectionOf Datum.isBinder
  | typedList, d | typedArray, d => d.isCollectionOf Datum.isRecord
  | array p, d => d.isCollectionOf (Datum.isPrimitive p)
  | _, _ => false

def loaderText : String := "this.getClass().getClassLoader()"

/-- Whether a reader can work with its arguments: containers of anything need
the class loader, and those of records the creator of their class. -/
def Tag.readsWith : Tag → List Value → Datum → Bool
  | map, [.symbol loader], _ | list, [.symbol loader], _ => loader == loaderText
  | typedList, [.symbol creator], d | typedArray, [.symbol creator], d =>
      d.isCollectionOf (Datum.isMadeBy creator)
  | map, _, _ | list, _, _ | typedList, _, _ | typedArray, _, _ => false
  | _, arguments, _ => arguments.isEmpty

def Tag.isArray : Tag → Bool
  | array _ | stringArray | binderArray | typedArray => true
  | _ => false

inductive ParcelMethod where
  | write (tag : Tag)
  /-- Makes a value. -/
  | make (tag : Tag)
  /-- Fills the container or the array that is its first argument. -/
  | fill (tag : Tag)
  | writeInterface
  | writeException
  | createException
  | writeInterfaceName
  | enforceInterface
  | writeNoException
  | readException

def ParcelMethod.table : List (String × ParcelMethod) :=
  [("writeByte", .write (.scalar .byte)), ("readByte", .make (.scalar .byte)),
    ("writeInt", .write (.scalar .int)), ("readInt", .make (.scalar .int)),
    ("writeLong", .write (.scalar .long)), ("readLong", .make (.scalar .long)),
    ("writeFloat", .write (.scalar .float)),
    ("readFloat", .make (.scalar .float)),
    ("writeDouble", .write (.scalar .double)),
    ("readDouble", .make (.scalar .double)), ("writeString", .write .string),
    ("readString", .make .string), ("writeStrongBinder", .write .binder),
    ("readStrongBinder", .make .binder),
    ("writeStrongInterface", .writeInterface),
    ("writeException", .writeException), ("createException", .createException),
    ("writeMap", .write .map), ("readHashMap", .make .map),
    ("readMap", .fill .map), ("writeList", .write .list),
    ("readArrayList", .make .list), ("readList", .fill .list),
    ("writeStringList", .write .stringList),
    ("createStringArrayList", .make .stringList),
    ("readStringList", .fill .stringList),
    ("writeBinderList", .write .binderList),
    ("createBinderArrayList", .make .binderList),
    ("readBinderList", .fill .binderList),
    ("writeTypedList", .write .typedList),
    ("createTypedArrayList", .make .typedList),
    ("readTypedList", .fill .typedList),
    ("writeBooleanArray", .write (.array .boolean)),
    ("createBooleanArray", .make (.array .boolean)),
    ("readBooleanArray", .fill (.array .boolean)),
    ("writeByteArray", .write (.array .byte)),
    ("createByteArray", .make (.array .byte)),
    ("readByteArray", .fill (.array .byte)),
    ("writeCharArray", .write (.array .char)),
    ("createCharArray", .make (.array .char)),
    ("readCharArray", .fill (.array .char)),
    ("writeIntArray", .write (.array .int)),
    ("createIntArray", .make (.array .int)),
    ("readIntArray", .fill (.array .int)),
    ("writeLongArray", .write (.array .long)),
    ("createLongArray", .make (.array .long)),
    ("readLongArray", .fill (.array .long)),
    ("writeFloatArray", .write (.array .float)),
    ("createFloatArray", .make (.array .float)),
    ("readFloatArray", .fill (.array .float)),
    ("writeDoubleArray", .write (.array .double)),
    ("createDoubleArray", .make (.array .double)),
    ("readDoubleArray", .fill (.array .double)),
    ("writeStringArray", .write .stringArray),
    ("createStringArray", .make .stringArray),
    ("readStringArray", .fill .stringArray),
    ("writeBinderArray", .write .binderArray),
    ("createBinderArray", .make .binderArray),
    ("readBinderArray", .fill .binderArray),
    ("writeTypedArray", .write .typedArray),
    ("createTypedArray", .make .typedArray),
    ("readTypedArray", .fill .typedArray),
    ("writeInterfaceToken", .writeInterfaceName),
    ("enforceInterface", .enforceInterface),
    ("writeNoException", .writeNoException), ("readException", .readException)]

def ParcelMethod.ofName? (name : String) :
    Option ParcelMethod := table.lookup name

namespace State

/-- Appends a value to a parcel under the tag of its writer. -/
def write (s : State) (id : Nat) (tag : Tag) (x : Value) :
    Option (Value × State) := do
  let d ← s.heap.datum? x
  if tag.admits d then some (.null, s.append id [⟨tag, d⟩]) else none

def make (s : State) (id : Nat) (tag : Tag) (arguments : List Value) :
    Option (Value × State) := do
  let (d, s) ← s.take id tag
  if tag.readsWith arguments d then
    some (if tag.isArray then s.placeArray d else s.place d)
  else none

/-- What is in a cell after the content of a token was read into it. An array
has to have as many elements as there are, a class loader may leave the old
elements of a container. -/
def filled (m : Platform) (tag : Tag) : Cell → Datum → Option Cell
  | .array old, .collection items =>
      if tag.isArray ∧
        old.length = items.length then some (.array (items.map .data)) else none
  | .data (.collection old), d =>
      match tag, d with
      | .map, .collection items | .list, .collection items =>
          some (.data (.collection (m.merged old items)))
      | .stringList, .collection items | .binderList, .collection items
      | .typedList, .collection items => some (.data (.collection items))
      | _, .null =>
          if tag.isArray then none
          else some (.data (.collection (m.voided old)))
      | _, _ => none
  | _, _ => none

def refill (m : Platform) (s : State) (tag : Tag) (target : Value) (d : Datum) :
    Option State :=
  match target with
  | .ref a => do
      let c ← s.heap[a]?
      let c ← filled m tag c d
      some (s.replace a c)
  | _ => none

/-- Reads into an object. Null does not ask for one, but an array is null only
together with what was written for it. -/
def fill (m : Platform) (s : State) (id : Nat) (tag : Tag) (target : Value)
    (arguments : List Value) : Option (Value × State) := do
  let (d, s) ← s.take id tag
  if tag.readsWith arguments d then
    match s.refill m tag target d with
    | some s => some (.null, s)
    | none =>
        if d.isNull &&
          (!tag.isArray || target.isNull) then some (.null, s) else none
  else none

/-- An exception as it is put on the wire; null has no code. -/
def describe : Datum → Option (Int × Datum)
  | .null => some (0, .null)
  | .exception code message => some (code, .ofText? message)
  | _ => none

/-- The exception that a code and a message describe. -/
def described (code : Int) : Datum → Option Datum
  | .null => some (if code = 0 then .null else .exception code none)
  | .text message => some (.exception code (some message))
  | _ => none

end State

def ParcelMethod.run (m : Platform) (id : Nat) (arguments : List Value)
    (s : State) :
    ParcelMethod → Option (Value × State)
  | write tag =>
      match arguments with
      | [x] => s.write id tag x
      | [x, _] => if tag = .typedArray then s.write id tag x else none
      | _ => none
  | make tag => s.make id tag arguments
  | fill tag =>
      match arguments with
      | target :: others => s.fill m id tag target others
      | [] => none
  | writeInterface =>
      match arguments with
      | [.data .null] => some (.null, s.append id [⟨.binder, .null⟩])
      | [.data (.interface identity descriptor)] =>
          some (.null, s.append id [⟨.binder, .binder identity descriptor⟩])
      | _ => none
  | writeException =>
      match arguments with
      | [x] => do
          let (code, message) ← State.describe (← s.heap.item? x)
          some (.null,
            s.append id [⟨.scalar .int, .int code⟩, ⟨.string, message⟩])
      | _ => none
  | createException =>
      match arguments with
      | [code, message] => do
          let d ← State.described (← code.int?) (← s.heap.item? message)
          some (.data d, s)
      | _ => none
  | writeInterfaceName =>
      match arguments with
      | [.symbol name] =>
          some (.null, s.append id [⟨.interfaceName, .text name⟩])
      | _ => none
  | enforceInterface =>
      match arguments with
      | [.symbol name] => do
          let (d, s) ← s.take id .interfaceName
          match d with
          | .text written => if written = name then some (.null, s) else none
          | _ => none
      | _ => none
  | writeNoException =>
      match arguments with
      | [] => some (.null, s.append id [⟨.noException, .null⟩])
      | _ => none
  | readException =>
      match arguments with
      | [] => (s.take id .noException).map fun (_, s) => (.null, s)
      | _ => none

/-- Calls of what is known by name only: creators, helper classes and the
class loader. -/
def callSymbol (text method : String) (arguments : List Value) (s : State) :
    Option (Value × State) :=
  match method, arguments with
  | "getClassLoader", [] =>
      if text = "this.getClass()" then some (.symbol loaderText, s) else none
  | "writeToParcel", [x, .parcel id, _] => do
      let d ← s.heap.item? x
      match d with
      | .charSequence _ =>
          if text = "android.text.TextUtils" then
            some (.null, s.append id [⟨.charSequence, d⟩])
          else none
      | _ => none
  | "createFromParcel", [.parcel id] =>
      match s.parcels id with
      | ⟨.charSequence, d⟩ :: rest =>
          if text = "android.text.TextUtils.CHAR_SEQUENCE_CREATOR" then
            some ((s.setParcel id rest).place d)
          else none
      | ⟨.record type, d⟩ :: rest =>
          if text = type ++ ".CREATOR" then some ((s.setParcel id rest).place d)
            else none
      | _ => none
  | "asInterface", [.data .null] => some (.null, s)
  | "asInterface", [.data (.binder identity descriptor)] =>
      if text = descriptor ++ ".Stub" then
        some (.data (.interface identity descriptor), s)
      else none
  | _, _ => none

def callDatum (d : Datum) (method : String) (arguments : List Value)
    (s : State) :
    Option (Value × State) :=
  match d, method, arguments with
  | .collection items, "size", [] => some (.int items.length, s)
  | .collection items, "entrySet", [] => some (.data (.collection items), s)
  | .entry key _, "getKey", [] => some (.data key, s)
  | .entry _ value, "getValue", [] => some (.data value, s)
  | .interface identity descriptor, "asBinder", [] =>
      some (.data (.binder identity descriptor), s)
  | .binder _ descriptor, "getInterfaceDescriptor", [] =>
      some (.data (.text descriptor), s)
  | .binder identity descriptor, "queryLocalInterface", [.data (.text asked)] =>
      some (.data (if asked =
          descriptor then .interface identity descriptor else .null), s)
  | .record type content, "writeToParcel", [.parcel id, _] =>
      some (.null, s.append id [⟨.record type, .record type content⟩])
  | _, _, _ => none

/-- Calls that change the object at an address. -/
def callObject (m : Platform) (address : Nat) (d : Datum) (method : String)
    (arguments : List Value) (s : State) : Option (Value × State) :=
  match d, method, arguments with
  | .collection _, "clear", [] =>
      some (.null, s.replace address (.data (.collection [])))
  | .collection items, "add", [x] => do
      let d ← s.heap.item? x
      some (.null, s.replace address (.data (.collection (items ++ [d]))))
  | .collection items, "put", [key, value] => do
      let k ← s.heap.item? key
      let v ← s.heap.item? value
      some (.null,
        s.replace address (.data (.collection (Datum.put m.sameKey k v items))))
  | .record type _, "readFromParcel", [.parcel id] => do
      let (d, s) ← s.take id (.record type)
      some (.null, s.replace address (.data d))
  | _, _, _ => callDatum d method arguments s

def Platform.call (m : Platform) (receiver : Value) (method : String)
    (arguments : List Value) (s : State) : Option (Value × State) :=
  match receiver with
  | .parcel id => do
      let parcelMethod ← ParcelMethod.ofName? method
      parcelMethod.run m id arguments s
  | .symbol text => callSymbol text method arguments s
  | .data d => callDatum d method arguments s
  | .ref a =>
      match s.heap[a]? with
      | some (.data d) => callObject m a d method arguments s
      | _ => none

/-- What does not change an object only asks for the datum of the receiver. -/
theorem call_item {m : Platform} {s : State} {x : Value} {d : Datum}
    (item : s.heap.Item x d) (method : String) (arguments : List Value)
    (unchanging : ∀ a,
      callObject m a d method arguments s = callDatum d method arguments s) :
    m.call x method arguments s = callDatum d method arguments s := by
  cases item with
  | data => rfl
  | object known => simp [Platform.call, known, unchanging]

end BinderIdl.Java
