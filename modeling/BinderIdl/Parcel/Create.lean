import BinderIdl.Parcel.ClassLoader
import BinderIdl.Parcel.Code
import BinderIdl.Parcel.Emitter
import BinderIdl.Parcel.Layout

namespace BinderIdl.Parcel

open Java BinderIdl.Types Emitter

def createPrimitive (p : Primitive) (parcel : Variable) : Expr :=
  match p.carrier with
  | .direct => parcel.call p.readMethod []
  | .boolAsInt => readMarker parcel
  | .charAsInt => .cast p.name (parcel.call p.readMethod [])

def createCharSequence (r : Registry) (value parcel : Variable) :
    Emitter Unit := do
  let textUtils ← ofExcept (r.require .textUtils)
  let creator : Expr :=
    .field (.classRef textUtils.qualifiedName) "CHAR_SEQUENCE_CREATOR"
  emitAll [.declareUnset value,
    createMarked value parcel (.call creator "createFromParcel" [parcel.ref])]

def createRecord (d : Descriptor) (value parcel : Variable) : Emitter Unit :=
  emitAll [.declareUnset value, createMarked value parcel
    (.call (creatorExpr d) "createFromParcel" [parcel.ref])]

/-- The exception that the parcel describes by a code and a message. -/
def createException (value parcel : Variable) : Expr :=
  .cast value.type (parcel.call "createException" [readInt parcel,
    parcel.call "readString" []])

def readBinder (parcel : Variable) : Expr := parcel.call "readStrongBinder" []

def createBinder (r : Registry) (kind : BinderKind) (value parcel : Variable) :
    Emitter Unit :=
  match kind with
  | .handle => emit (.declare value (readBinder parcel))
  | .native | .proxy =>
      emit (.declare value (.cast value.type (readBinder parcel)))
  | .interface => do
      let handle ← ofExcept (r.require .binder)
      let binder := value.derived handle.qualifiedName "binder"
      emitAll [.declare binder (readBinder parcel), .declare value
        (.ternary binder.isNotNull (binder.call "queryLocalInterface"
            [binder.call "getInterfaceDescriptor" []]) .null)]

/-- The proxy of an interface, made from the binder in the parcel. -/
def createInterface (d : Descriptor) (parcel : Variable) : Expr :=
  .call (.classRef (d.qualifiedName ++ ".Stub")) "asInterface"
    [readBinder parcel]

def createList (r : Registry) (element : ListElement)
    (value parcel : Variable) :
    Emitter Unit :=
  match element with
  | .strings => emit (.declare value (parcel.call "createStringArrayList" []))
  | .binders => emit (.declare value (parcel.call "createBinderArrayList" []))
  | .typed creator =>
      emit (.declare value
        (parcel.call "createTypedArrayList" [.literal creator]))
  | .untyped => do
      let loader ← acquire r
      emit (.declare value (parcel.call "readArrayList" [loader.ref]))

def createWhole (r : Registry) (d : Descriptor) (value parcel : Variable) :
    Emitter Unit :=
  match d.strategy with
  | .primitive p => emit (.declare value (createPrimitive p parcel))
  | .string => emit (.declare value (parcel.call "readString" []))
  | .charSequence => createCharSequence r value parcel
  | .exception _ => emit (.declare value (createException value parcel))
  | .binder kind => createBinder r kind value parcel
  | .map => do
      let loader ← acquire r
      emit (.declare value (parcel.call "readHashMap" [loader.ref]))
  | .list => do
      let loader ← acquire r
      emit (.declare value (parcel.call "readArrayList" [loader.ref]))
  | .parcelable => createRecord d value parcel
  | .interface _ => emit (.declare value (createInterface d parcel))
  | .genericList _ element => createList r element value parcel
  | .void | .helper | .generic _ => fail (.unsupported d.qualifiedName .create)

/-- Declares a container and fills it with what the body adds. -/
def createContainer (value parcel : Variable) (fresh : Expr)
    (body : Emitter Unit) :
    Emitter Unit := do
  emitAll [.declareUnset value, readSize value parcel]
  let code ← nested body
  emit (createSized value fresh code)

def addElement (value item : Variable) : Stmt :=
  .expr (value.call "add" [item.ref])

def putEntry (value key val : Variable) : Stmt :=
  .expr (value.call "put" [key.ref, val.ref])

def fillElement (value : Variable) (element : Descriptor)
    (create : Variable → Emitter Unit) : Emitter Unit := do
  create (itemVariable value element)
  emit (addElement value (itemVariable value element))

def fillEntry (value : Variable) (key val : Descriptor)
    (createKey createValue : Variable → Emitter Unit) : Emitter Unit := do
  createKey (entryKeyVariable value key)
  createValue (entryValueVariable value val)
  emit (putEntry value (entryKeyVariable value key)
    (entryValueVariable value val))

def Layout.create (r : Registry) (parcel : Variable) :
    Layout → Variable → Emitter Unit
  | .whole d, value => createWhole r d value parcel
  | .elements d element, value => do
      acquireIf r (r.needsClassLoader d)
      createContainer value parcel (.new d.instantiable [])
        (fillElement value (element ()).type ((element ()).create r parcel))
  | .entries d key val, value => do
      acquireIf r (r.needsClassLoader d)
      createContainer value parcel (.new d.instantiable [])
        (fillEntry value (key ()).type (val ()).type
          ((key ()).create r parcel) ((val ()).create r parcel))
  | .shapeless d, _ => fail (.unsupported d.qualifiedName .create)

def create (r : Registry) (d : Descriptor) (value parcel : Variable) :
    Emitter Unit :=
  (r.layout d).create r parcel value

def fillArray (r : Registry) (d : Descriptor) (value parcel : Variable) :
    Emitter Unit := do
  let item := itemVariable value d
  createWhole r d item parcel
  emit (.assign (.index value.ref (indexVariable value).ref) item.ref)

/-- Code that creates an array. Arrays of a parameterized type cannot be
allocated, so an array of lists is allocated with the erased type. -/
def createArray (r : Registry) (d : Descriptor) (value parcel : Variable) :
    Emitter Unit :=
  match d.strategy with
  | .primitive p => emit (.declare value (parcel.call p.createArrayMethod []))
  | .string => emit (.declare value (parcel.call "createStringArray" []))
  | .binder .handle =>
      emit (.declare value (parcel.call "createBinderArray" []))
  | .parcelable =>
      emit (.declare value (parcel.call "createTypedArray" [creatorExpr d]))
  | .genericList _ _ => do
      acquireIf r (r.needsClassLoader d)
      createContainer value parcel
        (.newArray d.importType (sizeVariable value).ref)
        (fillArray r d value parcel)
  | _ => fail (.unsupported d.qualifiedName .createArray)

end BinderIdl.Parcel
