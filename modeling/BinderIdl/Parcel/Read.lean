import BinderIdl.Parcel.Create

namespace BinderIdl.Parcel

open Java BinderIdl.Types Emitter

/-- A record is filled only if the caller wrote one. -/
def readRecord (value parcel : Variable) : Stmt :=
  .ifThen (readMarker parcel) [.expr (value.call "readFromParcel" [parcel.ref])]

def readList (r : Registry) (element : ListElement) (value parcel : Variable) :
    Emitter Unit :=
  match element with
  | .strings => emit (.expr (parcel.call "readStringList" [value.ref]))
  | .binders => emit (.expr (parcel.call "readBinderList" [value.ref]))
  | .typed creator =>
      emit (.expr (parcel.call "readTypedList" [value.ref, .literal creator]))
  | .untyped => do
      let loader ← acquire r
      emit (.expr (parcel.call "readList" [value.ref, loader.ref]))

def readWhole (r : Registry) (d : Descriptor) (value parcel : Variable) :
    Emitter Unit :=
  match d.strategy with
  | .map => do
      let loader ← acquire r
      emit (.expr (parcel.call "readMap" [value.ref, loader.ref]))
  | .list => do
      let loader ← acquire r
      emit (.expr (parcel.call "readList" [value.ref, loader.ref]))
  | .parcelable => emit (readRecord value parcel)
  | .genericList _ element => readList r element value parcel
  | _ => fail (.unsupported d.qualifiedName .read)

/-- Empties a container and fills it again with what the body adds. -/
def refillContainer (value parcel : Variable) (body : Emitter Unit) :
    Emitter Unit := do
  emitAll [.expr (value.call "clear" []), readSize value parcel]
  let code ← nested body
  emit (sizedLoop value code)

def Layout.read (r : Registry) (parcel : Variable) (layout : Layout)
    (value : Variable) :
    Emitter Unit :=
  match layout with
  | .whole d => readWhole r d value parcel
  | .elements d element => do
      acquireIf r (r.needsClassLoader d)
      refillContainer value parcel
        (fillElement value (element ()).type ((element ()).create r parcel))
  | .entries d key val => do
      acquireIf r (r.needsClassLoader d)
      refillContainer value parcel
        (fillEntry value (key ()).type (val ()).type
          ((key ()).create r parcel) ((val ()).create r parcel))
  | .shapeless d => fail (.unsupported d.qualifiedName .read)

/-- Code that reads into a value of the type, which has to be fit for an
out parameter. -/
def read (r : Registry) (d : Descriptor) (value parcel : Variable) :
    Emitter Unit :=
  if d.canBeOut then (r.layout d).read r parcel value
  else fail (.notOutParameter d.qualifiedName)

def refillArray (r : Registry) (d : Descriptor) (value parcel : Variable) :
    Emitter Unit := do
  let item := itemVariable value d
  emit (.declare item (.index value.ref (indexVariable value).ref))
  read r d item parcel

def readArray (r : Registry) (d : Descriptor) (value parcel : Variable) :
    Emitter Unit :=
  match d.strategy with
  | .primitive p => emit (.expr (parcel.call p.readArrayMethod [value.ref]))
  | .string => emit (.expr (parcel.call "readStringArray" [value.ref]))
  | .binder .handle => emit (.expr (parcel.call "readBinderArray" [value.ref]))
  | .parcelable =>
      emit (.expr (parcel.call "readTypedArray" [value.ref, creatorExpr d]))
  | .genericList _ _ => do
      acquireIf r (r.needsClassLoader d)
      emit (readSize value parcel)
      let code ← nested (refillArray r d value parcel)
      emit (sizedLoop value code)
  | _ => fail (.unsupported d.qualifiedName .readArray)

end BinderIdl.Parcel
