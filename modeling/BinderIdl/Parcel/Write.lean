import BinderIdl.Parcel.Code
import BinderIdl.Parcel.Layout

namespace BinderIdl.Parcel

open Java BinderIdl.Types

/-- The argument that carries a primitive value. -/
def carry (p : Primitive) (value : Variable) : Expr :=
  match p.carrier with
  | .direct => value.ref
  | .boolAsInt => .ternary value.ref (.int 1) (.int 0)
  | .charAsInt => .cast "int" value.ref

def writeCharSequence (r : Registry) (value parcel : Variable)
    (flags : WriteFlags) :
    Except MarshalError Block := do
  let textUtils ← r.require .textUtils
  let flags ← flagsExpr r flags
  return [writeMarked value parcel
    (.call (.classRef textUtils.qualifiedName) "writeToParcel"
      [value.ref, parcel.ref, flags])]

def writeRecord (r : Registry) (value parcel : Variable) (flags : WriteFlags) :
    Except MarshalError Block := do
  let flags ← flagsExpr r flags
  return [writeMarked value parcel
    (value.call "writeToParcel" [parcel.ref, flags])]

def binderWriteMethod : BinderKind → String
  | .interface => "writeStrongInterface"
  | .handle | .native | .proxy => "writeStrongBinder"

def listWriteMethod : ListElement → String
  | .strings => "writeStringList"
  | .binders => "writeBinderList"
  | .typed _ => "writeTypedList"
  | .untyped => "writeList"

/-- The binder of an interface that may be null. -/
def asBinder (value : Variable) : Expr :=
  .ternary value.isNotNull (value.call "asBinder" []) .null

def writeWhole (r : Registry) (d : Descriptor) (value parcel : Variable)
    (flags : WriteFlags) : Except MarshalError Block :=
  match d.strategy with
  | .primitive p => .ok [.expr (parcel.call p.writeMethod [carry p value])]
  | .string => .ok [.expr (parcel.call "writeString" [value.ref])]
  | .charSequence => writeCharSequence r value parcel flags
  | .exception _ => .ok [.expr (parcel.call "writeException" [value.ref])]
  | .binder kind =>
      .ok [.expr (parcel.call (binderWriteMethod kind) [value.ref])]
  | .map => .ok [.expr (parcel.call "writeMap" [value.ref])]
  | .list => .ok [.expr (parcel.call "writeList" [value.ref])]
  | .parcelable => writeRecord r value parcel flags
  | .interface _ =>
      .ok [.expr (parcel.call "writeStrongBinder" [asBinder value])]
  | .genericList _ element =>
      .ok [.expr (parcel.call (listWriteMethod element) [value.ref])]
  | .void | .helper | .generic _ => .error (.unsupported d.qualifiedName .write)

def Layout.write (r : Registry) (parcel : Variable) (flags : WriteFlags) :
    Layout → Variable → Except MarshalError Block
  | .whole d, value => writeWhole r d value parcel flags
  | .elements _ element, value => do
      let item := itemVariable value (element ()).type
      let body ← (element ()).write r parcel flags item
      return [writeSized value parcel (value.call "size" [])
        [.forEach item value.ref body]]
  | .entries d key val, value => do
      let entry := entryVariable value d
      let keyLocal := entryKeyVariable value (key ()).type
      let valueLocal := entryValueVariable value (val ()).type
      let keyCode ← (key ()).write r parcel flags keyLocal
      let valueCode ← (val ()).write r parcel flags valueLocal
      return [writeSized value parcel (value.call "size" [])
        [.forEach entry (value.call "entrySet" [])
          (.declare keyLocal (entry.call "getKey" [])
            :: .declare valueLocal (entry.call "getValue" [])
            :: (keyCode ++ valueCode))]]
  | .shapeless d, _ => .error (.unsupported d.qualifiedName .write)

def write (r : Registry) (d : Descriptor) (value parcel : Variable)
    (flags : WriteFlags) :
    Except MarshalError Block :=
  (r.layout d).write r parcel flags value

/-- Code that writes an array; an array of lists is written list by list. -/
def writeArray (r : Registry) (d : Descriptor) (value parcel : Variable)
    (flags : WriteFlags) : Except MarshalError Block :=
  match d.strategy with
  | .primitive p => .ok [.expr (parcel.call p.writeArrayMethod [value.ref])]
  | .string => .ok [.expr (parcel.call "writeStringArray" [value.ref])]
  | .binder .handle => .ok [.expr (parcel.call "writeBinderArray" [value.ref])]
  | .parcelable => do
      let flags ← flagsExpr r flags
      return [.expr (parcel.call "writeTypedArray" [value.ref, flags])]
  | .genericList _ _ => do
      let item := itemVariable value d
      let body ← writeWhole r d item parcel flags
      return [writeSized value parcel (.field value.ref "length")
        [.forEach item value.ref body]]
  | _ => .error (.unsupported d.qualifiedName .writeArray)

end BinderIdl.Parcel
