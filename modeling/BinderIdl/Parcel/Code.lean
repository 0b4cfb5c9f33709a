import BinderIdl.Parcel.Error

namespace BinderIdl.Parcel

open Java BinderIdl.Types

def writeInt (parcel : Variable) (value : Expr) : Stmt :=
  .expr (parcel.call "writeInt" [value])

def readInt (parcel : Variable) : Expr := parcel.call "readInt" []

/-- The test of a null marker, which is 0 for null. -/
def readMarker (parcel : Variable) : Expr :=
  .compare (.int 0) .ne (readInt parcel)

/-- Writes a null marker, and the value behind it if there is one. -/
def writeMarked (value parcel : Variable) (present : Expr) : Stmt :=
  .ifElse value.isNotNull
    [writeInt parcel (.int 1), .expr present]
    [writeInt parcel (.int 0)]

/-- Gives a declared variable what is behind a null marker. -/
def createMarked (value parcel : Variable) (present : Expr) : Stmt :=
  .ifElse (readMarker parcel) [.set value present] [.set value .null]

/-- Writes a size and what belongs to it; null has the size -1. -/
def writeSized (value parcel : Variable) (size : Expr) (body : Block) : Stmt :=
  .ifElse value.isNull
    [writeInt parcel (.int (-1))]
    (writeInt parcel size :: body)

def sizeVariable (value : Variable) : Variable := value.derived "int" "size"

def indexVariable (value : Variable) : Variable := value.derived "int" "i"

/-- Reads the size that `writeSized` writes. -/
def readSize (value parcel : Variable) : Stmt :=
  .declare (sizeVariable value) (readInt parcel)

/-- Runs a body once for each of the elements that the size counts. -/
def sizedLoop (value : Variable) (body : Block) : Stmt :=
  .countUp (indexVariable value) (sizeVariable value).ref body

/-- Gives a declared variable a fresh container and fills it, or null for a
negative size. -/
def createSized (value : Variable) (fresh : Expr) (body : Block) : Stmt :=
  .ifElse (.compare (sizeVariable value).ref .lt (.int 0))
    [.set value .null]
    [.set value fresh, sizedLoop value body]

/-- The flags of a write: the constant for return values, or 0. -/
def flagsExpr (r : Registry) (flags : WriteFlags) : Except MarshalError Expr :=
  if flags.isReturnValue then do
    let owner ← r.require .parcelable
    return .field (.classRef owner.qualifiedName)
      "PARCELABLE_WRITE_RETURN_VALUE"
  else return .int 0

def creatorExpr (d : Descriptor) : Expr :=
  .field (.classRef d.qualifiedName) "CREATOR"

def itemVariable (value : Variable) (element : Descriptor) : Variable :=
  value.derived element.qualifiedName "item"

def entryKeyVariable (value : Variable) (key : Descriptor) : Variable :=
  value.derived key.qualifiedName "key"

def entryValueVariable (value : Variable) (type : Descriptor) : Variable :=
  value.derived type.qualifiedName "value"

def entryVariable (value : Variable) (map : Descriptor) : Variable :=
  value.derived ("java.util.Map.Entry" ++ map.argumentText) "entry"

end BinderIdl.Parcel
