import BinderIdl.Document.Resolution
import BinderIdl.Parcel.Marshal

namespace BinderIdl

open Document Java BinderIdl.Types Parcel

namespace Method

structure ValueType where
  descriptor : Descriptor
  isArray : Bool
deriving DecidableEq

namespace ValueType

def variableNamed (t : ValueType) (name : String) : Variable :=
  t.descriptor.variableFor t.isArray name

def write (t : ValueType) (r : Registry) (value parcel : Variable)
    (flags : WriteFlags) :
    Emitter Unit :=
  let operation : Operation := if t.isArray then .writeArray else .write
  operation.emit r t.descriptor value parcel flags

def create (t : ValueType) (r : Registry) (value parcel : Variable) :
    Emitter Unit :=
  let operation : Operation := if t.isArray then .createArray else .create
  operation.emit r t.descriptor value parcel .none

def read (t : ValueType) (r : Registry) (value parcel : Variable) :
    Emitter Unit :=
  let operation : Operation := if t.isArray then .readArray else .read
  operation.emit r t.descriptor value parcel .none

end ValueType

structure Parameter where
  name : String
  direction : Direction
  type : ValueType
deriving DecidableEq

structure Signature where
  name : String
  oneway : Bool
  /-- The type of the result, unless there is none. -/
  result : Option ValueType
  parameters : List Parameter
deriving DecidableEq

inductive GenerationError where
  /-- The registry does not hold a type of the signature. -/
  | dangling (h : Handle)
  | marshalling (error : MarshalError)
deriving DecidableEq

namespace Signature

def valueType (r : Registry) (t : ResolvedType) :
    Except GenerationError ValueType :=
  match r.get? t.handle with
  | some d => .ok ⟨d, t.isArray⟩
  | none => .error (.dangling t.handle)

def parameter (r : Registry) (p : ResolvedParameter) :
    Except GenerationError Parameter :=
  (valueType r p.type).map fun t => ⟨p.name, p.direction, t⟩

def result? (r : Registry) (t : ResolvedType) :
    Except GenerationError (Option ValueType) :=
  if t.isVoid then .ok none else (valueType r t).map some

def ofResolved (r : Registry) (m : ResolvedMethod) :
    Except GenerationError Signature := do
  let result ← result? r m.returnType
  let parameters ← m.parameters.mapM (parameter r)
  return ⟨m.name, m.oneway, result, parameters⟩

def outParameters (s : Signature) : List Parameter :=
  s.parameters.filter fun p => p.direction.isOut

end Signature

/-- The local for the result, on either side. -/
def resultName : String := "_result"

def parcelVariable (r : Registry) (name : String) :
    Except MarshalError Variable :=
  (r.require .parcel).map fun d => d.valueVariable name

end Method

end BinderIdl
