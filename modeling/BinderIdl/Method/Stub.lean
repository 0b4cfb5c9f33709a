import BinderIdl.Method.Signature

namespace BinderIdl.Method

open Java BinderIdl.Types Parcel Emitter

def argumentVariable (p : Parameter) (position : Nat) : Variable :=
  p.type.variableNamed ("_arg" ++ toString position)

/-- The local for the length that the caller sends for an array. -/
def lengthVariable (value : Variable) : Variable := value.derived "int" "length"

/-- Allocates an array with the length that the caller sends; -1
stands for null. -/
def allocateArray (d : Descriptor) (value parcel : Variable) : Block :=
  let length := lengthVariable value
  [.declare length (readInt parcel),
    .declareUnset value,
    .ifElse (.compare length.ref .lt (.int 0))
      [.set value .null]
      [.set value (.newArray d.importType length.ref)]]

def receiveArgument (r : Registry) (data : Variable) (p : Parameter)
    (position : Nat) :
    Emitter Unit :=
  let value := argumentVariable p position
  if p.direction.isIn then p.type.create r value data
  else
    if p.type.isArray then emitAll (allocateArray p.type.descriptor value data)
  else emit (.declare value (.new p.type.descriptor.instantiable []))

def callImplementation (s : Signature) (arguments : List Variable) : Stmt :=
  let call : Expr := .call (.literal "this") s.name (arguments.map Variable.ref)
  match s.result with
  | none => .expr call
  | some t => .declare (t.variableNamed resultName) call

def sendResult (r : Registry) (reply : Variable) :
    Option ValueType → Emitter Unit
  | none => pure ()
  | some t => t.write r (t.variableNamed resultName) reply .returnValue

def sendArgument (r : Registry) (reply : Variable) (p : Parameter)
    (position : Nat) :
    Emitter Unit :=
  if p.direction.isOut then
    p.type.write r (argumentVariable p position) reply .returnValue
  else pure ()

def stubBody (r : Registry) (s : Signature) (data reply : Variable) :
    Emitter Unit := do
  let positioned := s.parameters.zipIdx
  emit (.expr (data.call "enforceInterface" [.literal "DESCRIPTOR"]))
  positioned.forM fun (p, position) => receiveArgument r data p position
  emit (callImplementation s (positioned.map fun (p, position) =>
    argumentVariable p position))
  if s.oneway then pure ()
  else do
    emit (.expr (reply.call "writeNoException" []))
    sendResult r reply s.result
    positioned.forM fun (p, position) => sendArgument r reply p position

def stub (r : Registry) (s : Signature) : Except MarshalError Block := do
  let data ← parcelVariable r "data"
  let reply ← parcelVariable r "reply"
  (stubBody r s data reply).code

end BinderIdl.Method
