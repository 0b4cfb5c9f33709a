import BinderIdl.Types.Registry

namespace BinderIdl

open Source BinderIdl.Types

namespace Parcel

inductive Operation where
  | write
  /-- Declares a variable and gives it the value in the parcel. -/
  | create
  /-- Fills the value of a variable that is there already. -/
  | read
  | writeArray
  | createArray
  | readArray
deriving DecidableEq

namespace Operation

def text : Operation → String
  | write => "write_to_parcel"
  | create => "create_from_parcel"
  | read => "read_from_parcel"
  | writeArray => "write_array_to_parcel"
  | createArray => "create_array_from_parcel"
  | readArray => "read_array_from_parcel"

def isArray : Operation → Bool
  | write | create | read => false
  | writeArray | createArray | readArray => true

end Operation

inductive MarshalError where
  | unsupported (qualifiedName : String) (operation : Operation)
  | notOutParameter (qualifiedName : String)
  /-- Generated code refers to a built-in type that the registry lacks. -/
  | missingBuiltIn (h : Handle)
deriving DecidableEq

namespace MarshalError

def message : MarshalError → String
  | unsupported qualifiedName operation =>
      operation.text ++ " is not supported for " ++ qualifiedName
  | notOutParameter qualifiedName =>
      qualifiedName ++ " cannot be an out parameter"
  | missingBuiltIn h =>
      "built-in " ++ h.text ++ " is missing from the namespace"

/-- A method that was accepted can be generated, so a failure is the
compiler's own. -/
def report (site : Site) (error : MarshalError) : Diagnostic :=
  .errorAt .internalError site ("internal error: " ++ error.message)
    "while generating this method"

end MarshalError

end Parcel

/-- A built-in type that generated code refers to. -/
def Types.Registry.require (r : Registry) (h : Handle) :
    Except Parcel.MarshalError Descriptor :=
  match r.get? h with
  | some d => .ok d
  | none => .error (.missingBuiltIn h)

end BinderIdl
