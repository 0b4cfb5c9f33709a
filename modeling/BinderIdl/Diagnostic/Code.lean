/-! The codes of diagnostics. The first digit tells the phase: 1 for names, 2
for what may be marshalled, 9 for the compiler itself. -/

namespace BinderIdl.Diagnostic

inductive Code where
  | unknownType
  | ambiguousType
  | redefinition
  | typeArguments
  | notMarshallable
  | notArray
  | notOutParameter
  | invalidOneway
  | duplicateName
  | internalError
  | tooManyErrors
deriving DecidableEq

namespace Code

def text : Code → String
  | unknownType => "E1001"
  | ambiguousType => "E1002"
  | redefinition => "E1003"
  | typeArguments => "E1004"
  | notMarshallable => "E2001"
  | notArray => "E2002"
  | notOutParameter => "E2003"
  | invalidOneway => "E2004"
  | duplicateName => "E2005"
  | internalError => "E9001"
  | tooManyErrors => "E9002"

/-- Every code, in the order of the texts. -/
def all : List Code :=
  [unknownType, ambiguousType, redefinition, typeArguments, notMarshallable,
    notArray, notOutParameter, invalidOneway, duplicateName, internalError,
    tooManyErrors]

def ofText? (text : String) : Option Code :=
  all.find? fun code => code.text == text

theorem ofText?_text (code : Code) : ofText? code.text = some code := by
  cases code <;> decide

def description : Code → String
  | unknownType => "unknown type"
  | ambiguousType => "ambiguous type name"
  | redefinition => "type redefinition"
  | typeArguments => "wrong number of type arguments"
  | notMarshallable => "type cannot be marshalled"
  | notArray => "type cannot be an array"
  | notOutParameter => "type cannot be an out parameter"
  | invalidOneway => "invalid oneway method"
  | duplicateName => "duplicate name"
  | internalError => "internal compiler error"
  | tooManyErrors => "too many errors"

end Code

end BinderIdl.Diagnostic
