import BinderIdl.Diagnostic.Basic
import BinderIdl.Types.Descriptor

namespace BinderIdl.Types

open Source

inductive RegisterError where
  /-- Another descriptor has the qualified name of `added` already. -/
  | redefinition (added : Descriptor) (previous : Handle) (owner : Descriptor)
  /-- A template has the name already, with another number of parameters. -/
  | arityConflict (qualifiedName : String) (existing requested : Nat)
deriving DecidableEq

namespace RegisterError

def message : RegisterError → String
  | redefinition added _ _ =>
      "attempt to redefine " ++ added.qualifiedName ++ " as " ++
        added.kind.phrase
  | arityConflict qualifiedName existing requested =>
      "generic " ++ qualifiedName ++ " already declared with " ++
        toString existing ++ " type parameters, not " ++ toString requested

/-- A redefinition is reported where the new type is declared, or
else at `site`. -/
def report (site : Site) : RegisterError → Diagnostic
  | redefinition added _ owner =>
      .redefinition (added.site.getD site) added.qualifiedName added.kind.phrase
        owner.site owner.kind.phrase
  | error@(arityConflict _ _ _) =>
      .errorAt .typeArguments site error.message "declared here"

end RegisterError

inductive LookupError where
  | unknown (name : String)
  /-- Several packages declare the simple name. -/
  | ambiguous (name : String) (candidates : List String)
  | arityMismatch (name : String) (expected found : Nat)
  /-- A type argument is itself generic. -/
  | nestedGeneric (name : String)
  | malformed (text : String)
deriving DecidableEq

namespace LookupError

def message : LookupError → String
  | unknown name => "unknown type `" ++ name ++ "`"
  | ambiguous name _ => "type name `" ++ name ++ "` is ambiguous"
  | arityMismatch name expected found =>
      "`" ++ name ++ "` expects " ++ toString expected ++
        " type arguments, found " ++ toString found
  | nestedGeneric name =>
      "`" ++ name ++ "`: generic types cannot be used as type arguments"
  | malformed text => "`" ++ text ++ "` is not a valid type name"

def report (site : Site) : LookupError → Diagnostic
  | unknown name => .unknownType site name
  | ambiguous name candidates => .ambiguousType site name candidates
  | error@(arityMismatch _ _ _) =>
      .errorAt .typeArguments site error.message "referenced here"
  | error@(nestedGeneric _) =>
      .errorAt .unknownType site error.message "referenced here"
  | error@(malformed _) =>
      .errorAt .unknownType site error.message "referenced here"

end LookupError

end BinderIdl.Types
