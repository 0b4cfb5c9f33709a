import BinderIdl.Types.Error

namespace BinderIdl.Types

structure Template where
  package : String
  name : String
  arity : Nat
deriving DecidableEq

/-- Lists of strings, of binder handles and of records have parcel calls of
their own. -/
def ListElement.ofType (element : Descriptor) : ListElement :=
  match element.strategy with
  | .string => .strings
  | .binder .handle => .binders
  | .parcelable => .typed element.recordCreator
  | _ => .untyped

namespace Template

def qualifiedName (t : Template) : String := qualify t.package t.name

/-- A template is a list by its simple name, whatever its package. -/
def isList (t : Template) : Bool := t.name == "List" && t.arity == 1

/-- The class of a fresh value, without type arguments. -/
def instantiable (t : Template) : String :=
  if t.isList then "java.util.ArrayList"
  else if t.qualifiedName == "java.util.Map" then "java.util.HashMap"
  else t.qualifiedName

/-- Only elements and pairs of elements can be marshalled one by one. -/
def capabilities (t : Template) : Capabilities :=
  if t.arity == 1 || t.arity == 2 then .writeAndOut else .none

/-- The qualified names of type arguments, as an instance shows them. -/
def render (arguments : List Descriptor) : String :=
  "<" ++ String.intercalate "," (arguments.map Descriptor.qualifiedName) ++ ">"

def instanceName (t : Template) (arguments : List Descriptor) : String :=
  t.qualifiedName ++ render arguments

def apply (t : Template) (handles : List Handle) (arguments : List Descriptor) :
    Descriptor :=
  let rendered := render arguments
  let typeArguments : TypeArguments :=
    ⟨handles, rendered, t.instantiable ++ rendered⟩
  match t.isList, arguments with
  | true, element :: _ =>
      .ofTemplate t.package t.name .writeAndOut
        (.genericList typeArguments (.ofType element))
  | _, _ => .ofTemplate t.package t.name t.capabilities (.generic typeArguments)

theorem qualifiedName_apply (t : Template) (handles : List Handle)
    (arguments : List Descriptor) :
    (t.apply handles arguments).qualifiedName = t.instanceName arguments := by
  unfold apply
  split <;> rfl

end Template

end BinderIdl.Types
