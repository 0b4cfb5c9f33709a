import BinderIdl.Java.Basic
import BinderIdl.Source.Site
import BinderIdl.Types.Capabilities
import BinderIdl.Types.Handle
import BinderIdl.Types.Primitive

/-! Descriptors: what is known of one type. The strategy of a descriptor decides
how its values are marshalled, its kind only how messages speak of it. -/

namespace BinderIdl.Types

open Source

inductive Kind where
  | builtIn
  /-- A record declared in interface source. -/
  | parcelable
  | interface
  /-- An instance of a template. -/
  | generic
deriving DecidableEq

/-- The kind with its article, as messages say it. -/
def Kind.phrase : Kind → String
  | builtIn => "a built in"
  | parcelable => "a parcelable"
  | interface => "an interface"
  | generic => "a generic"

inductive ExceptionKind where
  | remote
  | runtime
deriving DecidableEq

inductive BinderKind where
  /-- The raw handle of a remote object, the only one with arrays. -/
  | handle
  | interface
  | native
  | proxy
deriving DecidableEq

/-- The parcel calls that carry a typed list. -/
inductive ListElement where
  | strings
  | binders
  /-- Records, through their creator. -/
  | typed (creator : String)
  /-- Anything else, through the class loader. -/
  | untyped
deriving DecidableEq

structure TypeArguments where
  handles : List Handle
  /-- The qualified names in angle brackets. -/
  rendered : String
  instantiable : String
deriving DecidableEq

inductive Strategy where
  | void
  | primitive (primitive : Primitive)
  | string
  | charSequence
  | exception (kind : ExceptionKind)
  | binder (kind : BinderKind)
  /-- A class that only generated code refers to. -/
  | helper
  | map
  | list
  | parcelable
  | interface (oneway : Bool)
  /-- A container that is written element by element. -/
  | generic (arguments : TypeArguments)
  | genericList (arguments : TypeArguments) (element : ListElement)
deriving DecidableEq

def Strategy.arguments? : Strategy → Option TypeArguments
  | .generic arguments => some arguments
  | .genericList arguments _ => some arguments
  | _ => none

structure Descriptor where
  package : String
  name : String
  kind : Kind
  capabilities : Capabilities
  site : Option Site
  strategy : Strategy
deriving DecidableEq

/-- A name inside its package; the default package has no name. -/
def qualify (package name : String) : String :=
  if package.isEmpty then name else package ++ "." ++ name

namespace Descriptor

def builtIn (package name : String) (capabilities : Capabilities)
    (strategy : Strategy) : Descriptor :=
  ⟨package, name, .builtIn, capabilities, none, strategy⟩

def ofPrimitive (p : Primitive) : Descriptor :=
  builtIn "" p.name .write (.primitive p)

def parcelable (package name : String) (site : Site) : Descriptor :=
  ⟨package, name, .parcelable, .writeAndOut, some site, .parcelable⟩

def interface (package name : String) (oneway : Bool) (site : Site) :
    Descriptor :=
  ⟨package, name, .interface, .write, some site, .interface oneway⟩

def ofTemplate (package name : String) (capabilities : Capabilities)
    (strategy : Strategy) : Descriptor :=
  ⟨package, name, .generic, capabilities, none, strategy⟩

/-- The type arguments in angle brackets, empty where there are none. -/
def argumentText (d : Descriptor) : String :=
  (d.strategy.arguments?.map TypeArguments.rendered).getD ""

def argumentHandles (d : Descriptor) : List Handle :=
  (d.strategy.arguments?.map TypeArguments.handles).getD []

/-- The name that identifies a type in its registry. The name of an instance of
a template carries the type arguments. -/
def qualifiedName (d : Descriptor) : String :=
  match d.kind with
  | .generic => qualify d.package d.name ++ d.argumentText
  | _ => qualify d.package d.name

/-- The symbol to import, without type arguments. -/
def importType (d : Descriptor) : String :=
  match d.strategy.arguments? with
  | some _ => qualify d.package d.name
  | none => d.qualifiedName

def stringCreator : String := "android.os.Parcel.STRING_CREATOR"

def recordCreator (d : Descriptor) : String := d.qualifiedName ++ ".CREATOR"

/-- The static creator that makes values of the type, or of its elements. -/
def creator? (d : Descriptor) : Option String :=
  match d.strategy with
  | .string | .charSequence => some stringCreator
  | .parcelable => some d.recordCreator
  | .genericList _ .strings => some stringCreator
  | .genericList _ (.typed creator) => some creator
  | _ => none

def instantiable (d : Descriptor) : String :=
  match d.strategy with
  | .list => "java.util.ArrayList"
  | .map => "java.util.HashMap"
  | .generic arguments => arguments.instantiable
  | .genericList arguments _ => arguments.instantiable
  | _ => d.qualifiedName

/-- Whether calls return before they are carried out; only interfaces tell. -/
def oneway? (d : Descriptor) : Option Bool :=
  match d.strategy with
  | .interface oneway => some oneway
  | _ => none

def canWrite (d : Descriptor) : Bool := d.capabilities.canWrite

def canBeOut (d : Descriptor) : Bool := d.capabilities.canBeOut

def canBeArray (d : Descriptor) : Bool :=
  match d.strategy with
  | .primitive _ | .string | .binder .handle | .parcelable
      | .genericList _ _ => true
  | _ => false

def valueVariable (d : Descriptor) (name : String) : Java.Variable :=
  ⟨d.qualifiedName, name⟩

def arrayVariable (d : Descriptor) (name : String) : Java.Variable :=
  ⟨d.qualifiedName ++ "[]", name⟩

/-- The variable for a value of the type, or for an array of such. -/
def variableFor (d : Descriptor) (array : Bool) (name : String) :
    Java.Variable :=
  if array then d.arrayVariable name else d.valueVariable name

end Descriptor

end BinderIdl.Types
