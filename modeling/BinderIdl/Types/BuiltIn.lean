import BinderIdl.Types.Registry

/-! The built-in types and templates, and how a registry is given them. The
types have to land on their constant handles, so seeding fails on a registry
that already holds something else. -/

namespace BinderIdl.Types

namespace BuiltIn

def helper (package name : String) :
    Descriptor := .builtIn package name .none .helper

/-- The built-in types, each at the position of its handle. -/
def types : List Descriptor :=
  [.builtIn "" "void" .none .void,
    .ofPrimitive .boolean,
    .ofPrimitive .byte,
    .ofPrimitive .char,
    .ofPrimitive .int,
    .ofPrimitive .long,
    .ofPrimitive .float,
    .ofPrimitive .double,
    helper "java.lang" "Object",
    .builtIn "java.lang" "String" .write .string,
    .builtIn "java.lang" "CharSequence" .write .charSequence,
    .builtIn "java.util" "Map" .writeAndOut .map,
    .builtIn "java.util" "List" .writeAndOut .list,
    helper "android.text" "TextUtils",
    .builtIn "android.os" "RemoteException" .write (.exception .remote),
    .builtIn "java.lang" "RuntimeException" .write (.exception .runtime),
    .builtIn "android.os" "IBinder" .write (.binder .handle),
    .builtIn "android.os" "IInterface" .write (.binder .interface),
    .builtIn "android.os" "Binder" .write (.binder .native),
    .builtIn "android.os" "BinderProxy" .write (.binder .proxy),
    helper "android.os" "Parcel",
    helper "android.os" "Parcelable",
    helper "android.content" "Context",
    helper "java.lang" "ClassLoader"]

theorem length_types : types.length = Handle.builtInCount := rfl

theorem map_name_types : types.map Descriptor.name = Handle.builtInNames := rfl

def templates :
    List Template := [⟨"java.util", "List", 1⟩, ⟨"java.util", "Map", 2⟩]

inductive SeedError where
  | wrongHandle (qualifiedName : String) (actual expected : Handle)
  | type (error : RegisterError)
  | template (error : RegisterError)
deriving DecidableEq

def SeedError.message : SeedError → String
  | wrongHandle qualifiedName actual expected =>
      "built-in " ++ qualifiedName ++ " registered as " ++ actual.text ++
        ", expected " ++ expected.text
  | type error => "built-in registration failed: " ++ error.message
  | template error => "built-in template registration failed: " ++ error.message

end BuiltIn

namespace Registry

open BuiltIn

/-- Registers types at consecutive handles. What was registered before a
failure, and the type that got another handle, stay. -/
def seedTypes (r : Registry) (next : Nat) :
    List Descriptor → Registry × Option SeedError
  | [] => (r, none)
  | d :: rest =>
      match r.register d with
      | .error error => (r, some (.type error))
      | .ok (h, grown) =>
          if h = ⟨next⟩ then grown.seedTypes (next + 1) rest
          else (grown, some (.wrongHandle d.qualifiedName h ⟨next⟩))

def seedTemplates (r : Registry) : List Template → Registry × Option SeedError
  | [] => (r, none)
  | t :: rest =>
      match r.registerTemplate t with
      | .error error => (r, some (.template error))
      | .ok grown => grown.seedTemplates rest

/-- Gives a registry the built-in types and templates, or tells why it cannot
have them. -/
def seed (r : Registry) : Registry × Option SeedError :=
  match r.seedTypes 0 BuiltIn.types with
  | (grown, some error) => (grown, some error)
  | (grown, none) => grown.seedTemplates BuiltIn.templates

/-- The registry that a compilation starts with. -/
def standard : Registry := ⟨BuiltIn.types, BuiltIn.templates⟩

theorem seed_empty : empty.seed = (standard, none) := by
  decide +kernel

end Registry

end BinderIdl.Types
