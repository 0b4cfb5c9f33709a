/-! Handles of types. A handle is a position in the registry that gave it out;
the positions before `builtInCount` belong to the built-in types, so that code
generation can name them. -/

namespace BinderIdl.Types

structure Handle where
  index : Nat
deriving DecidableEq

namespace Handle

def void : Handle := ⟨0⟩
def boolean : Handle := ⟨1⟩
def byte : Handle := ⟨2⟩
def char : Handle := ⟨3⟩
def int : Handle := ⟨4⟩
def long : Handle := ⟨5⟩
def float : Handle := ⟨6⟩
def double : Handle := ⟨7⟩
def object : Handle := ⟨8⟩
def string : Handle := ⟨9⟩
def charSequence : Handle := ⟨10⟩
def map : Handle := ⟨11⟩
def list : Handle := ⟨12⟩
def textUtils : Handle := ⟨13⟩
def remoteException : Handle := ⟨14⟩
def runtimeException : Handle := ⟨15⟩
def binder : Handle := ⟨16⟩
def binderInterface : Handle := ⟨17⟩
def nativeBinder : Handle := ⟨18⟩
def binderProxy : Handle := ⟨19⟩
def parcel : Handle := ⟨20⟩
def parcelable : Handle := ⟨21⟩
def context : Handle := ⟨22⟩
def classLoader : Handle := ⟨23⟩

/-- The simple names of the built-in types, at the positions of
their handles. -/
def builtInNames : List String :=
  ["void", "boolean", "byte", "char", "int", "long", "float", "double",
    "Object", "String", "CharSequence", "Map", "List", "TextUtils",
    "RemoteException", "RuntimeException", "IBinder", "IInterface", "Binder",
    "BinderProxy", "Parcel", "Parcelable", "Context", "ClassLoader"]

def builtInCount : Nat := 24

def isBuiltIn (h : Handle) : Bool := decide (h.index < builtInCount)

def builtInName? (h : Handle) : Option String := builtInNames[h.index]?

theorem isSome_builtInName?_iff (h : Handle) :
    h.builtInName?.isSome ↔ h.isBuiltIn := by
  simp only [isBuiltIn, decide_eq_true_iff, Option.isSome_iff_ne_none]
  simp [builtInName?, builtInCount, builtInNames]

/-- How messages show a handle: by its built-in name, or else by
its position. -/
def text (h : Handle) : String :=
  "TypeId(" ++ h.builtInName?.getD (toString h.index) ++ ")"

end Handle

end BinderIdl.Types
