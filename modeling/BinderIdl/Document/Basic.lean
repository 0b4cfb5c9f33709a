import BinderIdl.Source.Site
import BinderIdl.Text.Whitespace

namespace BinderIdl

open Source

/-- Which way the value of a parameter travels. -/
inductive Direction where
  | input
  | output
  | inOut
deriving DecidableEq

namespace Direction

instance : Inhabited Direction := ⟨input⟩

def text : Direction → String
  | input => "in"
  | output => "out"
  | inOut => "inout"

def all : List Direction := [input, output, inOut]

def ofText? (text : String) : Option Direction :=
  all.find? fun direction => direction.text == text

theorem ofText?_text (direction : Direction) :
    ofText? direction.text = some direction := by
  cases direction <;> decide

def isIn : Direction → Bool
  | input | inOut => true
  | output => false

def isOut : Direction → Bool
  | input => false
  | output | inOut => true

end Direction

/-- A type as it is written. -/
structure TypeText where
  /-- The text without the array marker. -/
  name : String
  isArray : Bool
  line : Nat
deriving DecidableEq

namespace TypeText

/-- Takes one array marker off the end of a trimmed text. -/
def arrayElement? (text : List Char) : Option (List Char) :=
  if ['[', ']'].isSuffixOf text then some (text.take (text.length - 2))
    else none

/-- Reads a type, of which the white space around it and before the array marker
is no part. -/
def ofText (text : String) (line : Nat) : TypeText :=
  let trimmed := Text.trim text.toList
  match arrayElement? trimmed with
  | some element => ⟨String.ofList (Text.trimEnd element), true, line⟩
  | none => ⟨String.ofList trimmed, false, line⟩

def isVoid (t : TypeText) : Bool := !t.isArray && t.name == "void"

end TypeText

namespace Document

structure Parameter where
  direction : Direction
  type : TypeText
  name : String
  line : Nat
deriving DecidableEq

structure Method where
  name : String
  line : Nat
  oneway : Bool
  returnType : TypeText
  parameters : List Parameter
deriving DecidableEq

structure Interface where
  name : String
  line : Nat
  /-- All methods are oneway. -/
  oneway : Bool
  methods : List Method
deriving DecidableEq

inductive Item where
  | parcelable (name : String) (line : Nat)
  | interface (interface : Interface)
deriving DecidableEq

def Item.interface? : Item → Option Interface
  | parcelable _ _ => none
  | interface i => some i

theorem Item.interface?_eq_some_iff {item : Item} {i : Interface} :
    item.interface? = some i ↔ item = .interface i := by
  cases item <;> simp [Item.interface?]

end Document

/-- The declarations of one source file. -/
structure Document where
  package : String
  file : String
  items : List Document.Item
deriving DecidableEq

namespace Document

def site (doc : Document) (line : Nat) : Site := ⟨doc.file, line⟩

def interfaces (doc : Document) :
    List Interface := doc.items.filterMap Item.interface?

theorem mem_interfaces_iff {doc : Document} {i : Interface} :
    i ∈ doc.interfaces ↔ .interface i ∈ doc.items := by
  simp [interfaces, Item.interface?_eq_some_iff]

end Document

end BinderIdl
