namespace BinderIdl.Types

/-- How a single value travels. -/
inductive Carrier where
  | direct
  /-- As an int, 1 for true and 0 for false. -/
  | boolAsInt
  /-- As an int, widened to write and narrowed to read. -/
  | charAsInt
deriving DecidableEq

inductive Primitive where
  | boolean
  | byte
  | char
  | int
  | long
  | float
  | double
deriving DecidableEq

namespace Primitive

def name : Primitive → String
  | boolean => "boolean"
  | byte => "byte"
  | char => "char"
  | int => "int"
  | long => "long"
  | float => "float"
  | double => "double"

def all : List Primitive := [boolean, byte, char, int, long, float, double]

def ofName? (name : String) : Option Primitive :=
  all.find? fun p => p.name == name

theorem ofName?_name (p : Primitive) : ofName? p.name = some p := by
  cases p <;> decide

def carrier : Primitive → Carrier
  | boolean => .boolAsInt
  | char => .charAsInt
  | _ => .direct

/-- The type as it stands in the names of parcel methods. -/
def stem : Primitive → String
  | boolean => "Boolean"
  | byte => "Byte"
  | char => "Char"
  | int => "Int"
  | long => "Long"
  | float => "Float"
  | double => "Double"

/-- The stem of the methods for single values: the parcel has none for booleans
and characters. -/
def carrierStem (p : Primitive) : String :=
  match p.carrier with
  | .direct => p.stem
  | .boolAsInt | .charAsInt => int.stem

def writeMethod (p : Primitive) : String := "write" ++ p.carrierStem

def readMethod (p : Primitive) : String := "read" ++ p.carrierStem

def writeArrayMethod (p : Primitive) : String := "write" ++ p.stem ++ "Array"

def createArrayMethod (p : Primitive) : String := "create" ++ p.stem ++ "Array"

def readArrayMethod (p : Primitive) : String := "read" ++ p.stem ++ "Array"

end Primitive

end BinderIdl.Types
