/-! The Java code that marshalling produces: variables, expressions and
statements. Types are the names that are printed for them, so nothing here
depends on the type registry. -/

namespace BinderIdl.Java

structure Variable where
  type : String
  name : String
deriving DecidableEq

/-- A local named after another one: `v` and `size` give `v_size`. -/
def Variable.derived (owner : Variable) (type suffix : String) : Variable :=
  ⟨type, owner.name ++ "_" ++ suffix⟩

inductive Comparison where
  | eq
  | ne
  | lt
  | ge
deriving DecidableEq

namespace Comparison

def text : Comparison → String
  | eq => "=="
  | ne => "!="
  | lt => "<"
  | ge => ">="

end Comparison

inductive Expr where
  /-- Text that is printed as it stands. -/
  | literal (text : String)
  | var (v : Variable)
  /-- A class as the receiver of a static member. -/
  | classRef (name : String)
  | field (target : Expr) (name : String)
  /-- A call without a receiver. -/
  | invoke (method : String) (arguments : List Expr)
  | call (target : Expr) (method : String) (arguments : List Expr)
  | compare (left : Expr) (comparison : Comparison) (right : Expr)
  | ternary (condition yes no : Expr)
  | cast (type : String) (value : Expr)
  | new (type : String) (arguments : List Expr)
  | newArray (elementType : String) (size : Expr)
  | index (array position : Expr)

namespace Expr

def null : Expr := .literal "null"

def int (value : Int) : Expr := .literal (toString value)

end Expr

namespace Variable

def ref (v : Variable) : Expr := .var v

def call (v : Variable) (method : String) (arguments : List Expr) : Expr :=
  .call v.ref method arguments

def isNull (v : Variable) : Expr := .compare v.ref .eq .null

def isNotNull (v : Variable) : Expr := .compare v.ref .ne .null

end Variable

/-- A statement; a block is the list of its statements. -/
inductive Stmt where
  | expr (value : Expr)
  /-- A local without a value yet. -/
  | declareUnset (v : Variable)
  | declare (v : Variable) (value : Expr)
  | assign (target value : Expr)
  | ifThen (condition : Expr) (body : List Stmt)
  | ifElse (condition : Expr) (yes no : List Stmt)
  /-- Counts `index` from zero up to `count`. -/
  | countUp (index : Variable) (count : Expr) (body : List Stmt)
  | forEach (item : Variable) (collection : Expr) (body : List Stmt)

abbrev Block := List Stmt

namespace Stmt

def set (v : Variable) (value : Expr) : Stmt := .assign v.ref value

end Stmt

end BinderIdl.Java
