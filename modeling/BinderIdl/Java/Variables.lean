import BinderIdl.Java.Basic

namespace BinderIdl.Java

mutual
def Expr.vars : Expr → List Variable
  | .literal _ => []
  | .var v => [v]
  | .classRef _ => []
  | .field target _ => target.vars
  | .invoke _ arguments => Expr.listVars arguments
  | .call target _ arguments => target.vars ++ Expr.listVars arguments
  | .compare left _ right => left.vars ++ right.vars
  | .ternary condition yes no => condition.vars ++ yes.vars ++ no.vars
  | .cast _ value => value.vars
  | .new _ arguments => Expr.listVars arguments
  | .newArray _ size => size.vars
  | .index array position => array.vars ++ position.vars

def Expr.listVars : List Expr → List Variable
  | [] => []
  | e :: rest => e.vars ++ Expr.listVars rest
end

mutual
/-- How many expressions an expression consists of, itself included. -/
def Expr.size : Expr → Nat
  | .literal _ => 1
  | .var _ => 1
  | .classRef _ => 1
  | .field target _ => target.size + 1
  | .invoke _ arguments => Expr.listSize arguments + 1
  | .call target _ arguments => target.size + Expr.listSize arguments + 1
  | .compare left _ right => left.size + right.size + 1
  | .ternary condition yes no => condition.size + yes.size + no.size + 1
  | .cast _ value => value.size + 1
  | .new _ arguments => Expr.listSize arguments + 1
  | .newArray _ size => size.size + 1
  | .index array position => array.size + position.size + 1

def Expr.listSize : List Expr → Nat
  | [] => 0
  | e :: rest => e.size + Expr.listSize rest
end

mutual
def Stmt.vars : Stmt → List Variable
  | .expr value => value.vars
  | .declareUnset v => [v]
  | .declare v value => v :: value.vars
  | .assign target value => target.vars ++ value.vars
  | .ifThen condition body => condition.vars ++ Block.vars body
  | .ifElse condition yes no =>
      condition.vars ++ Block.vars yes ++ Block.vars no
  | .countUp index count body => index :: (count.vars ++ Block.vars body)
  | .forEach item collection body =>
      item :: (collection.vars ++ Block.vars body)

def Block.vars : List Stmt → List Variable
  | [] => []
  | stmt :: rest => stmt.vars ++ Block.vars rest
end

theorem Block.vars_append (first second : Block) :
    Block.vars (first ++ second) = Block.vars first ++ Block.vars second := by
  induction first with
  | nil => rfl
  | cons stmt rest induction => simp [Block.vars, induction]

mutual
/-- The blocks inside a statement, at any depth. -/
def Stmt.blockCount : Stmt → Nat
  | .expr _ | .declareUnset _ | .declare _ _ | .assign _ _ => 0
  | .ifThen _ body => Block.blockCount body
  | .ifElse _ yes no => Block.blockCount yes + Block.blockCount no
  | .countUp _ _ body => Block.blockCount body
  | .forEach _ _ body => Block.blockCount body

/-- The blocks that a block consists of, itself included. -/
def Block.blockCount : List Stmt → Nat
  | [] => 1
  | stmt :: rest => stmt.blockCount + Block.blockCount rest
end

mutual
def Stmt.statementCount : Stmt → Nat
  | .expr _ | .declareUnset _ | .declare _ _ | .assign _ _ => 1
  | .ifThen _ body => Block.statementCount body + 1
  | .ifElse _ yes no => Block.statementCount yes + Block.statementCount no + 1
  | .countUp _ _ body => Block.statementCount body + 1
  | .forEach _ _ body => Block.statementCount body + 1

def Block.statementCount : List Stmt → Nat
  | [] => 0
  | stmt :: rest => stmt.statementCount + Block.statementCount rest
end

mutual
def Stmt.expressionCount : Stmt → Nat
  | .expr value => value.size
  | .declareUnset _ => 0
  | .declare _ value => value.size
  | .assign target value => target.size + value.size
  | .ifThen condition body => condition.size + Block.expressionCount body
  | .ifElse condition yes no =>
      condition.size + Block.expressionCount yes + Block.expressionCount no
  | .countUp _ count body => count.size + Block.expressionCount body
  | .forEach _ collection body => collection.size + Block.expressionCount body

def Block.expressionCount : List Stmt → Nat
  | [] => 0
  | stmt :: rest => stmt.expressionCount + Block.expressionCount rest
end

namespace Block

/-- The order of names, and of types under one name. -/
def nameTypeLe (first second : String × String) : Bool :=
  decide (first.1 < second.1) ||
    (first.1 == second.1 && decide (first.2 ≤ second.2))

/-- The names that a block declares or mentions, sorted, each once. -/
def variableNames (block : Block) : List String :=
  (((vars block).map Variable.name).eraseDups).mergeSort fun a b =>
    decide (a ≤ b)

/-- The names with their types that a block declares or mentions, sorted, each
pair once. -/
def typedVariables (block : Block) : List (String × String) :=
  (((vars block).map fun v => (v.name, v.type)).eraseDups).mergeSort nameTypeLe

end Block

end BinderIdl.Java
