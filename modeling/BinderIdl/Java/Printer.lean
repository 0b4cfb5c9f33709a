import BinderIdl.Java.Basic

/-! Java source text. Expressions are parenthesised wherever another reading
might be possible, and each level of nesting adds four blanks. -/

namespace BinderIdl.Java

mutual
def Expr.text : Expr → String
  | .literal text => text
  | .var v => v.name
  | .classRef name => name
  | .field target name => target.text ++ "." ++ name
  | .invoke method arguments => method ++ "(" ++ Expr.listText arguments ++ ")"
  | .call target method arguments =>
      target.text ++ "." ++ method ++ "(" ++ Expr.listText arguments ++ ")"
  | .compare left comparison right =>
      "(" ++ left.text ++ " " ++ comparison.text ++ " " ++ right.text ++ ")"
  | .ternary condition yes no =>
      "((" ++ condition.text ++ ") ? (" ++ yes.text ++ ") : (" ++
        no.text ++ "))"
  | .cast type value => "((" ++ type ++ ") " ++ value.text ++ ")"
  | .new type arguments =>
      "new " ++ type ++ "(" ++ Expr.listText arguments ++ ")"
  | .newArray elementType size =>
      "new " ++ elementType ++ "[" ++ size.text ++ "]"
  | .index array position => array.text ++ "[" ++ position.text ++ "]"

/-- Arguments, with a comma and a blank between neighbours. -/
def Expr.listText : List Expr → String
  | [] => ""
  | [e] => e.text
  | e :: next :: rest => e.text ++ ", " ++ Expr.listText (next :: rest)
end

def indentation (depth : Nat) : String :=
  String.ofList (List.replicate (4 * depth) ' ')

mutual
/-- The lines of a statement that stands at the given depth, without
their line ends. -/
def Stmt.lines (depth : Nat) : Stmt → List String
  | .expr value => [indentation depth ++ value.text ++ ";"]
  | .declareUnset v => [indentation depth ++ v.type ++ " " ++ v.name ++ ";"]
  | .declare v value =>
      [indentation depth ++ v.type ++ " " ++ v.name ++ " = " ++
        value.text ++ ";"]
  | .assign target value =>
      [indentation depth ++ target.text ++ " = " ++ value.text ++ ";"]
  | .ifThen condition body =>
      (indentation depth ++ "if (" ++ condition.text ++ ") \x7b") ::
        (Block.lines (depth + 1) body ++ [indentation depth ++ "\x7d"])
  | .ifElse condition yes no =>
      (indentation depth ++ "if (" ++ condition.text ++ ") \x7b") ::
        (Block.lines (depth + 1) yes
          ++ [indentation depth ++ "\x7d", indentation depth ++ "else \x7b"]
          ++ Block.lines (depth + 1) no ++ [indentation depth ++ "\x7d"])
  | .countUp index count body =>
      (indentation depth ++ "for (" ++ index.type ++ " " ++ index.name ++
        " = 0; " ++ index.name ++ " < " ++ count.text ++ "; " ++ index.name ++
        "++) \x7b") ::
        (Block.lines (depth + 1) body ++ [indentation depth ++ "\x7d"])
  | .forEach item collection body =>
      (indentation depth ++ "for (" ++ item.type ++ " " ++ item.name ++ " : "
          ++ collection.text ++ ") \x7b") ::
        (Block.lines (depth + 1) body ++ [indentation depth ++ "\x7d"])

def Block.lines (depth : Nat) : List Stmt → List String
  | [] => []
  | stmt :: rest => Stmt.lines depth stmt ++ Block.lines depth rest
end

theorem Block.lines_append (depth : Nat) (first second : Block) :
    Block.lines depth (first ++ second) =
      Block.lines depth first ++ Block.lines depth second := by
  induction first with
  | nil => rfl
  | cons stmt rest induction => simp [Block.lines, induction]

/-- The text of a block that starts at the given depth. -/
def Block.print (depth : Nat) (block : Block) : String :=
  String.join ((Block.lines depth block).map (· ++ "\n"))

def Stmt.print (stmt : Stmt) : String :=
  Block.print 0 [stmt]

end BinderIdl.Java
