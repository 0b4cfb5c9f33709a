import BinderIdl.Java.Printer

/-! A printer that is given code piece by piece. It keeps the text so far and
the depth of the next line, which is raised for a block inside a statement and
lowered behind it. -/

namespace BinderIdl.Java

structure Printer where
  depth : Nat
  output : String
deriving DecidableEq

namespace Printer

/-- A printer that nothing was given to yet. -/
def atDepth (depth : Nat) : Printer := ⟨depth, ""⟩

def line (p : Printer) (text : String) : Printer :=
  { p with output := p.output ++ indentation p.depth ++ text ++ "\n" }

def indent (p : Printer) : Printer := { p with depth := p.depth + 1 }

def dedent (p : Printer) : Printer := { p with depth := p.depth - 1 }

mutual
def statement (p : Printer) : Stmt → Printer
  | .expr value => p.line (value.text ++ ";")
  | .declareUnset v => p.line (v.type ++ " " ++ v.name ++ ";")
  | .declare v value =>
      p.line (v.type ++ " " ++ v.name ++ " = " ++ value.text ++ ";")
  | .assign target value => p.line (target.text ++ " = " ++ value.text ++ ";")
  | .ifThen condition body =>
      let opened := p.line ("if (" ++ condition.text ++ ") \x7b")
      (opened.indent.block body).dedent.line "\x7d"
  | .ifElse condition yes no =>
      let opened := p.line ("if (" ++ condition.text ++ ") \x7b")
      let reopened :=
        ((opened.indent.block yes).dedent.line "\x7d").line "else \x7b"
      (reopened.indent.block no).dedent.line "\x7d"
  | .countUp index count body =>
      let opened :=
        p.line ("for (" ++ index.type ++ " " ++ index.name ++ " = 0; " ++
          index.name ++ " < " ++ count.text ++ "; " ++ index.name ++ "++) \x7b")
      (opened.indent.block body).dedent.line "\x7d"
  | .forEach item collection body =>
      let opened := p.line ("for (" ++ item.type ++ " " ++ item.name ++ " : " ++
        collection.text ++ ") \x7b")
      (opened.indent.block body).dedent.line "\x7d"

def block (p : Printer) : List Stmt → Printer
  | [] => p
  | stmt :: rest => (p.statement stmt).block rest
end

end Printer

end BinderIdl.Java
