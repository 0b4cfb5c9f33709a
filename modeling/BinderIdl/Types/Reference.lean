import BinderIdl.Text.Whitespace
import BinderIdl.Types.Error

/-! Textual references to types: a name, or a name with type arguments in angle
brackets. The arguments are plain names. White space means nothing anywhere in
a reference. -/

namespace BinderIdl.Types

inductive Reference where
  | plain (name : String)
  | generic (base : String) (arguments : List String)
deriving DecidableEq

namespace Reference

/-- The pieces between commas; there is one more piece than there are commas. -/
def pieces : List Char → List (List Char)
  | [] => [[]]
  | c :: rest =>
      if c = ',' then [] :: pieces rest
      else
        match pieces rest with
        | [] => [[c]]
        | piece :: others => (c :: piece) :: others

theorem pieces_ne_nil (text : List Char) : pieces text ≠ [] := by
  cases text with
  | nil => simp [pieces]
  | cons c rest =>
      unfold pieces
      split
      · simp
      · split <;> simp

/-- The pieces with commas between them again. -/
def join : List (List Char) → List Char
  | [] => []
  | [piece] => piece
  | piece :: next :: rest => piece ++ ',' :: join (next :: rest)

theorem join_pieces (text : List Char) : join (pieces text) = text := by
  induction text with
  | nil => rfl
  | cons c rest induction =>
      unfold pieces
      have hne := pieces_ne_nil rest
      split
      · cases hp : pieces rest with
        | nil => exact absurd hp hne
        | cons piece others => simp_all [join]
      · cases hp : pieces rest with
        | nil => exact absurd hp hne
        | cons piece others =>
            cases others with
            | nil => simp_all [join]
            | cons next more => simp_all [join]

/-- What stands before a closing bracket at the very end. -/
def beforeClosing? (text : List Char) : Option (List Char) :=
  if text.getLast? = some '>' then some text.dropLast else none

/-- Reads the part in brackets, which follows the opening one. -/
def splitArguments (whole base text : List Char) :
    Except LookupError Reference :=
  match beforeClosing? text with
  | none => .error (.malformed (String.ofList whole))
  | some inner =>
      if base.isEmpty ||
        inner.isEmpty then .error (.malformed (String.ofList whole))
      else if inner.contains '<' || inner.contains '>' then
        .error (.nestedGeneric (String.ofList whole))
      else if (pieces inner).any List.isEmpty then
        .error (.malformed (String.ofList whole))
      else
        .ok (.generic (String.ofList base) ((pieces inner).map String.ofList))

/-- Takes a reference without white space apart. -/
def split (text : List Char) : Except LookupError Reference :=
  match text.dropWhile (· != '<') with
  | [] =>
      if text.isEmpty || text.contains '>' || text.contains ',' then
        .error (.malformed (String.ofList text))
      else .ok (.plain (String.ofList text))
  | _ :: bracketed => splitArguments text (text.takeWhile (· != '<')) bracketed

def ofText (text : String) : Except LookupError Reference :=
  split (Text.removeBlanks text.toList)

/-- The written form without white space. -/
def text : Reference → List Char
  | plain name => name.toList
  | generic base arguments =>
      base.toList ++ '<' :: (join (arguments.map String.toList) ++ ['>'])

end Reference

end BinderIdl.Types
