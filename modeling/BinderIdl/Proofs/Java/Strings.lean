import BinderIdl.Java.Printer

/-! The strings that the text of code is put together from: names of what is
mentioned, names of types, and texts that are printed as they stand. The type of
a variable is printed where the variable is declared, and nowhere else. -/

namespace BinderIdl.Java

mutual
/-- The names and literal texts of an expression. -/
def Expr.names : Expr → List String
  | .literal text => [text]
  | .var v => [v.name]
  | .classRef name => [name]
  | .field target name => name :: target.names
  | .invoke method arguments => method :: Expr.listNames arguments
  | .call target method arguments =>
      method :: (target.names ++ Expr.listNames arguments)
  | .compare left _ right => left.names ++ right.names
  | .ternary condition yes no => condition.names ++ yes.names ++ no.names
  | .cast _ value => value.names
  | .new _ arguments => Expr.listNames arguments
  | .newArray _ size => size.names
  | .index array position => array.names ++ position.names

def Expr.listNames : List Expr → List String
  | [] => []
  | e :: rest => e.names ++ Expr.listNames rest
end

mutual
/-- The types that an expression casts to or allocates. -/
def Expr.types : Expr → List String
  | .literal _ => []
  | .var _ => []
  | .classRef _ => []
  | .field target _ => target.types
  | .invoke _ arguments => Expr.listTypes arguments
  | .call target _ arguments => target.types ++ Expr.listTypes arguments
  | .compare left _ right => left.types ++ right.types
  | .ternary condition yes no => condition.types ++ yes.types ++ no.types
  | .cast type value => type :: value.types
  | .new type arguments => type :: Expr.listTypes arguments
  | .newArray elementType size => elementType :: size.types
  | .index array position => array.types ++ position.types

def Expr.listTypes : List Expr → List String
  | [] => []
  | e :: rest => e.types ++ Expr.listTypes rest
end

def Expr.strings (e : Expr) : List String := e.names ++ e.types

mutual
def Stmt.strings : Stmt → List String
  | .expr value => value.strings
  | .declareUnset v => [v.type, v.name]
  | .declare v value => v.type :: v.name :: value.strings
  | .assign target value => target.strings ++ value.strings
  | .ifThen condition body => condition.strings ++ Block.strings body
  | .ifElse condition yes no =>
      condition.strings ++ Block.strings yes ++ Block.strings no
  | .countUp index count body =>
      index.type :: index.name :: (count.strings ++ Block.strings body)
  | .forEach item collection body =>
      item.type :: item.name :: (collection.strings ++ Block.strings body)

def Block.strings : List Stmt → List String
  | [] => []
  | stmt :: rest => stmt.strings ++ Block.strings rest
end

/-- A string that stays on its line. -/
def Unbroken (s : String) : Prop := '\n' ∉ s.toList

instance : DecidablePred Unbroken :=
  fun s => inferInstanceAs (Decidable ('\n' ∉ s.toList))

@[simp] theorem unbroken_append {first second : String} :
    Unbroken (first ++ second) ↔ Unbroken first ∧ Unbroken second := by
  simp [Unbroken]

/-- All strings of a list stay on their lines. -/
def AllUnbroken (strings : List String) : Prop := ∀ s ∈ strings, Unbroken s

instance :
    DecidablePred AllUnbroken := fun strings => List.decidableBAll _ strings

@[simp] theorem allUnbroken_nil : AllUnbroken [] := List.forall_mem_nil _

@[simp] theorem allUnbroken_cons {s : String} {rest : List String} :
    AllUnbroken (s :: rest) ↔ Unbroken s ∧ AllUnbroken rest :=
  List.forall_mem_cons

@[simp] theorem allUnbroken_append {first second : List String} :
    AllUnbroken (first ++ second) ↔ AllUnbroken first ∧ AllUnbroken second :=
  List.forall_mem_append

mutual
theorem Expr.unbroken_text :
    (e : Expr) → AllUnbroken e.names → AllUnbroken e.types → Unbroken e.text
  | .literal text, named, _ => named _ List.mem_cons_self
  | .var v, named, _ => named _ List.mem_cons_self
  | .classRef name, named, _ => named _ List.mem_cons_self
  | .field target name, named, typed => by
      obtain ⟨here, inside⟩ := allUnbroken_cons.mp named
      simp +decide [text, here, target.unbroken_text inside typed]
  | .invoke method arguments, named, typed => by
      obtain ⟨here, inside⟩ := allUnbroken_cons.mp named
      simp +decide [text, here, Expr.unbroken_listText arguments inside typed]
  | .call target method arguments, named, typed => by
      simp only [names, types, allUnbroken_cons,
        allUnbroken_append] at named typed
      simp +decide [text, named.1, target.unbroken_text named.2.1 typed.1,
        Expr.unbroken_listText arguments named.2.2 typed.2]
  | .compare left comparison right, named, typed => by
      simp only [names, types, allUnbroken_append] at named typed
      have sign : Unbroken comparison.text := by cases comparison <;> decide
      simp +decide [text, sign, left.unbroken_text named.1 typed.1,
        right.unbroken_text named.2 typed.2]
  | .ternary condition yes no, named, typed => by
      simp only [names, types, allUnbroken_append] at named typed
      simp +decide [text, condition.unbroken_text named.1.1 typed.1.1,
        yes.unbroken_text named.1.2 typed.1.2, no.unbroken_text named.2 typed.2]
  | .cast type value, named, typed => by
      obtain ⟨here, inside⟩ := allUnbroken_cons.mp typed
      simp +decide [text, here, value.unbroken_text named inside]
  | .new type arguments, named, typed => by
      obtain ⟨here, inside⟩ := allUnbroken_cons.mp typed
      simp +decide [text, here, Expr.unbroken_listText arguments named inside]
  | .newArray elementType size, named, typed => by
      obtain ⟨here, inside⟩ := allUnbroken_cons.mp typed
      simp +decide [text, here, size.unbroken_text named inside]
  | .index array position, named, typed => by
      simp only [names, types, allUnbroken_append] at named typed
      simp +decide [text, array.unbroken_text named.1 typed.1,
        position.unbroken_text named.2 typed.2]

theorem Expr.unbroken_listText :
    (es : List Expr) → AllUnbroken (Expr.listNames es) →
    AllUnbroken (Expr.listTypes es) → Unbroken (Expr.listText es)
  | [], _, _ => by decide
  | [e], named, typed => by
      simp only [listNames, listTypes, List.append_nil] at named typed
      exact e.unbroken_text named typed
  | e :: next :: rest, named, typed => by
      rw [listNames, allUnbroken_append] at named
      rw [listTypes, allUnbroken_append] at typed
      simp +decide [listText, e.unbroken_text named.1 typed.1,
        Expr.unbroken_listText (next :: rest) named.2 typed.2]
end

theorem Expr.unbroken_of_strings {e : Expr} (unbroken : AllUnbroken e.strings) :
    Unbroken e.text :=
  let both := allUnbroken_append.mp unbroken
  e.unbroken_text both.1 both.2

end BinderIdl.Java
