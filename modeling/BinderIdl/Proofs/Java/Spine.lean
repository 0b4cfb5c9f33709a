import BinderIdl.Java.Variables
import BinderIdl.Proofs.Java.Strings

/-! An expression as it is read from left to right: what it starts with, and
then the members and positions that are taken of this one after the other. -/

namespace BinderIdl.Java

mutual
/-- An expression with literals for all its leaves. -/
def Expr.bare : Expr → Expr
  | .literal text => .literal text
  | .var v => .literal v.name
  | .classRef name => .literal name
  | .field target name => .field target.bare name
  | .invoke method arguments => .invoke method (Expr.listBare arguments)
  | .call target method arguments =>
      .call target.bare method (Expr.listBare arguments)
  | .compare left comparison right => .compare left.bare comparison right.bare
  | .ternary condition yes no => .ternary condition.bare yes.bare no.bare
  | .cast type value => .cast type value.bare
  | .new type arguments => .new type (Expr.listBare arguments)
  | .newArray elementType size => .newArray elementType size.bare
  | .index array position => .index array.bare position.bare

def Expr.listBare : List Expr → List Expr
  | [] => []
  | e :: rest => e.bare :: Expr.listBare rest
end

mutual
/-- The kind of a leaf is not printed, and neither is the type of a variable. -/
theorem Expr.text_bare : (e : Expr) → e.bare.text = e.text
  | .literal _ | .var _ | .classRef _ => rfl
  | .field target name => by rw [bare, text, text, target.text_bare]
  | .invoke method arguments =>
      by rw [bare, text, text, Expr.listText_listBare arguments]
  | .call target method arguments => by
      rw [bare, text, text, target.text_bare, Expr.listText_listBare arguments]
  | .compare left comparison right =>
      by rw [bare, text, text, left.text_bare, right.text_bare]
  | .ternary condition yes no => by
      rw [bare, text, text, condition.text_bare, yes.text_bare, no.text_bare]
  | .cast type value => by rw [bare, text, text, value.text_bare]
  | .new type arguments =>
      by rw [bare, text, text, Expr.listText_listBare arguments]
  | .newArray elementType size => by rw [bare, text, text, size.text_bare]
  | .index array position =>
      by rw [bare, text, text, array.text_bare, position.text_bare]

theorem Expr.listText_listBare : (es : List Expr) →
    Expr.listText (Expr.listBare es) = Expr.listText es
  | [] => rfl
  | [e] => e.text_bare
  | e :: next :: rest => by
      have later := Expr.listText_listBare (next :: rest)
      rw [listBare] at later
      rw [listBare, listBare, listText, listText, e.text_bare, later]
end

/-- What an expression starts with. -/
inductive Head where
  /-- A literal, a variable or a class. -/
  | word (text : String)
  | invoke (method : String) (arguments : List Expr)
  | compare (left : Expr) (comparison : Comparison) (right : Expr)
  | ternary (condition yes no : Expr)
  | cast (type : String) (value : Expr)
  | new (type : String) (arguments : List Expr)
  | newArray (elementType : String) (size : Expr)

/-- What is taken of an expression. -/
inductive Suffix where
  | field (name : String)
  | call (method : String) (arguments : List Expr)
  | index (position : Expr)

namespace Expr

def head : Expr → Head
  | .literal text => .word text
  | .var v => .word v.name
  | .classRef name => .word name
  | .field target _ => target.head
  | .invoke method arguments => .invoke method arguments
  | .call target _ _ => target.head
  | .compare left comparison right => .compare left comparison right
  | .ternary condition yes no => .ternary condition yes no
  | .cast type value => .cast type value
  | .new type arguments => .new type arguments
  | .newArray elementType size => .newArray elementType size
  | .index array _ => array.head

def suffixes : Expr → List Suffix
  | .field target name => target.suffixes ++ [.field name]
  | .call target method arguments => target.suffixes ++ [.call method arguments]
  | .index array position => array.suffixes ++ [.index position]
  | _ => []

def chars (e : Expr) : List Char := e.text.toList

def listChars (es : List Expr) : List Char := (listText es).toList

end Expr

namespace Head

def bare : Head → Expr
  | word text => .literal text
  | invoke method arguments => .invoke method (Expr.listBare arguments)
  | compare left comparison right => .compare left.bare comparison right.bare
  | ternary condition yes no => .ternary condition.bare yes.bare no.bare
  | cast type value => .cast type value.bare
  | new type arguments => .new type (Expr.listBare arguments)
  | newArray elementType size => .newArray elementType size.bare

/-- The word that the text of a head starts with, if it does not start
with a bracket. -/
def opening : Head → String
  | word text => text
  | invoke method _ => method
  | compare _ _ _ | ternary _ _ _ | cast _ _ => ""
  | new _ _ | newArray _ _ => "new"

/-- What stands behind the opening of a head that is followed by `rest`. -/
def behind (rest : List Char) : Head → List Char
  | word _ => rest
  | invoke _ arguments => '(' :: (Expr.listChars arguments ++ ')' :: rest)
  | compare left comparison right =>
      '(' :: (left.chars ++
        ' ' :: (comparison.text.toList ++ ' ' :: (right.chars ++ ')' :: rest)))
  | ternary condition yes no =>
      '(' :: '(' ::
        (condition.chars ++ ')' :: ' ' :: '?' :: ' ' :: '(' :: (yes.chars ++
          ')' :: ' ' :: ':' :: ' ' :: '(' :: (no.chars ++ ')' :: ')' :: rest)))
  | cast type value =>
      '(' :: '(' :: (type.toList ++ ')' :: ' ' :: (value.chars ++ ')' :: rest))
  | new type arguments =>
      ' ' :: (type.toList ++ '(' :: (Expr.listChars arguments ++ ')' :: rest))
  | newArray elementType size =>
      ' ' :: (elementType.toList ++ '[' :: (size.chars ++ ']' :: rest))

def parts : Head → List Expr
  | word _ => []
  | invoke _ arguments | new _ arguments => arguments
  | compare left _ right => [left, right]
  | ternary condition yes no => [condition, yes, no]
  | cast _ value => [value]
  | newArray _ size => [size]

/-- The names that a head has besides those of its parts. -/
def words : Head → List String
  | word name | invoke name _ => [name]
  | compare _ _ _ | ternary _ _ _ | cast _ _ | new _ _ | newArray _ _ => []

def types : Head → List String
  | cast type _ | new type _ | newArray type _ => [type]
  | word _ | invoke _ _ | compare _ _ _ | ternary _ _ _ => []

end Head

namespace Suffix

/-- A suffix of an expression, with literals for the leaves that
the suffix has. -/
def bareOn (target : Expr) : Suffix → Expr
  | field name => .field target name
  | call method arguments => .call target method (Expr.listBare arguments)
  | index position => .index target position.bare

/-- The text of a suffix that is followed by `rest`. -/
def before : Suffix → List Char → List Char
  | field name, rest => '.' :: (name.toList ++ rest)
  | call method arguments, rest =>
      '.' :: (method.toList ++ '(' :: (Expr.listChars arguments ++ ')' :: rest))
  | index position, rest => '[' :: (position.chars ++ ']' :: rest)

def parts : Suffix → List Expr
  | field _ => []
  | call _ arguments => arguments
  | index position => [position]

def words : Suffix → List String
  | field name | call name _ => [name]
  | index _ => []

end Suffix

namespace Expr

theorem chars_append : (e : Expr) → ∀ rest, e.chars ++ rest =
    e.head.opening.toList ++ e.head.behind (e.suffixes.foldr Suffix.before rest)
  | .field target name, rest => by
      have inner := chars_append target ('.' :: (name.toList ++ rest))
      simpa [chars, text, head, suffixes, Suffix.before] using inner
  | .call target method arguments, rest => by
      have inner := chars_append target
        ('.' :: (method.toList ++ '(' :: (listChars arguments ++ ')' :: rest)))
      simpa [chars, listChars, text, head, suffixes, Suffix.before] using inner
  | .index array position, rest => by
      have inner := chars_append array ('[' :: (position.chars ++ ']' :: rest))
      simpa [chars, text, head, suffixes, Suffix.before] using inner
  | .literal _, rest | .var _, rest | .classRef _, rest | .invoke _ _, rest
      | .compare _ _ _, rest
  | .ternary _ _ _, rest | .cast _ _, rest | .new _ _, rest
      | .newArray _ _, rest => by
      simp [chars, listChars, text, head, suffixes, Head.opening, Head.behind]

theorem bare_eq_foldl :
    (e : Expr) → e.bare = e.suffixes.foldl Suffix.bareOn e.head.bare
  | .field target name =>
      by simp [bare, head, suffixes, Suffix.bareOn, bare_eq_foldl target]
  | .call target method arguments => by
      simp [bare, head, suffixes, Suffix.bareOn, bare_eq_foldl target]
  | .index array position =>
      by simp [bare, head, suffixes, Suffix.bareOn, bare_eq_foldl array]
  | .literal _ | .var _ | .classRef _ | .invoke _ _ | .compare _ _ _
      | .ternary _ _ _ | .cast _ _
  | .new _ _ | .newArray _ _ => rfl

def parts (e : Expr) :
    List Expr := e.head.parts ++ e.suffixes.flatMap Suffix.parts

theorem listSize_append (first second : List Expr) :
    listSize (first ++ second) = listSize first + listSize second := by
  induction first with
  | nil => simp [listSize]
  | cons e rest induction => simp [listSize, induction, Nat.add_assoc]

theorem listSize_parts :
    (e : Expr) → listSize e.parts + e.suffixes.length + 1 = e.size
  | .field target name => by
      have inner := listSize_parts target
      simp only [parts, head, suffixes, List.flatMap_append, listSize_append,
        List.length_append, List.flatMap_singleton, List.length_singleton,
        Suffix.parts, listSize, size] at inner ⊢
      omega
  | .call target method arguments => by
      have inner := listSize_parts target
      simp only [parts, head, suffixes, List.flatMap_append, listSize_append,
        List.length_append, List.flatMap_singleton, List.length_singleton,
        Suffix.parts, size] at inner ⊢
      omega
  | .index array position => by
      have inner := listSize_parts array
      simp only [parts, head, suffixes, List.flatMap_append, listSize_append,
        List.length_append, List.flatMap_singleton, List.length_singleton,
        Suffix.parts, listSize, size] at inner ⊢
      omega
  | .literal _ | .var _ | .classRef _ | .invoke _ _ | .new _ _ => by
      simp [parts, head, suffixes, Head.parts, listSize, size]
  | .compare _ _ _ | .ternary _ _ _ | .cast _ _ | .newArray _ _ => by
      simp [parts, head, suffixes, Head.parts, listSize, size, Nat.add_assoc]

theorem size_le_listSize {es : List Expr} {e : Expr} (listed : e ∈ es) :
    e.size ≤ listSize es := by
  obtain ⟨before, after, rfl⟩ := List.append_of_mem listed
  rw [listSize_append, listSize]
  omega

theorem size_lt_of_mem_parts {e part : Expr} (inside : part ∈ e.parts) :
    part.size < e.size := by
  have bound := size_le_listSize inside
  rw [← listSize_parts e]
  omega

theorem listNames_append (first second : List Expr) :
    listNames (first ++ second) = listNames first ++ listNames second := by
  induction first with
  | nil => rfl
  | cons e rest induction => simp [listNames, induction]

theorem listTypes_append (first second : List Expr) :
    listTypes (first ++ second) = listTypes first ++ listTypes second := by
  induction first with
  | nil => rfl
  | cons e rest induction => simp [listTypes, induction]

theorem mem_names {s : String} : (e : Expr) → (s ∈ e.names ↔ s ∈ e.head.words ∨
    s ∈ e.suffixes.flatMap Suffix.words ∨ s ∈ listNames e.parts)
  | .field target name => by
      simp [names, mem_names target, parts, head, suffixes, Suffix.parts,
        Suffix.words, or_comm, or_left_comm]
  | .call target method arguments => by
      simp [names, mem_names target, parts, head, suffixes, Suffix.parts,
        Suffix.words, listNames_append, or_comm, or_left_comm, or_assoc]
  | .index array position => by
      simp [names, mem_names array, parts, head, suffixes, Suffix.parts,
        Suffix.words, listNames, listNames_append, or_assoc]
  | .literal _ | .var _ | .classRef _ | .invoke _ _ | .new _ _ | .compare _ _ _
      | .ternary _ _ _
  | .cast _ _ | .newArray _ _ => by
      simp [names, parts, head, suffixes, Head.parts, Head.words, listNames]

theorem mem_types {s : String} : (e : Expr) → (s ∈ e.types ↔
    s ∈ e.head.types ∨ s ∈ listTypes e.parts)
  | .field target name => by
      simp [types, mem_types target, parts, head, suffixes, Suffix.parts]
  | .call target method arguments => by
      simp [types, mem_types target, parts, head, suffixes, Suffix.parts,
        listTypes_append, or_assoc]
  | .index array position => by
      simp [types, mem_types array, parts, head, suffixes, Suffix.parts,
        listTypes, listTypes_append, or_assoc]
  | .literal _ | .var _ | .classRef _ | .invoke _ _ | .new _ _ | .compare _ _ _
      | .ternary _ _ _
  | .cast _ _ | .newArray _ _ => by
      simp [types, parts, head, suffixes, Head.parts, Head.types, listTypes]

end Expr

end BinderIdl.Java
