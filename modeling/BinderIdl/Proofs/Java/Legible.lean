import BinderIdl.Proofs.Java.Spine
import BinderIdl.Proofs.Text.Stretch

namespace BinderIdl.Java

/-- A character that is none of the signs between the names of an expression. -/
def WordChar (c : Char) : Prop := c ∉ [' ', '.', ',', '(', ')', '[', ']', '?']

def TypeChar (c : Char) : Prop := c ∉ [' ', '(', ')', '[', ']']

instance :
    DecidablePred WordChar := fun c => inferInstanceAs (Decidable (c ∉ _))

instance :
    DecidablePred TypeChar := fun c => inferInstanceAs (Decidable (c ∉ _))

theorem WordChar.typeChar {c : Char} (word : WordChar c) : TypeChar c := by
  simp only [WordChar, TypeChar, List.mem_cons, List.not_mem_nil,
    not_or] at word ⊢
  simp [word]

/-- A name without any of these signs, such as one of letters, digits and
underscores. -/
def IsWord (s : String) : Prop := s.toList ≠ [] ∧ ∀ c ∈ s.toList, WordChar c

/-- A type may be qualified and have arguments, but it has no blanks. -/
def IsTypeText (s : String) : Prop := s.toList ≠ [] ∧ ∀ c ∈ s.toList, TypeChar c

-- The characters of the string are tried, and not all characters
-- that there are.
instance : DecidablePred IsWord := fun s =>
  @instDecidableAnd _ _ inferInstance (List.decidableBAll _ s.toList)

instance : DecidablePred IsTypeText := fun s =>
  @instDecidableAnd _ _ inferInstance (List.decidableBAll _ s.toList)

variable {s t : String} {rest more : List Char}

theorem IsWord.typeChar (word : IsWord s) : ∀ c ∈ s.toList, TypeChar c :=
  fun c listed => (word.2 c listed).typeChar

theorem IsWord.append_inj (word : IsWord s) (otherWord : IsWord t)
    (sign : ∀ c ∈ rest.head?, ¬ WordChar c)
    (otherSign : ∀ c ∈ more.head?, ¬ WordChar c)
    (same : s.toList ++ rest = t.toList ++ more) : s = t ∧ rest = more :=
  (Text.stretch_inj word.2 otherWord.2 sign otherSign same).imp_left
    String.toList_inj.mp

theorem IsTypeText.append_inj (typed : IsTypeText s) (otherTyped : IsTypeText t)
    (sign : ∀ c ∈ rest.head?, ¬ TypeChar c)
    (otherSign : ∀ c ∈ more.head?, ¬ TypeChar c)
    (same : s.toList ++ rest = t.toList ++ more) : s = t ∧ rest = more :=
  (Text.stretch_inj typed.2 otherTyped.2 sign otherSign same).imp_left
    String.toList_inj.mp

theorem not_wordChar_bracket : ∀ c ∈ ('(' :: rest).head?, ¬ WordChar c := by
  simp [WordChar]

theorem IsWord.append_ne {c : Char} (word : IsWord s) (sign : ¬ WordChar c) :
    s.toList ++ rest ≠ c :: more := by
  obtain ⟨d, ds, spelled⟩ := List.exists_cons_of_ne_nil word.1
  rw [spelled]
  rintro same
  cases same
  exact sign (word.2 c (by rw [spelled]; exact List.mem_cons_self))

theorem isWord_new : IsWord "new" := by decide

/-- An expression whose names are words and whose types are types. -/
structure Expr.Legible (e : Expr) : Prop where
  names : ∀ s ∈ e.names, IsWord s
  types : ∀ s ∈ e.types, IsTypeText s

structure Head.Legible (head : Head) : Prop where
  words : ∀ s ∈ head.words, IsWord s
  types : ∀ s ∈ head.types, IsTypeText s
  parts : ∀ part ∈ head.parts, part.Legible

structure Suffix.Legible (suffix : Suffix) : Prop where
  words : ∀ s ∈ suffix.words, IsWord s
  parts : ∀ part ∈ suffix.parts, part.Legible

namespace Expr

variable {e f : Expr}

theorem legible_of_list {es : List Expr} (names : ∀ s ∈ listNames es, IsWord s)
    (types : ∀ s ∈ listTypes es, IsTypeText s) : ∀ e ∈ es, e.Legible := by
  intro e listed
  obtain ⟨before, after, rfl⟩ := List.append_of_mem listed
  rw [listNames_append, listNames, List.forall_mem_append,
    List.forall_mem_append] at names
  rw [listTypes_append, listTypes, List.forall_mem_append,
    List.forall_mem_append] at types
  exact ⟨names.2.1, types.2.1⟩

theorem Legible.parts (legible : e.Legible) : ∀ part ∈ e.parts, part.Legible :=
  legible_of_list
    (fun s listed => legible.names s (e.mem_names.mpr (.inr (.inr listed))))
    (fun s listed => legible.types s (e.mem_types.mpr (.inr listed)))

theorem Legible.head (legible : e.Legible) : e.head.Legible where
  words s listed := legible.names s (e.mem_names.mpr (.inl listed))
  types s listed := legible.types s (e.mem_types.mpr (.inl listed))
  parts part inside := legible.parts part (List.mem_append_left _ inside)

theorem Legible.suffixes (legible : e.Legible) :
    ∀ suffix ∈ e.suffixes, suffix.Legible :=
  fun suffix listed =>
    { words := fun s inside => legible.names s
        (e.mem_names.mpr
          (.inr (.inl (List.mem_flatMap.mpr ⟨suffix, listed, inside⟩))))
      parts := fun part inside => legible.parts part
        (List.mem_append_right _
          (List.mem_flatMap.mpr ⟨suffix, listed, inside⟩)) }

end Expr

/-- What may stand behind an expression that belongs to a larger one. -/
inductive Ends : List Char → Prop where
  | nil : Ends []
  | closing (rest : List Char) : Ends (')' :: rest)
  | position (rest : List Char) : Ends (']' :: rest)
  | comma (rest : List Char) : Ends (',' :: rest)
  | comparison (comparison : Comparison) (rest : List Char) :
      Ends (' ' :: (comparison.text.toList ++ ' ' :: rest))

/-- What may stand behind the head of an expression, or behind one of
its suffixes. -/
inductive Follows : List Char → Prop where
  | ends {rest : List Char} : Ends rest → Follows rest
  | member (rest : List Char) : Follows ('.' :: rest)
  | position (rest : List Char) : Follows ('[' :: rest)

theorem Comparison.typeChar (comparison : Comparison) :
    ∀ c ∈ comparison.text.toList, TypeChar c := by
  cases comparison <;> simp [text, TypeChar]

theorem Comparison.append_inj {comparison other : Comparison}
    (same : comparison.text.toList ++ ' ' :: rest =
      other.text.toList ++ ' ' :: more) :
    comparison = other ∧ rest = more := by
  obtain ⟨texts, ends⟩ := Text.stretch_inj comparison.typeChar other.typeChar
    (by simp [TypeChar]) (by simp [TypeChar]) same
  refine ⟨?_, (List.cons.inj ends).2⟩
  cases comparison <;> cases other <;>
    first | rfl | exact absurd texts (by decide)

namespace Follows

theorem not_wordChar (follows : Follows rest) :
    ∀ c ∈ rest.head?, ¬ WordChar c := by
  rcases follows with ⟨_ | _ | _ | _ | _⟩ | _ | _ <;> simp [WordChar]

theorem ne_arguments (follows : Follows rest) : rest ≠ '(' :: more := by
  rcases follows with ⟨_ | _ | _ | _ | _⟩ | _ | _ <;> simp

/-- A comparison behind the word "new" is no type, since a blank comes
after its sign. -/
theorem ne_type (follows : Follows rest) {type : List Char}
    (typed : ∀ c ∈ type, TypeChar c) {bracket : Char}
    (sign : ¬ TypeChar bracket) (notBlank : bracket ≠ ' ') :
    rest ≠ ' ' :: (type ++ bracket :: more) := by
  rcases follows with ⟨_ | _ | _ | _ | ⟨comparison, later⟩⟩ | _ | _
  case ends.comparison =>
    intro same
    have ends :=
      (Text.stretch_inj comparison.typeChar typed (by simp [TypeChar])
        (by simpa using sign) (List.cons.inj same).2).2
    exact notBlank (List.cons.inj ends).1.symm
  all_goals simp

theorem foldr (suffixes : List Suffix) (ends : Ends rest) :
    Follows (suffixes.foldr Suffix.before rest) := by
  cases suffixes with
  | nil => exact .ends ends
  | cons suffix later =>
      cases suffix with
      | field name => exact .member _
      | call method arguments => exact .member _
      | index position => exact .position _

end Follows

namespace Head

/-- A head that starts with a word. -/
inductive Named : Head → Prop where
  | word (text : String) : Named (.word text)
  | invoke (method : String) (arguments : List Expr) :
      Named (.invoke method arguments)
  | new (type : String) (arguments : List Expr) : Named (.new type arguments)
  | newArray (elementType : String) (size : Expr) :
      Named (.newArray elementType size)

/-- A head that starts with a bracket. -/
inductive Bracketed : Head → Prop where
  | compare (left : Expr) (comparison : Comparison) (right : Expr) :
      Bracketed (.compare left comparison right)
  | ternary (condition yes no : Expr) : Bracketed (.ternary condition yes no)
  | cast (type : String) (value : Expr) : Bracketed (.cast type value)

theorem Legible.opening {head : Head} (legible : head.Legible) :
    head.Named ∧ IsWord head.opening ∨ head.Bracketed := by
  cases head with
  | word name => exact .inl ⟨.word name, legible.words name List.mem_cons_self⟩
  | invoke method arguments =>
      exact .inl ⟨.invoke method arguments,
        legible.words method List.mem_cons_self⟩
  | new type arguments => exact .inl ⟨.new type arguments, isWord_new⟩
  | newArray elementType size =>
      exact .inl ⟨.newArray elementType size, isWord_new⟩
  | compare left comparison right => exact .inr (.compare left comparison right)
  | ternary condition yes no => exact .inr (.ternary condition yes no)
  | cast type value => exact .inr (.cast type value)

/-- What stands behind the opening of a head is no part of a word. -/
theorem behind_not_wordChar (head : Head) (follows : Follows rest) :
    ∀ c ∈ (head.behind rest).head?, ¬ WordChar c := by
  cases head
  case word => exact follows.not_wordChar
  all_goals simp [behind, WordChar]

end Head

/-- A text in which the first sign, if there is one, closes nothing. -/
inductive OpensFirst : List Char → Prop where
  | nil : OpensFirst []
  | char {c : Char} {rest : List Char} : TypeChar c →
      OpensFirst rest → OpensFirst (c :: rest)
  | sign {c : Char} (rest : List Char) : ¬ TypeChar c →
      c ≠ ')' → OpensFirst (c :: rest)

namespace OpensFirst

theorem append {first : List Char} (typed : ∀ c ∈ first, TypeChar c)
    (opens : OpensFirst rest) :
    OpensFirst (first ++ rest) := by
  induction first with
  | nil => exact opens
  | cons c later induction =>
      obtain ⟨here, typed⟩ := List.forall_mem_cons.mp typed
      exact .char here (induction typed)

/-- A type before a closing bracket is all of a text that closes nothing. -/
theorem eq_type {chars type : List Char} (opens : OpensFirst chars)
    (typed : ∀ c ∈ type, TypeChar c) {sign : Char} (notChar : ¬ TypeChar sign)
    (same : chars ++ sign :: rest = type ++ ')' :: more) :
    sign :: rest = ')' :: more := by
  induction opens generalizing type with
  | nil =>
      exact (Text.stretch_inj (List.forall_mem_nil _) typed
          (by simpa using notChar) (by simp [TypeChar]) same).2
  | char here opens induction =>
      cases type with
      | nil =>
          cases same
          exact absurd here (by decide)
      | cons d type =>
          exact induction (List.forall_mem_cons.mp typed).2
            (List.cons.inj same).2
  | sign text here notClosing =>
      cases type with
      | nil => exact absurd (List.cons.inj same).1 notClosing
      | cons d type =>
          obtain ⟨rfl, _⟩ := List.cons.inj same
          exact absurd (List.forall_mem_cons.mp typed).1 here

theorem foldr {suffixes : List Suffix}
    (legible : ∀ suffix ∈ suffixes, suffix.Legible) :
    OpensFirst (suffixes.foldr Suffix.before []) := by
  induction suffixes with
  | nil => exact .nil
  | cons suffix later induction =>
      obtain ⟨here, others⟩ := List.forall_mem_cons.mp legible
      cases suffix with
      | field name =>
          have word : IsWord name := here.words name List.mem_cons_self
          exact .char (by decide) (.append word.typeChar (induction others))
      | call method arguments =>
          have word : IsWord method := here.words method List.mem_cons_self
          exact .char (by decide)
            (.append word.typeChar (.sign _ (by decide) (by decide)))
      | index position => exact .sign _ (by decide) (by decide)

theorem behind (head : Head) (opens : OpensFirst rest) :
    OpensFirst (head.behind rest) := by
  cases head
  case word => exact opens
  all_goals exact .sign _ (by decide) (by decide)

end OpensFirst

namespace Expr

variable {e f : Expr}

theorem Legible.opens (legible : e.Legible) : OpensFirst e.chars := by
  rw [← List.append_nil e.chars, chars_append]
  have behind := OpensFirst.behind e.head (.foldr legible.suffixes)
  rcases legible.head.opening with ⟨_, word⟩ | bracketed
  · exact .append word.typeChar behind
  · generalize e.head = head at bracketed behind
    cases bracketed <;> exact behind

theorem Legible.append_ne (legible : e.Legible) {sign : Char}
    (notChar : ¬ WordChar sign) (notBracket : sign ≠ '(') :
    e.chars ++ rest ≠ sign :: more := by
  rw [chars_append]
  rcases legible.head.opening with ⟨_, word⟩ | bracketed
  · exact word.append_ne notChar
  · generalize e.head = head at bracketed
    cases bracketed <;> exact fun same => notBracket (List.cons.inj same).1.symm

/-- An expression is not a type in brackets with something more in brackets
around it. -/
theorem Legible.ne_type (legible : e.Legible) {type : List Char}
    (typed : ∀ c ∈ type, TypeChar c) :
    e.chars ++ rest ≠ '(' :: (type ++ ')' :: more) := by
  rw [chars_append]
  have twice (later : List Char) : '(' :: later ≠ type ++ ')' :: more := by
    intro same
    have ends :=
      (Text.stretch_inj (List.forall_mem_nil _) typed (by simp [TypeChar])
        (by simp [TypeChar]) same).2
    cases ends
  rcases legible.head.opening with ⟨_, word⟩ | bracketed
  · exact word.append_ne (by decide)
  · have parts := legible.head.parts
    generalize e.head = head at bracketed parts
    intro same
    cases bracketed with
    | compare left comparison right =>
        have opens := (parts left List.mem_cons_self).opens
        cases opens.eq_type typed (by decide) (List.cons.inj same).2
    | ternary condition yes no => exact twice _ (List.cons.inj same).2
    | cast type value => exact twice _ (List.cons.inj same).2

/-- Behind a condition stands a question mark, behind a type an expression. -/
theorem Legible.ne_cast (legible : e.Legible) (otherLegible : f.Legible)
    {type : List Char} (typed : ∀ c ∈ type, TypeChar c) :
    e.chars ++ ')' :: ' ' :: '?' :: rest ≠
      type ++ ')' :: ' ' :: (f.chars ++ more) := by
  intro same
  have behind := legible.opens.eq_type typed (by decide) same
  exact otherLegible.append_ne (by decide) (by decide)
    (List.cons.inj (List.cons.inj behind).2).2.symm

end Expr

end BinderIdl.Java
