import BinderIdl.Proofs.Java.Legible

/-! The text of an expression can be read in one way only. What stands behind an
expression shows where it ends, its first characters show what its head is, and
no expression looks like another one in brackets. -/

namespace BinderIdl.Java

variable {rest more : List Char}

namespace Expr

variable {e f : Expr}

/-- Two expressions whose texts can be told apart: what follows shows where they
end, and none is the other one in brackets. -/
structure Told (e f : Expr) : Prop where
  reads {rest more : List Char} : Ends rest → Ends more →
    e.chars ++ rest = f.chars ++ more → e.bare = f.bare ∧ rest = more
  apart {rest more : List Char} : Ends rest →
    e.chars ++ rest ≠ '(' :: (f.chars ++ ')' :: more)
  otherApart {rest more : List Char} : Ends rest →
    f.chars ++ rest ≠ '(' :: (e.chars ++ ')' :: more)

/-- What stands behind the first argument of a call that is
followed by `rest`. -/
def furtherChars (rest : List Char) (arguments : List Expr) : List Char :=
  arguments.foldr
    (fun e later => ',' :: ' ' :: (e.chars ++ later)) (')' :: rest)

theorem listChars_cons (e : Expr) (arguments : List Expr) (rest : List Char) :
    listChars (e :: arguments) ++ ')' :: rest =
      e.chars ++ furtherChars rest arguments := by
  induction arguments generalizing e with
  | nil => rfl
  | cons next arguments induction =>
      have later := induction next
      simp only [listChars, chars, listText, furtherChars, String.toList_append,
        List.foldr_cons, List.append_assoc] at later ⊢
      rw [later]
      rfl

theorem ends_furtherChars (arguments : List Expr) :
    Ends (furtherChars rest arguments) := by
  cases arguments with
  | nil => exact .closing rest
  | cons => exact .comma _

theorem furtherChars_inj {arguments others : List Expr}
    (told : ∀ e ∈ arguments, ∀ f ∈ others, e.Told f)
    (same : furtherChars rest arguments = furtherChars more others) :
    listBare arguments = listBare others ∧ rest = more := by
  induction arguments generalizing others with
  | nil =>
      cases others with
      | nil => exact ⟨rfl, (List.cons.inj same).2⟩
      | cons => cases same
  | cons e arguments induction =>
      cases others with
      | nil => cases same
      | cons f others =>
          obtain ⟨bare, later⟩ :=
            (told e List.mem_cons_self f List.mem_cons_self).reads
              (ends_furtherChars arguments) (ends_furtherChars others)
              (List.cons.inj (List.cons.inj same).2).2
          obtain ⟨listBare, ends⟩ := induction
            (fun e listed f otherListed =>
              told e (List.mem_cons_of_mem _ listed)
                f (List.mem_cons_of_mem _ otherListed))
            later
          exact ⟨by rw [Expr.listBare, Expr.listBare, bare, listBare], ends⟩

theorem listChars_inj {arguments others : List Expr}
    (legible : ∀ e ∈ arguments, e.Legible)
    (otherLegible : ∀ e ∈ others, e.Legible)
    (told : ∀ e ∈ arguments, ∀ f ∈ others, e.Told f)
    (same : listChars arguments ++ ')' :: rest =
      listChars others ++ ')' :: more) :
    listBare arguments = listBare others ∧ rest = more := by
  match arguments, others with
  | [], [] => exact ⟨rfl, (List.cons.inj same).2⟩
  | e :: arguments, [] =>
      rw [listChars_cons] at same
      exact absurd same
        ((legible e List.mem_cons_self).append_ne (by decide) (by decide))
  | [], f :: others =>
      rw [listChars_cons] at same
      exact absurd same.symm
        ((otherLegible f List.mem_cons_self).append_ne (by decide) (by decide))
  | e :: arguments, f :: others =>
      rw [listChars_cons, listChars_cons] at same
      exact furtherChars_inj told (congrArg (',' :: ' ' :: ·) same)

theorem Legible.apart (legible : e.Legible) (otherLegible : f.Legible)
    (told : ∀ part ∈ e.head.parts, part.Told f) :
    e.chars ++ rest ≠ '(' :: (f.chars ++ ')' :: more) := by
  rw [chars_append]
  rcases legible.head.opening with ⟨_, word⟩ | bracketed
  · exact word.append_ne (by decide)
  · have typed := legible.head.types
    generalize e.head = head at bracketed told typed
    intro same
    cases bracketed with
    | compare left comparison right =>
        have ends :=
          ((told left List.mem_cons_self).reads (.comparison comparison _)
            (.closing _) (List.cons.inj same).2).2
        cases ends
    | ternary condition yes no =>
        exact (told condition List.mem_cons_self).otherApart (.closing _)
          (List.cons.inj same).2.symm
    | cast type value =>
        exact otherLegible.ne_type (typed type List.mem_cons_self).2
          (List.cons.inj same).2.symm

end Expr

namespace Suffix

theorem before_inj {suffix other : Suffix} (legible : suffix.Legible)
    (otherLegible : other.Legible)
    (told : ∀ e ∈ suffix.parts, ∀ f ∈ other.parts, e.Told f)
    (follows : Follows rest) (otherFollows : Follows more)
    (same : suffix.before rest = other.before more) :
    (∀ target, suffix.bareOn target = other.bareOn target) ∧ rest = more := by
  match suffix, other with
  | field name, field otherName =>
      obtain ⟨rfl, ends⟩ := (legible.words name List.mem_cons_self).append_inj
        (otherLegible.words otherName List.mem_cons_self) follows.not_wordChar
        otherFollows.not_wordChar (List.cons.inj same).2
      exact ⟨fun _ => rfl, ends⟩
  | field name, call method arguments =>
      obtain ⟨_, bracket⟩ := (legible.words name List.mem_cons_self).append_inj
        (otherLegible.words method List.mem_cons_self) follows.not_wordChar
        not_wordChar_bracket (List.cons.inj same).2
      exact absurd bracket follows.ne_arguments
  | call method arguments, field name =>
      obtain ⟨_, bracket⟩ :=
        (legible.words method List.mem_cons_self).append_inj
          (otherLegible.words name List.mem_cons_self) not_wordChar_bracket
          otherFollows.not_wordChar (List.cons.inj same).2
      exact absurd bracket.symm otherFollows.ne_arguments
  | call method arguments, call otherMethod others =>
      obtain ⟨rfl, later⟩ :=
        (legible.words method List.mem_cons_self).append_inj
          (otherLegible.words otherMethod List.mem_cons_self)
          not_wordChar_bracket not_wordChar_bracket (List.cons.inj same).2
      obtain ⟨bare, ends⟩ :
          Expr.listBare arguments = Expr.listBare others ∧ rest = more :=
        Expr.listChars_inj legible.parts otherLegible.parts told
          (List.cons.inj later).2
      exact ⟨fun target => by rw [bareOn, bareOn, bare], ends⟩
  | index position, index otherPosition =>
      obtain ⟨bare, ends⟩ :=
        (told position List.mem_cons_self otherPosition
          List.mem_cons_self).reads (.position _) (.position _)
          (List.cons.inj same).2
      exact ⟨fun target => by rw [bareOn, bareOn, bare], (List.cons.inj ends).2⟩
  | field _, index _ | call _ _, index _ | index _, field _
      | index _, call _ _ =>
      cases same

theorem ne_before (suffix : Suffix) (ends : Ends rest) :
    rest ≠ suffix.before more := by
  cases ends <;> cases suffix <;> simp [before]

theorem foldr_before_inj {suffixes others : List Suffix}
    (legible : ∀ suffix ∈ suffixes, suffix.Legible)
    (otherLegible : ∀ other ∈ others, other.Legible)
    (told : ∀ e ∈ suffixes.flatMap parts, ∀ f ∈ others.flatMap parts, e.Told f)
    (ends : Ends rest) (otherEnds : Ends more)
    (same : suffixes.foldr before rest = others.foldr before more) :
    (∀ target, suffixes.foldl bareOn target = others.foldl bareOn target) ∧
    rest = more := by
  induction suffixes generalizing others with
  | nil =>
      cases others with
      | nil => exact ⟨fun _ => rfl, same⟩
      | cons other others => exact absurd same (other.ne_before ends)
  | cons suffix suffixes induction =>
      cases others with
      | nil => exact absurd same.symm (suffix.ne_before otherEnds)
      | cons other others =>
          obtain ⟨here, legible⟩ := List.forall_mem_cons.mp legible
          obtain ⟨otherHere, otherLegible⟩ :=
            List.forall_mem_cons.mp otherLegible
          rw [List.flatMap_cons, List.flatMap_cons] at told
          obtain ⟨first, later⟩ :=
            before_inj here otherHere
              (fun e inside f otherInside =>
                told e (List.mem_append_left _ inside) f
                  (List.mem_append_left _ otherInside))
              (.foldr _ ends) (.foldr _ otherEnds) same
          obtain ⟨others, same⟩ :=
            induction legible otherLegible
              (fun e inside f otherInside =>
                told e (List.mem_append_right _ inside) f
                  (List.mem_append_right _ otherInside)) later
          exact ⟨fun target =>
            by rw [List.foldl_cons, List.foldl_cons, first, others], same⟩

end Suffix

namespace Head

variable {head other : Head}

theorem not_typeChar_bracket : ∀ c ∈ ('(' :: rest).head?, ¬ TypeChar c := by
  simp [TypeChar]

theorem not_typeChar_position : ∀ c ∈ ('[' :: rest).head?, ¬ TypeChar c := by
  simp [TypeChar]

theorem invoke_inj {method : String} {arguments others : List Expr}
    (legible : (invoke method arguments).Legible)
    (otherLegible : (invoke method others).Legible)
    (told : ∀ e ∈ arguments, ∀ f ∈ others, e.Told f)
    (same : (invoke method arguments).behind rest =
      (invoke method others).behind more) :
    (invoke method arguments).bare = (invoke method others).bare ∧
    rest = more := by
  obtain ⟨bare, ends⟩ :=
    Expr.listChars_inj legible.parts otherLegible.parts told
      (List.cons.inj same).2
  exact ⟨congrArg (Expr.invoke method) bare, ends⟩

theorem new_inj {type otherType : String} {arguments others : List Expr}
    (legible : (new type arguments).Legible)
    (otherLegible : (new otherType others).Legible)
    (told : ∀ e ∈ arguments, ∀ f ∈ others, e.Told f)
    (same : (new type arguments).behind rest =
      (new otherType others).behind more) :
    (new type arguments).bare = (new otherType others).bare ∧ rest = more := by
  obtain ⟨rfl, later⟩ :=
    (legible.types type List.mem_cons_self).append_inj
      (otherLegible.types otherType List.mem_cons_self) not_typeChar_bracket
      not_typeChar_bracket (List.cons.inj same).2
  obtain ⟨bare, ends⟩ :=
    Expr.listChars_inj legible.parts otherLegible.parts told
      (List.cons.inj later).2
  exact ⟨congrArg (Expr.new type) bare, ends⟩

theorem newArray_inj {type otherType : String} {size otherSize : Expr}
    (legible : (newArray type size).Legible)
    (otherLegible : (newArray otherType otherSize).Legible)
    (told : size.Told otherSize)
    (same : (newArray type size).behind rest =
      (newArray otherType otherSize).behind more) :
    (newArray type size).bare = (newArray otherType otherSize).bare ∧
    rest = more := by
  obtain ⟨rfl, later⟩ :=
    (legible.types type List.mem_cons_self).append_inj
      (otherLegible.types otherType List.mem_cons_self) not_typeChar_position
      not_typeChar_position (List.cons.inj same).2
  obtain ⟨bare, ends⟩ :=
    told.reads (.position _) (.position _) (List.cons.inj later).2
  exact ⟨congrArg (Expr.newArray type) bare, (List.cons.inj ends).2⟩

theorem compare_inj {left otherLeft right otherRight : Expr}
    {comparison other : Comparison} (told : left.Told otherLeft)
    (rightTold : right.Told otherRight)
    (same : (compare left comparison right).behind rest =
      (compare otherLeft other otherRight).behind more) :
    (compare left comparison right).bare =
      (compare otherLeft other otherRight).bare ∧ rest = more := by
  obtain ⟨leftBare, behind⟩ := told.reads (.comparison comparison _)
    (.comparison other _) (List.cons.inj same).2
  obtain ⟨rfl, later⟩ := Comparison.append_inj (List.cons.inj behind).2
  obtain ⟨rightBare, ends⟩ := rightTold.reads (.closing _) (.closing _) later
  exact ⟨by rw [bare, bare, leftBare, rightBare], (List.cons.inj ends).2⟩

theorem ternary_inj {condition otherCondition yes otherYes no otherNo : Expr}
    (told : condition.Told otherCondition) (yesTold : yes.Told otherYes)
    (noTold : no.Told otherNo)
    (same : (ternary condition yes no).behind rest =
      (ternary otherCondition otherYes otherNo).behind more) :
    (ternary condition yes no).bare =
      (ternary otherCondition otherYes otherNo).bare ∧ rest = more := by
  -- Two brackets stand in front of the condition, and five characters in front
  -- of each branch.
  obtain ⟨conditionBare, behindCondition⟩ :=
    told.reads (.closing _) (.closing _) (congrArg (List.drop 2) same)
  obtain ⟨yesBare, behindYes⟩ :=
    yesTold.reads (.closing _) (.closing _)
      (congrArg (List.drop 5) behindCondition)
  obtain ⟨noBare, ends⟩ :=
    noTold.reads (.closing _) (.closing _) (congrArg (List.drop 5) behindYes)
  exact ⟨by rw [bare, bare, conditionBare, yesBare, noBare],
    congrArg (List.drop 2) ends⟩

theorem cast_inj {type otherType : String} {value otherValue : Expr}
    (legible : (cast type value).Legible)
    (otherLegible : (cast otherType otherValue).Legible)
    (told : value.Told otherValue)
    (same : (cast type value).behind rest =
      (cast otherType otherValue).behind more) :
    (cast type value).bare = (cast otherType otherValue).bare ∧
    rest = more := by
  obtain ⟨rfl, later⟩ :=
    (legible.types type List.mem_cons_self).append_inj
      (otherLegible.types otherType List.mem_cons_self) (by simp [TypeChar])
      (by simp [TypeChar]) (congrArg (List.drop 2) same)
  obtain ⟨bare, ends⟩ :=
    told.reads (.closing _) (.closing _) (congrArg (List.drop 2) later)
  exact ⟨congrArg (Expr.cast type) bare, (List.cons.inj ends).2⟩

theorem Named.behind_inj (named : head.Named) (otherNamed : other.Named)
    (legible : head.Legible) (otherLegible : other.Legible)
    (told : ∀ e ∈ head.parts, ∀ f ∈ other.parts, e.Told f)
    (follows : Follows rest) (otherFollows : Follows more)
    (opening : head.opening = other.opening)
    (same : head.behind rest = other.behind more) :
    head.bare = other.bare ∧ rest = more := by
  cases named with
  | word name =>
      cases otherNamed with
      | word otherName => exact ⟨congrArg Expr.literal opening, same⟩
      | invoke method others => exact absurd same follows.ne_arguments
      -- The name may be "new" itself.
      | new type others =>
          exact absurd same
            (follows.ne_type (otherLegible.types type List.mem_cons_self).2
              (by decide) (by decide))
      | newArray type size =>
          exact absurd same
            (follows.ne_type (otherLegible.types type List.mem_cons_self).2
              (by decide) (by decide))
  | invoke method arguments =>
      cases otherNamed with
      | word otherName => exact absurd same.symm otherFollows.ne_arguments
      | invoke otherMethod others =>
          cases opening
          exact invoke_inj legible otherLegible told same
      | new | newArray => cases same
  | new type arguments =>
      have typed := legible.types type List.mem_cons_self
      cases otherNamed with
      | word otherName =>
          exact absurd same.symm
            (otherFollows.ne_type typed.2 (by decide) (by decide))
      | invoke => cases same
      | new otherType others => exact new_inj legible otherLegible told same
      | newArray otherType size =>
          cases
            (typed.append_inj (otherLegible.types otherType List.mem_cons_self)
              not_typeChar_bracket not_typeChar_position
              (List.cons.inj same).2).2
  | newArray type size =>
      have typed := legible.types type List.mem_cons_self
      cases otherNamed with
      | word otherName =>
          exact absurd same.symm
            (otherFollows.ne_type typed.2 (by decide) (by decide))
      | invoke => cases same
      | new otherType others =>
          cases
            (typed.append_inj (otherLegible.types otherType List.mem_cons_self)
              not_typeChar_position not_typeChar_bracket
              (List.cons.inj same).2).2
      | newArray otherType otherSize =>
          exact newArray_inj legible otherLegible
            (told size List.mem_cons_self otherSize List.mem_cons_self) same

theorem Bracketed.behind_inj (bracketed : head.Bracketed)
    (otherBracketed : other.Bracketed) (legible : head.Legible)
    (otherLegible : other.Legible)
    (told : ∀ e ∈ head.parts, ∀ f ∈ other.parts, e.Told f)
    (same : head.behind rest = other.behind more) :
    head.bare = other.bare ∧ rest = more := by
  have inner := congrArg (List.drop 1) same
  cases bracketed with
  | compare left comparison right =>
      cases otherBracketed with
      | compare otherLeft otherComparison otherRight =>
          exact compare_inj
            (told left (by simp [parts]) otherLeft (by simp [parts]))
            (told right (by simp [parts]) otherRight (by simp [parts])) same
      | ternary condition yes no =>
          exact absurd inner ((told left List.mem_cons_self condition
              List.mem_cons_self).apart (.comparison comparison _))
      | cast type value =>
          exact absurd inner ((legible.parts left List.mem_cons_self).ne_type
            (otherLegible.types type List.mem_cons_self).2)
  | ternary condition yes no =>
      cases otherBracketed with
      | compare left comparison right =>
          exact absurd inner.symm ((told condition List.mem_cons_self left
            List.mem_cons_self).otherApart (.comparison comparison _))
      | ternary otherCondition otherYes otherNo =>
          exact ternary_inj
            (told condition (by simp [parts]) otherCondition (by simp [parts]))
            (told yes (by simp [parts]) otherYes (by simp [parts]))
            (told no (by simp [parts]) otherNo (by simp [parts])) same
      | cast type value =>
          exact absurd (congrArg (List.drop 1) inner)
            ((legible.parts condition List.mem_cons_self).ne_cast
              (otherLegible.parts value List.mem_cons_self)
              (otherLegible.types type List.mem_cons_self).2)
  | cast type value =>
      have typed := legible.types type List.mem_cons_self
      cases otherBracketed with
      | compare left comparison right =>
          exact absurd inner.symm
            ((otherLegible.parts left List.mem_cons_self).ne_type typed.2)
      | ternary condition yes no =>
          exact absurd (congrArg (List.drop 1) inner).symm
            ((otherLegible.parts condition List.mem_cons_self).ne_cast
              (legible.parts value List.mem_cons_self) typed.2)
      | cast otherType otherValue =>
          exact cast_inj legible otherLegible
            (told value List.mem_cons_self otherValue List.mem_cons_self) same

theorem append_behind_inj (legible : head.Legible)
    (otherLegible : other.Legible)
    (told : ∀ e ∈ head.parts, ∀ f ∈ other.parts, e.Told f)
    (follows : Follows rest) (otherFollows : Follows more)
    (same : head.opening.toList ++ head.behind rest =
      other.opening.toList ++ other.behind more) :
    head.bare = other.bare ∧ rest = more := by
  -- A bracket is no part of a word, so both heads have a word in front of it or
  -- none has.
  rcases legible.opening with ⟨named, word⟩ | bracketed <;>
    rcases otherLegible.opening with ⟨otherNamed, otherWord⟩ | otherBracketed
  · obtain ⟨opening, behind⟩ :=
      word.append_inj otherWord (head.behind_not_wordChar follows)
        (other.behind_not_wordChar otherFollows) same
    exact named.behind_inj otherNamed legible otherLegible told follows
      otherFollows opening behind
  · cases otherBracketed <;> exact absurd same (word.append_ne (by decide))
  · cases bracketed <;> exact absurd same.symm (otherWord.append_ne (by decide))
  · have behind : head.behind rest = other.behind more := by
      cases bracketed <;> cases otherBracketed <;> exact same
    exact bracketed.behind_inj otherBracketed legible otherLegible told behind

end Head

namespace Expr

variable {e f : Expr}

theorem reads_of_parts (legible : e.Legible) (otherLegible : f.Legible)
    (told : ∀ part ∈ e.parts, ∀ other ∈ f.parts, part.Told other)
    (ends : Ends rest) (otherEnds : Ends more)
    (same : e.chars ++ rest = f.chars ++ more) :
    e.bare = f.bare ∧ rest = more := by
  rw [chars_append, chars_append] at same
  obtain ⟨head, later⟩ :=
    Head.append_behind_inj legible.head otherLegible.head
      (fun part inside other otherInside =>
        told part (List.mem_append_left _ inside) other
          (List.mem_append_left _ otherInside))
      (.foldr _ ends) (.foldr _ otherEnds) same
  obtain ⟨suffixes, ends⟩ :=
    Suffix.foldr_before_inj legible.suffixes otherLegible.suffixes
      (fun part inside other otherInside =>
        told part (List.mem_append_right _ inside) other
          (List.mem_append_right _ otherInside)) ends otherEnds later
  exact ⟨by rw [bare_eq_foldl, bare_eq_foldl f, head, suffixes], ends⟩

/-- Legible expressions are told apart, since their parts are. The recursion is
on both sizes together: whether one of them is the other one in brackets depends
on its parts and on all of the other one. -/
theorem Legible.told {e f : Expr} (legible : e.Legible)
    (otherLegible : f.Legible) : e.Told f :=
  { reads :=
    reads_of_parts legible otherLegible fun part inside other otherInside =>
      (legible.parts part inside).told (otherLegible.parts other otherInside)
    apart := fun _ => legible.apart otherLegible fun part inside =>
      (legible.head.parts part inside).told otherLegible
    otherApart := fun _ => otherLegible.apart legible fun other inside =>
      (otherLegible.head.parts other inside).told legible }
termination_by e.size + f.size
decreasing_by
  · have smaller := size_lt_of_mem_parts inside
    have otherSmaller := size_lt_of_mem_parts otherInside
    omega
  · have smaller := size_lt_of_mem_parts (List.mem_append_left _ inside)
    omega
  · have smaller := size_lt_of_mem_parts (List.mem_append_left _ inside)
    omega

/-- Expressions have the same text if and only if they are the same up to the
kinds of their leaves, provided that all names are words and that no type has
blanks or brackets. -/
theorem text_eq_iff (legible : e.Legible) (otherLegible : f.Legible) :
    e.text = f.text ↔ e.bare = f.bare := by
  constructor
  · intro same
    have chars : e.chars ++ [] = f.chars ++ [] := by rw [chars, chars, same]
    exact ((legible.told otherLegible).reads .nil .nil chars).1
  · intro bare
    rw [← text_bare e, bare, text_bare f]

/-- A condition, a cast and an element of a new array, once with variables and
once with literals and a class for leaves. -/
theorem text_eq_iff_leaves :
    let first : Expr :=
      .ternary (Variable.isNull ⟨"java.util.List<String>", "names"⟩)
        (.cast "java.util.Map<String,android.os.IBinder>"
          (.call (.var ⟨"android.os.Parcel", "reply"⟩) "readHashMap"
            [.literal "loader", .literal "1"]))
        (.index (.newArray "Object" (.literal "1")) (.literal "0"))
    let second : Expr :=
      .ternary (.compare (.literal "names") .eq (.classRef "null"))
        (.cast "java.util.Map<String,android.os.IBinder>"
          (.call (.classRef "reply") "readHashMap"
            [.var ⟨"ClassLoader", "loader"⟩, .literal "1"]))
        (.index (.newArray "Object" (.var ⟨"int", "1"⟩)) (.literal "0"))
    first.Legible ∧ second.Legible ∧ first.vars ≠ second.vars ∧
    first.text = second.text ∧ first.bare = second.bare := by
  intro first second
  have legible : first.Legible := ⟨by decide +kernel, by decide +kernel⟩
  have otherLegible : second.Legible := ⟨by decide +kernel, by decide +kernel⟩
  have same : first.text = second.text := by decide +kernel
  exact ⟨legible, otherLegible, by decide +kernel, same,
    (text_eq_iff legible otherLegible).mp same⟩

end Expr

end BinderIdl.Java
