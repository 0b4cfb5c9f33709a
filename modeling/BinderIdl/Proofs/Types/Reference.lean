import BinderIdl.Proofs.Text.Stretch
import BinderIdl.Types.Reference
import Mathlib.Data.List.TakeWhile

/-! Which texts are read as which references. Brackets and commas only separate,
so a text without any is one name, and names without any can be told apart again
after they were joined. -/

namespace BinderIdl.Types

/-- What a name is not made of, so that it can stand inside a reference. -/
def IsSeparator (c : Char) : Prop := c = '<' ∨ c = '>' ∨ c = ','

instance : DecidablePred IsSeparator := fun c =>
  inferInstanceAs (Decidable (c = '<' ∨ c = '>' ∨ c = ','))

/-- A name that a reference can spell. -/
def Spellable (name : List Char) :
    Prop := name ≠ [] ∧ ∀ c ∈ name, ¬ IsSeparator c

-- The characters of the name are tried, and not all characters that there are.
instance : DecidablePred Spellable := fun name =>
  @instDecidableAnd _ _ inferInstance (List.decidableBAll _ name)

/-- What is read as the part in front of the arguments. It ends at the
first bracket. -/
def IsBase (base : List Char) : Prop := base ≠ [] ∧ '<' ∉ base

theorem spellable_iff_isBase {name : List Char} :
    Spellable name ↔ IsBase name ∧ '>' ∉ name ∧ ',' ∉ name := by
  constructor
  · rintro ⟨nonempty, free⟩
    exact ⟨⟨nonempty, fun listed => free _ listed (.inl rfl)⟩,
      fun listed => free _ listed (.inr (.inl rfl)),
      fun listed => free _ listed (.inr (.inr rfl))⟩
  · rintro ⟨⟨nonempty, noOpening⟩, noClosing, noComma⟩
    refine ⟨nonempty, ?_⟩
    rintro c listed (rfl | rfl | rfl)
    · exact noOpening listed
    · exact noClosing listed
    · exact noComma listed

theorem Spellable.isBase {name : List Char} (spelled : Spellable name) :
    IsBase name :=
  (spellable_iff_isBase.mp spelled).1

namespace Reference

variable {text inner : List Char}

theorem takeWhile_ne_of_not_mem (free : '<' ∉ text) (rest : List Char) :
    (text ++ '<' :: rest).takeWhile (· != '<') = text ∧
      (text ++ '<' :: rest).dropWhile (· != '<') = '<' :: rest := by
  have passes : ∀ c ∈ text, (c != '<') = true := by
    intro c listed
    exact bne_iff_ne.mpr fun same => free (same ▸ listed)
  constructor
  · rw [List.takeWhile_append_of_pos passes,
      List.takeWhile_cons_of_neg (by simp), List.append_nil]
  · rw [List.dropWhile_append_of_pos passes,
      List.dropWhile_cons_of_neg (by simp)]

theorem pieces_of_not_mem (free : ',' ∉ text) : pieces text = [text] := by
  induction text with
  | nil => rfl
  | cons c rest induction =>
      rw [List.mem_cons, not_or] at free
      rw [pieces, if_neg fun same => free.1 same.symm, induction free.2]

theorem pieces_append (free : ',' ∉ text) (rest : List Char) :
    pieces (text ++ ',' :: rest) = text :: pieces rest := by
  induction text with
  | nil => simp [pieces]
  | cons c more induction =>
      rw [List.mem_cons, not_or] at free
      rw [List.cons_append, pieces, if_neg fun same => free.1 same.symm,
        induction free.2]

theorem pieces_join {names : List (List Char)} (some : names ≠ [])
    (free : ∀ name ∈ names, ',' ∉ name) : pieces (join names) = names := by
  induction names with
  | nil => exact absurd rfl some
  | cons name rest induction =>
      have first := free name List.mem_cons_self
      cases rest with
      | nil => exact pieces_of_not_mem first
      | cons next more =>
          rw [join, pieces_append first,
            induction (List.cons_ne_nil next more) fun other listed =>
              free other (List.mem_cons_of_mem name listed)]

theorem comma_not_mem_of_mem_pieces {piece : List Char}
    (listed : piece ∈ pieces text) :
    ',' ∉ piece := by
  induction text generalizing piece with
  | nil => simp_all [pieces]
  | cons c rest induction =>
      rw [pieces] at listed
      split at listed
      · rcases List.mem_cons.mp listed with rfl | later
        · exact List.not_mem_nil
        · exact induction later
      · next other =>
          cases known : pieces rest with
          | nil => exact absurd known (pieces_ne_nil rest)
          | cons first more =>
              rw [known] at induction listed
              rcases List.mem_cons.mp listed with rfl | later
              · exact List.not_mem_cons_of_ne_of_not_mem (Ne.symm other)
                  (induction List.mem_cons_self)
              · exact induction (List.mem_cons_of_mem _ later)

theorem mem_of_mem_join {c : Char} {names : List (List Char)}
    (listed : c ∈ join names) :
    c = ',' ∨ ∃ name ∈ names, c ∈ name := by
  induction names with
  | nil => cases listed
  | cons name rest induction =>
      cases rest with
      | nil => exact .inr ⟨name, List.mem_singleton.mpr rfl, listed⟩
      | cons next more =>
          simp only [join, List.mem_append, List.mem_cons] at listed
          rcases listed with here | rfl | there
          · exact .inr ⟨name, List.mem_cons_self, here⟩
          · exact .inl rfl
          · rcases induction there with comma | ⟨other, member, inside⟩
            · exact .inl comma
            · exact .inr ⟨other, List.mem_cons_of_mem name member, inside⟩

theorem mem_join_of_mem {c : Char} {names : List (List Char)} {name : List Char}
    (member : name ∈ names) (inside : c ∈ name) : c ∈ join names := by
  induction names with
  | nil => cases member
  | cons first rest induction =>
      cases rest with
      | nil => exact List.mem_singleton.mp member ▸ inside
      | cons next more =>
          rw [join, List.mem_append, List.mem_cons]
          rcases List.mem_cons.mp member with rfl | later
          · exact .inl inside
          · exact .inr (.inr (induction later))

theorem join_ne_nil {arguments : List String} (some : arguments ≠ [])
    (spelled : ∀ name ∈ arguments, Spellable name.toList) :
    join (arguments.map String.toList) ≠ [] := by
  obtain ⟨first, rest, rfl⟩ := List.exists_cons_of_ne_nil some
  obtain ⟨c, inside⟩ :=
    List.exists_mem_of_ne_nil _ (spelled first List.mem_cons_self).1
  exact List.ne_nil_of_mem
    (mem_join_of_mem (List.mem_map_of_mem List.mem_cons_self) inside)

variable {whole base : List Char} {reference : Reference}

theorem beforeClosing?_append (inner : List Char) :
    beforeClosing? (inner ++ ['>']) = some inner := by
  simp [beforeClosing?]

theorem beforeClosing?_eq_some_iff :
    beforeClosing? text = some inner ↔ text = inner ++ ['>'] := by
  constructor
  · intro closed
    unfold beforeClosing? at closed
    split at closed
    · next last =>
        obtain ⟨before, rfl⟩ := List.getLast?_eq_some_iff.mp last
        rw [← Option.some.inj closed, List.dropLast_concat]
    · cases closed
  · rintro rfl
    exact beforeClosing?_append inner

theorem splitArguments_join {arguments : List String} (nonempty : base ≠ [])
    (some : arguments ≠ [])
    (spelled : ∀ name ∈ arguments, Spellable name.toList) :
    splitArguments whole base (join (arguments.map String.toList) ++ ['>']) =
      .ok (.generic (String.ofList base) arguments) := by
  have joined : pieces (join (arguments.map String.toList)) =
      arguments.map String.toList := by
    refine pieces_join (by simpa using some) fun name listed => ?_
    obtain ⟨argument, member, rfl⟩ := List.mem_map.mp listed
    exact fun comma => (spelled argument member).2 _ comma (.inr (.inr rfl))
  have inside :
      ∀ c ∈ join (arguments.map String.toList), c ≠ '<' ∧ c ≠ '>' := by
    intro c listed
    rcases mem_of_mem_join listed with rfl | ⟨name, member, here⟩
    · decide
    · obtain ⟨argument, known, rfl⟩ := List.mem_map.mp member
      have free := (spelled argument known).2 c here
      exact ⟨fun same => free (.inl same), fun same => free (.inr (.inl same))⟩
  have noOpening : '<' ∉ join (arguments.map String.toList) := fun listed =>
    (inside _ listed).1 rfl
  have noClosing : '>' ∉ join (arguments.map String.toList) := fun listed =>
    (inside _ listed).2 rfl
  have full : (arguments.map String.toList).any List.isEmpty = false := by
    simp only [List.any_map, List.any_eq_false, Function.comp_apply,
      List.isEmpty_iff]
    exact fun name listed => (spelled name listed).1
  have back : (arguments.map String.toList).map String.ofList = arguments := by
    simp [Function.comp_def]
  simp only [splitArguments, beforeClosing?_append, joined, full, back]
  simp [nonempty, join_ne_nil some spelled, noOpening, noClosing]

theorem splitArguments_eq_ok
    (read : splitArguments whole base text = .ok reference) :
    base ≠ [] ∧
    ∃ arguments, reference = .generic (String.ofList base) arguments ∧
      arguments ≠ [] ∧ (∀ name ∈ arguments, Spellable name.toList) ∧
      text = join (arguments.map String.toList) ++ ['>'] := by
  unfold splitArguments at read
  split at read
  · cases read
  · next inner closed =>
      split at read
      · cases read
      · next filled =>
          split at read
          · cases read
          · next flat =>
              split at read
              · cases read
              · next full =>
                  simp only [Bool.or_eq_true, not_or,
                    List.isEmpty_iff] at filled
                  simp only [Bool.or_eq_true, not_or,
                    List.contains_iff_mem] at flat
                  simp only [List.any_eq_true, List.isEmpty_iff, not_exists,
                    not_and] at full
                  refine ⟨filled.1, (pieces inner).map String.ofList,
                    (Except.ok.inj read).symm, ?_, ?_, ?_⟩
                  · simpa using pieces_ne_nil inner
                  · intro name listed
                    obtain ⟨piece, member, rfl⟩ := List.mem_map.mp listed
                    have inside {c : Char} (here : c ∈ piece) : c ∈ inner :=
                      join_pieces inner ▸ mem_join_of_mem member here
                    rw [String.toList_ofList]
                    exact spellable_iff_isBase.mpr ⟨⟨full piece member,
                      fun here => flat.1 (inside here)⟩,
                      fun here => flat.2 (inside here),
                      comma_not_mem_of_mem_pieces member⟩
                  · rw [List.map_map, String.toList_comp_ofList, List.map_id,
                      join_pieces]
                    exact beforeClosing?_eq_some_iff.mp closed

theorem split_of_not_mem (free : '<' ∉ text) :
    split text = if Spellable text then .ok (.plain (String.ofList text))
      else .error (.malformed (String.ofList text)) := by
  have dropped : text.dropWhile (· != '<') = [] :=
    List.dropWhile_eq_nil_iff.mpr fun c listed =>
      bne_iff_ne.mpr fun same => free (same ▸ listed)
  unfold split
  rw [dropped]
  by_cases spelled : Spellable text
  · obtain ⟨⟨nonempty, _⟩, noClosing, noComma⟩ :=
      spellable_iff_isBase.mp spelled
    simp [spelled, nonempty, noClosing, noComma]
  · rw [if_neg spelled]
    rw [spellable_iff_isBase, IsBase] at spelled
    refine if_pos ?_
    simp only [Bool.or_eq_true, List.isEmpty_iff, List.contains_iff_mem]
    by_contra allowed
    simp only [not_or] at allowed
    exact spelled ⟨⟨allowed.1.1, free⟩, allowed.1.2, allowed.2⟩

/-- A text with brackets is taken apart at the first one. -/
theorem split_append (free : '<' ∉ base) (rest : List Char) :
    split (base ++ '<' :: rest) =
      splitArguments (base ++ '<' :: rest) base rest := by
  obtain ⟨taken, dropped⟩ := takeWhile_ne_of_not_mem free rest
  unfold split
  rw [taken, dropped]

theorem split_of_spellable (name : Spellable text) :
    split text = .ok (.plain (String.ofList text)) := by
  rw [split_of_not_mem name.isBase.2, if_pos name]

/-- What was read is a name alone, or a base with names in
brackets behind it. -/
theorem split_eq_ok (read : split text = .ok reference) :
    reference = .plain (String.ofList text) ∧ Spellable text ∨
    ∃ base arguments, reference = .generic base arguments ∧ IsBase base.toList ∧
      arguments ≠ [] ∧ (∀ name ∈ arguments, Spellable name.toList) ∧
      text = (generic base arguments).text := by
  by_cases listed : '<' ∈ text
  · obtain ⟨base, rest, rfl, free⟩ := List.eq_append_cons_of_mem listed
    rw [split_append free] at read
    obtain ⟨nonempty, arguments, rfl, some, spelled, rfl⟩ :=
      splitArguments_eq_ok read
    refine .inr ⟨String.ofList base, arguments, rfl, ?_, some, spelled, ?_⟩
    · rw [String.toList_ofList]
      exact ⟨nonempty, free⟩
    · rw [Reference.text, String.toList_ofList]
  · rw [split_of_not_mem listed] at read
    split at read
    · next spelled => exact .inl ⟨(Except.ok.inj read).symm, spelled⟩
    · cases read

theorem spellable_of_split_eq_plain {name : String}
    (read : split text = .ok (.plain name)) :
    name = String.ofList text ∧ Spellable text := by
  rcases split_eq_ok read with ⟨same, spelled⟩ | ⟨_, _, other, _⟩
  · exact ⟨Reference.plain.inj same, spelled⟩
  · cases other

theorem opening_not_mem_of_split_eq_plain {name : String}
    (read : split text = .ok (.plain name)) : '<' ∉ name.toList := by
  obtain ⟨rfl, spelled⟩ := spellable_of_split_eq_plain read
  rw [String.toList_ofList]
  exact spelled.isBase.2

theorem split_generic {base : String} {arguments : List String}
    (some : arguments ≠ []) (isBase : IsBase base.toList)
    (spelled : ∀ name ∈ arguments, Spellable name.toList) :
    split (generic base arguments).text = .ok (.generic base arguments) := by
  rw [Reference.text, split_append isBase.2,
    splitArguments_join isBase.1 some spelled, String.ofList_toList]

theorem opening_not_mem_of_split_eq_generic {base : String}
    {arguments : List String}
    (read : split text = .ok (.generic base arguments)) :
    ∀ name ∈ arguments, '<' ∉ name.toList := by
  rcases split_eq_ok read with ⟨other, _⟩ | ⟨_, _, same, _, _, spelled, _⟩
  · cases other
  · cases same
    exact fun name listed => (spelled name listed).isBase.2

theorem append_opening_inj {base other rest more : List Char}
    (free : '<' ∉ base) (otherFree : '<' ∉ other)
    (same : base ++ '<' :: rest = other ++ '<' :: more) :
    base = other ∧ rest = more := by
  obtain ⟨bases, rests⟩ :=
    Text.stretch_inj (p := (· ≠ '<'))
      (fun _ listed => ne_of_mem_of_not_mem listed free)
      (fun _ listed => ne_of_mem_of_not_mem listed otherFree) (by simp)
      (by simp) same
  exact ⟨bases, (List.cons.inj rests).2⟩

theorem generic_text_inj {base other : String} {arguments others : List String}
    (free : '<' ∉ base.toList) (otherFree : '<' ∉ other.toList)
    (same : (generic base arguments).text = (generic other others).text) :
    base = other ∧
    join (arguments.map String.toList) = join (others.map String.toList) := by
  obtain ⟨bases, inner⟩ := append_opening_inj free otherFree same
  exact ⟨String.toList_inj.mp bases, List.append_cancel_right inner⟩

/-- As many names as are known can be told apart after they were joined. -/
theorem join_inj {names others : List (List Char)}
    (lengths : names.length = others.length) (free : ∀ name ∈ names, ',' ∉ name)
    (otherFree : ∀ name ∈ others, ',' ∉ name)
    (same : join names = join others) : names = others := by
  cases names with
  | nil => exact (List.eq_nil_of_length_eq_zero lengths.symm).symm
  | cons first rest =>
      obtain ⟨second, more, rfl⟩ :=
        List.exists_cons_of_length_eq_add_one lengths.symm
      rw [← pieces_join (List.cons_ne_nil first rest) free, same,
        pieces_join (List.cons_ne_nil second more) otherFree]

theorem split_nested {base : String} {arguments : List String}
    (isBase : IsBase base.toList) {name : String} (member : name ∈ arguments)
    (nested : '<' ∈ name.toList) :
    split (generic base arguments).text = .error (.nestedGeneric
      (String.ofList (generic base arguments).text)) := by
  have inside : '<' ∈ join (arguments.map String.toList) :=
    mem_join_of_mem (List.mem_map_of_mem member) nested
  rw [Reference.text, split_append isBase.2]
  simp only [splitArguments, beforeClosing?_append]
  simp [isBase.1, List.ne_nil_of_mem inside, inside]

end Reference

end BinderIdl.Types
