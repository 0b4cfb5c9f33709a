import BinderIdl.Proofs.Types.Reference
import BinderIdl.Types.BuiltIn
import BinderIdl.Types.Lookup

namespace BinderIdl.Types.Reference

variable {whole base other inner rest text : List Char} {error : LookupError}

/-- The references that there are texts for. -/
def Readable : Reference → Prop
  | plain name => Spellable name.toList
  | generic base arguments =>
      IsBase base.toList ∧
        arguments ≠ [] ∧ ∀ name ∈ arguments, Spellable name.toList

/-- A text is nested if more brackets stand between its first one and the one
that ends it. -/
def IsNested (text : List Char) : Prop :=
  ∃ base inner, IsBase base ∧
    text = base ++ '<' :: (inner ++ ['>']) ∧ ('<' ∈ inner ∨ '>' ∈ inner)

theorem not_isNested_of_not_mem (free : '<' ∉ text) : ¬ IsNested text := by
  rintro ⟨base, inner, _, rfl, _⟩
  exact free (List.mem_append_right _ List.mem_cons_self)

theorem isNested_append_iff (free : '<' ∉ base) :
    IsNested (base ++ '<' :: rest) ↔ base ≠ [] ∧
      ∃ inner, rest = inner ++ ['>'] ∧ ('<' ∈ inner ∨ '>' ∈ inner) := by
  constructor
  · rintro ⟨other, inner, isBase, same, nested⟩
    obtain ⟨rfl, rfl⟩ := append_opening_inj free isBase.2 same
    exact ⟨isBase.1, inner, rfl, nested⟩
  · rintro ⟨nonempty, inner, rfl, nested⟩
    exact ⟨base, inner, ⟨nonempty, free⟩, rfl, nested⟩

theorem split_eq_ok_iff {reference : Reference} :
    split text = .ok reference ↔
      reference.Readable ∧ text = reference.text := by
  constructor
  · intro read
    rcases split_eq_ok read with
      ⟨rfl, spelled⟩ | ⟨base, arguments, rfl, isBase, some, spelled, same⟩
    · exact ⟨by rwa [Readable, String.toList_ofList], String.toList_ofList.symm⟩
    · exact ⟨⟨isBase, some, spelled⟩, same⟩
  · rintro ⟨readable, rfl⟩
    cases reference with
    | plain name =>
        rw [Reference.text, split_of_spellable readable, String.ofList_toList]
    | generic base arguments =>
        exact split_generic readable.2.1 readable.1 readable.2.2

theorem splitArguments_eq_error
    (refused : splitArguments whole base text = .error error) :
    let nested :=
      base ≠ [] ∧ ∃ inner, text = inner ++ ['>'] ∧ ('<' ∈ inner ∨ '>' ∈ inner)
    error = .nestedGeneric (String.ofList whole) ∧ nested ∨
      error = .malformed (String.ofList whole) ∧ ¬ nested := by
  intro nested
  unfold splitArguments at refused
  split at refused
  · next unclosed =>
      refine .inr ⟨(Except.error.inj refused).symm, ?_⟩
      rintro ⟨_, inner, rfl, _⟩
      rw [beforeClosing?_append] at unclosed
      cases unclosed
  · next inner closed =>
      have ends := beforeClosing?_eq_some_iff.mp closed
      have only {other : List Char} (same : text = other ++ ['>']) :
          other = inner :=
        List.append_cancel_right (same.symm.trans ends)
      split at refused
      · next lacking =>
          refine .inr ⟨(Except.error.inj refused).symm, ?_⟩
          rintro ⟨nonempty, other, same, bracket⟩
          cases only same
          simp only [Bool.or_eq_true, List.isEmpty_iff] at lacking
          rcases lacking with rfl | rfl
          · exact nonempty rfl
          · simp at bracket
      · next filled =>
          simp only [Bool.or_eq_true, not_or, List.isEmpty_iff] at filled
          split at refused
          · next bracket =>
              simp only [Bool.or_eq_true, List.contains_iff_mem] at bracket
              exact .inl ⟨(Except.error.inj refused).symm, filled.1, inner,
                ends, bracket⟩
          · next flat =>
              simp only [Bool.or_eq_true, List.contains_iff_mem] at flat
              split at refused
              · refine .inr ⟨(Except.error.inj refused).symm, ?_⟩
                rintro ⟨_, other, same, bracket⟩
                exact flat (only same ▸ bracket)
              · cases refused

/-- A text that cannot be read is nested or malformed, and never both. -/
theorem split_eq_error (refused : split text = .error error) :
    error = .nestedGeneric (String.ofList text) ∧ IsNested text ∨
      error = .malformed (String.ofList text) ∧ ¬ IsNested text := by
  by_cases listed : '<' ∈ text
  · obtain ⟨base, rest, rfl, free⟩ := List.eq_append_cons_of_mem listed
    rw [split_append free] at refused
    rw [isNested_append_iff free]
    exact splitArguments_eq_error refused
  · rw [split_of_not_mem listed] at refused
    split at refused
    · cases refused
    · exact .inr ⟨(Except.error.inj refused).symm,
        not_isNested_of_not_mem listed⟩

theorem split_eq_error_iff :
    split text = .error error ↔
      (∀ reference : Reference, reference.Readable → text ≠ reference.text) ∧
        (error = .nestedGeneric (String.ofList text) ∧ IsNested text ∨
          error = .malformed (String.ofList text) ∧ ¬ IsNested text) := by
  constructor
  · intro refused
    refine ⟨fun reference readable same => ?_, split_eq_error refused⟩
    have read := split_eq_ok_iff.mpr ⟨readable, same⟩
    rw [refused] at read
    cases read
  · rintro ⟨unreadable, reason⟩
    cases read : split text with
    | ok reference =>
        obtain ⟨readable, same⟩ := split_eq_ok_iff.mp read
        exact absurd same (unreadable reference readable)
    | error known =>
        rcases split_eq_error read with ⟨rfl, nested⟩ | ⟨rfl, flat⟩
        · rcases reason with ⟨rfl, _⟩ | ⟨_, flat⟩
          · rfl
          · exact absurd nested flat
        · rcases reason with ⟨_, nested⟩ | ⟨rfl, _⟩
          · exact absurd nested flat
          · rfl

/-- A text is read as a name iff it is one, and with arguments iff it is a base,
an opening bracket, names with commas between them, and a closing bracket. Every
other text is refused: as nested if more brackets stand in those that end it,
and otherwise as malformed. Writing what was read gives the text again. The base
may be any text without an opening bracket. -/
theorem split_accepts_grammar (text : List Char) :
    (∀ name,
      split text = .ok (.plain name) ↔ text = name.toList ∧ Spellable text) ∧
    (∀ base arguments, split text = .ok (.generic base arguments) ↔
      base.toList ≠ [] ∧ '<' ∉ base.toList ∧
      arguments ≠ [] ∧ (∀ name ∈ arguments, Spellable name.toList) ∧ text =
        base.toList ++ '<' :: (join (arguments.map String.toList) ++ ['>'])) ∧
    (∀ error, split text = .error error ↔
      (∀ reference : Reference, reference.Readable → text ≠ reference.text) ∧
        (error = .nestedGeneric (String.ofList text) ∧ IsNested text ∨
          error = .malformed (String.ofList text) ∧ ¬ IsNested text)) ∧
    ∀ reference, split text = .ok reference → reference.text = text := by
  refine ⟨fun name => ?_, fun base arguments => ?_, fun _ => split_eq_error_iff,
    fun reference read => (split_eq_ok_iff.mp read).2.symm⟩
  · rw [split_eq_ok_iff, Readable, Reference.text]
    constructor
    · rintro ⟨spelled, rfl⟩
      exact ⟨rfl, spelled⟩
    · rintro ⟨rfl, spelled⟩
      exact ⟨spelled, rfl⟩
  · rw [split_eq_ok_iff, Readable, IsBase, Reference.text]
    simp only [and_assoc]

/-- A base with a comma is no name, but it is read; looked up, it is an unknown
template where the text should be malformed, and it is found if there is a
template that is called so. -/
theorem comma_in_base_is_read_pairs :
    let text := "Map,List<String>".toList
    split text = .ok (.generic "Map,List" ["String"]) ∧
      ¬ Spellable "Map,List".toList ∧
      split "Map,List".toList = .error (.malformed "Map,List") ∧
      (Registry.standard.resolve "Map,List<String>").map Prod.fst =
        .error (.unknown "Map,List") ∧
      ((Registry.standard.registerTemplate ⟨"", "Map,List", 1⟩).toOption.map
        fun r => (r.resolve "Map,List<String>").map Prod.fst) =
          some (.ok ⟨24⟩) := by
  decide +kernel

end BinderIdl.Types.Reference
