import BinderIdl.Proofs.Java.Value

/-! How running code changes the heap. New cells stand behind the old ones; a
cell may get another content, but stays what it is. -/

namespace BinderIdl.Java

/-- The content of a cell may change, the class of a record and the length of an
array may not. -/
inductive Cell.SameKind : Cell → Cell → Prop where
  | same (c : Cell) : SameKind c c
  | container (old new : List Datum) :
      SameKind (.data (.collection old)) (.data (.collection new))
  | record (type old new : String) :
      SameKind (.data (.record type old)) (.data (.record type new))
  | array {old new : List Value} : old.length = new.length →
      SameKind (.array old) (.array new)

theorem Cell.SameKind.trans {first second third : Cell}
    (before : first.SameKind second) (after : second.SameKind third) :
    first.SameKind third := by
  cases before with
  | same => exact after
  | container old middle =>
      cases after with
      | same => exact .container old middle
      | container _ new => exact .container old new
  | record type old middle =>
      cases after with
      | same => exact .record type old middle
      | record _ _ new => exact .record type old new
  | array lengths =>
      cases after with
      | same => exact .array lengths
      | array more => exact .array (lengths.trans more)

namespace Heap

variable {h h' h'' : Heap} {a : Nat} {c c' : Cell}

/-- Cells were added, and one cell has got the given content. -/
def Updated (h : Heap) (a : Nat) (c : Cell) (h' : Heap) : Prop :=
  ∃ more, h' = (h ++ more).set a c

theorem updated_set (h : Heap) (a : Nat) (c : Cell) :
    h.Updated a c (h.set a c) :=
  ⟨[], by rw [List.append_nil]⟩

theorem getElem?_append_of_eq_some (known : h[a]? = some c) (more : List Cell) :
    (h ++ more)[a]? = some c :=
  cell?_append (x := .ref a) known more

theorem Updated.self (updated : h.Updated a c h') (bound : a < h.length) :
    h'[a]? = some c := by
  obtain ⟨more, rfl⟩ := updated
  apply List.getElem?_set_self
  rw [List.length_append]
  omega

theorem Updated.other (updated : h.Updated a c h') {b : Nat} (apart : b ≠ a)
    (known : h[b]? = some c') : h'[b]? = some c' := by
  obtain ⟨more, rfl⟩ := updated
  rw [List.getElem?_set_ne apart.symm]
  exact getElem?_append_of_eq_some known more

theorem Updated.trans (first : h.Updated a c h') (second : h'.Updated a c' h'')
    (bound : a < h.length) : h.Updated a c' h'' := by
  obtain ⟨more, rfl⟩ := first
  obtain ⟨extra, rfl⟩ := second
  refine ⟨more ++ extra, ?_⟩
  have inside : a < (h ++ more).length := by
    rw [List.length_append]
    omega
  rw [List.set_append_left _ _ (by simpa using inside), List.set_set,
    ← List.set_append_left _ _ inside, List.append_assoc]

/-- The last of the cells may be the one that changes. -/
theorem Updated.of_append {more : List Cell}
    (updated : (h ++ c :: more).Updated h.length c' h') :
    ∃ extra, h' = h ++ c' :: extra := by
  obtain ⟨extra, rfl⟩ := updated
  exact ⟨more ++ extra, by simp⟩

/-- An item is no array, so a change of one leaves it alone. -/
theorem Item.of_updated_array {x : Value} {d : Datum} (item : h.Item x d)
    {items : List Value} (known : h[a]? = some (.array items))
    (updated : h.Updated a c h') : h'.Item x d := by
  cases item with
  | data => exact .data d
  | @object b _ there mutable =>
      apply Item.object _ mutable
      apply updated.other _ there
      rintro rfl
      rw [known] at there
      cases there

/-- No cells but those that are touched have got another content. -/
structure Changed (touched : Nat → Prop) (h h' : Heap) : Prop where
  kind : ∀ {a : Nat} {c : Cell},
    h[a]? = some c → ∃ c', h'[a]? = some c' ∧ c.SameKind c'
  frame : ∀ {a : Nat} {c : Cell}, h[a]? = some c → ¬ touched a → h'[a]? = some c

variable {touched : Nat → Prop}

theorem changed_append (touched : Nat → Prop) (h : Heap) (more : List Cell) :
    Changed touched h (h ++ more) where
  kind known := ⟨_, getElem?_append_of_eq_some known more, .same _⟩
  frame known _ := getElem?_append_of_eq_some known more

theorem changed_refl (touched : Nat → Prop) (h : Heap) :
    Changed touched h h where
  kind known := ⟨_, known, .same _⟩
  frame known _ := known

theorem Changed.trans (first : Changed touched h h')
    (second : Changed touched h' h'') :
    Changed touched h h'' where
  kind known := by
    obtain ⟨middle, here, before⟩ := first.kind known
    obtain ⟨last, there, after⟩ := second.kind here
    exact ⟨last, there, before.trans after⟩
  frame known apart := second.frame (first.frame known apart) apart

theorem Updated.changed (updated : h.Updated a c' h') (known : h[a]? = some c)
    (kind : c.SameKind c') : Changed (· = a) h h' where
  kind {b e} there := by
    by_cases same : b = a
    · subst same
      cases Option.some.inj (known.symm.trans there)
      exact ⟨c', updated.self (List.getElem?_eq_some_iff.mp known).1, kind⟩
    · exact ⟨e, updated.other same there, .same e⟩
  frame there apart := updated.other apart there

theorem Changed.mono (changed : Changed touched h h') {more : Nat → Prop}
    (fewer : ∀ a, touched a → more a) : Changed more h h' where
  kind := changed.kind
  frame known apart := changed.frame known fun here => apart (fewer _ here)

theorem Changed.item (changed : Changed touched h h') {x : Value} {d : Datum}
    (item : h.Item x d) (apart : ∀ a, x = .ref a → ¬ touched a) :
    h'.Item x d := by
  cases item with
  | data => exact .data d
  | object known mutable =>
      exact .object (changed.frame known (apart _ rfl)) mutable

theorem Changed.container (changed : Changed touched h h') {ds : List Datum}
    (known : h[a]? = some (.data (.collection ds))) :
    ∃ ds', h'[a]? = some (.data (.collection ds')) := by
  obtain ⟨c, here, kind⟩ := changed.kind known
  cases kind with
  | same => exact ⟨_, here⟩
  | container => exact ⟨_, here⟩

theorem Changed.record (changed : Changed touched h h') {type content : String}
    (known : h[a]? = some (.data (.record type content))) :
    ∃ content', h'[a]? = some (.data (.record type content')) := by
  obtain ⟨c, here, kind⟩ := changed.kind known
  cases kind with
  | same => exact ⟨_, here⟩
  | record => exact ⟨_, here⟩

theorem Changed.array (changed : Changed touched h h') {items : List Value}
    (known : h[a]? = some (.array items)) :
    ∃ items', h'[a]? = some (.array items') ∧ items'.length = items.length := by
  obtain ⟨c, here, kind⟩ := changed.kind known
  cases kind with
  | same => exact ⟨_, here, rfl⟩
  | array lengths => exact ⟨_, here, lengths.symm⟩

end Heap

end BinderIdl.Java
