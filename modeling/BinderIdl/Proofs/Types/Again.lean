import BinderIdl.Proofs.Types.Alike

/-! References that are looked up again. Later instances neither hide a name nor
take it over, and an instance that is there is found: the answer is the one of
the first time, and nothing is added. -/

namespace BinderIdl.Types.Registry

variable {r grown later : Registry}

theorem findQualified?_push {d : Descriptor} {name : String}
    (other : d.qualifiedName ≠ name) :
    (r.push d).2.findQualified? name = r.findQualified? name := by
  rw [findQualified?, owner?_push, beq_eq_false_iff_ne.mpr other]
  simp [findQualified?]

theorem named_push {d : Descriptor} (generic : d.kind = .generic)
    (name : String) :
    (r.push d).2.named name = r.named name := by
  rw [named, entries_push, List.filter_append]
  simp [named, generic]

theorem resolveName_push {d : Descriptor} {name : String}
    (generic : d.kind = .generic) (other : d.qualifiedName ≠ name) :
    (r.push d).2.resolveName name = r.resolveName name := by
  unfold resolveName
  rw [findQualified?_push other, named_push generic]

theorem resolveName_of_instantiate_eq_ok {t : Template} {handles : List Handle}
    {h : Handle} (made : r.instantiate t handles = .ok (h, grown))
    {name : String} (free : '<' ∉ name.toList) :
    grown.resolveName name = r.resolveName name := by
  obtain ⟨arguments, _, _, ⟨_, rfl⟩ | ⟨_, pushed⟩⟩ := instantiate_eq_ok made
  · rfl
  · obtain ⟨rfl, rfl⟩ := Prod.mk.inj pushed
    apply resolveName_push (kind_apply t handles arguments)
    -- The name of an instance has brackets, so it is not the one that
    -- is looked up.
    rintro rfl
    rw [Template.qualifiedName_apply] at free
    exact free (t.opening_mem_instanceName arguments)

theorem Looks.types_grow (looks : Looks r later) : r.types <+: later.types := by
  induction looks with
  | refl => exact List.prefix_refl _
  | tail _ step induction =>
      obtain ⟨text, h, resolved⟩ := step
      exact induction.trans (Step.resolve resolved).types_grow

/-- What instances keep, references keep. -/
theorem Looks.keeps {P : Registry → Prop} (looks : Looks r later) (start : P r)
    (instances : ∀ {now grown : Registry} {t : Template} {handles : List Handle}
      {h : Handle}, P now →
        now.instantiate t handles = .ok (h, grown) → P grown) : P later := by
  induction looks with
  | refl => exact start
  | tail _ step induction =>
      obtain ⟨text, h, resolved⟩ := step
      rcases resolve_eq_ok resolved with ⟨rfl, _⟩ | ⟨t, _, handles, made⟩
      · exact induction
      · exact instances induction made

theorem Looks.templates_eq (looks : Looks r later) :
    later.templates = r.templates :=
  looks.keeps (P := fun now => now.templates = r.templates) rfl
    fun before made => (templates_of_instantiate_eq_ok made).trans before

theorem Looks.resolveName_eq (looks : Looks r later) {name : String}
    (free : '<' ∉ name.toList) : later.resolveName name = r.resolveName name :=
  looks.keeps (P := fun now => now.resolveName name = r.resolveName name) rfl
    fun before made => (resolveName_of_instantiate_eq_ok made free).trans before

theorem Looks.resolveTemplate_eq (looks : Looks r later) (name : String) :
    later.resolveTemplate name = r.resolveTemplate name := by
  unfold resolveTemplate template?
  rw [looks.templates_eq]

theorem argument_of_types_grow (grew : r.types <+: later.types) {h : Handle}
    {d : Descriptor} (known : r.get? h = some d) :
    later.argument h = r.argument h := by
  unfold argument
  rw [known, get?_eq_some_of_types_grow grew known]

theorem mapM_argument_of_types_grow (grew : r.types <+: later.types)
    {handles : List Handle} (known : ∀ h ∈ handles, ∃ d, r.get? h = some d) :
    handles.mapM later.argument = handles.mapM r.argument := by
  induction handles with
  | nil => rfl
  | cons h rest induction =>
      obtain ⟨⟨d, here⟩, others⟩ := List.forall_mem_cons.mp known
      rw [List.mapM_cons, List.mapM_cons, argument_of_types_grow grew here,
        induction others]

theorem findQualified?_of_instantiate_eq_ok {t : Template}
    {handles : List Handle} {h : Handle}
    (made : r.instantiate t handles = .ok (h, grown)) :
    ∃ arguments, handles.length = t.arity ∧ r.Arguments handles arguments ∧
      grown.findQualified? (t.instanceName arguments) = some h := by
  obtain ⟨arguments, arity, known, ⟨found, rfl⟩ | ⟨free, pushed⟩⟩ :=
    instantiate_eq_ok made
  · exact ⟨arguments, arity, known, found⟩
  · refine ⟨arguments, arity, known, ?_⟩
    have owned :=
      r.owner?_push (t.apply handles arguments) (t.instanceName arguments)
    rw [← pushed, owner?_eq_none_of_findQualified?_eq_none free,
      Template.qualifiedName_apply, if_pos (beq_self_eq_true _)] at owned
    rw [findQualified?, owned]
    rfl

theorem instantiate_again {t : Template} {handles : List Handle}
    (grew : r.types <+: later.types)
    (known : ∀ h ∈ handles, ∃ d, r.get? h = some d)
    (kept : ∀ h grown,
      r.instantiate t handles = .ok (h, grown) → grown.types <+: later.types) :
    later.instantiate t handles =
      (r.instantiate t handles).map fun entry => (entry.1, later) := by
  cases made : r.instantiate t handles with
  | ok entry =>
      obtain ⟨arguments, arity, listed, found⟩ :=
        findQualified?_of_instantiate_eq_ok made
      obtain ⟨owner, owned, same⟩ := Option.map_eq_some_iff.mp found
      have there :
          later.findQualified? (t.instanceName arguments) = some owner.1 :=
        congrArg (Option.map Prod.fst)
          (owner?_eq_some_of_types_grow (kept _ _ made) owned)
      unfold instantiate
      rw [if_neg (not_not.mpr arity), mapM_argument_of_types_grow grew known,
        mapM_argument_eq_ok listed]
      dsimp only
      rw [there, same]
      rfl
  | error error =>
      -- A failure is one of the arguments, and these are what they were.
      unfold instantiate at made ⊢
      rw [mapM_argument_of_types_grow grew known]
      split at made
      · next arity =>
          rw [if_pos arity]
          exact made
      · next arity =>
          rw [if_neg arity]
          split at made
          · exact made
          · split at made <;> cases made

theorem known_of_mapM_resolveName_eq_ok {names : List String}
    {handles : List Handle} (found : names.mapM r.resolveName = .ok handles) :
    ∀ h ∈ handles, ∃ d, r.get? h = some d := by
  intro h listed
  obtain ⟨name, _, here⟩ :=
    exists_mem_of_forall₂ (mapM_eq_ok_iff.mp found).flip listed
  exact get?_of_resolveName_eq_ok here

theorem Looks.mapM_resolveName_eq (looks : Looks r later) {names : List String}
    (free : ∀ name ∈ names, '<' ∉ name.toList) :
    names.mapM later.resolveName = names.mapM r.resolveName := by
  induction names with
  | nil => rfl
  | cons name rest induction =>
      obtain ⟨here, others⟩ := List.forall_mem_cons.mp free
      rw [List.mapM_cons, List.mapM_cons, looks.resolveName_eq here,
        induction others]

/-- A reference that was looked up, and whose instance is there if it needs one,
is answered as it was, also if it fails. -/
theorem Looks.resolve_again (looks : Looks r later) {text : String}
    (kept : ∀ h grown,
      r.resolve text = .ok (h, grown) → grown.types <+: later.types) :
    later.resolve text =
      (r.resolve text).map fun entry => (entry.1, later) := by
  unfold resolve at kept ⊢
  cases read : Reference.ofText text with
  | error unread => rfl
  | ok reference =>
      rw [read] at kept
      cases reference with
      | plain name =>
          dsimp only
          rw [looks.resolveName_eq
            (Reference.opening_not_mem_of_split_eq_plain read)]
          cases r.resolveName name with
          | error unknown => rfl
          | ok first => rfl
      | generic base arguments =>
          have free := Reference.opening_not_mem_of_split_eq_generic read
          dsimp only [resolveGeneric] at kept ⊢
          rw [looks.resolveTemplate_eq, looks.mapM_resolveName_eq free]
          cases template : r.resolveTemplate base with
          | error unknown => rfl
          | ok t =>
              rw [template] at kept
              cases found : arguments.mapM r.resolveName with
              | error unknown => rfl
              | ok handles =>
                  rw [found] at kept
                  exact instantiate_again looks.types_grow
                    (known_of_mapM_resolveName_eq_ok found) kept

end BinderIdl.Types.Registry
