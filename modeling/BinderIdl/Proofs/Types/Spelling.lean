import BinderIdl.Proofs.Types.Instances

namespace BinderIdl.Types

theorem Reference.opening_mem_of_split_eq_generic {text : List Char}
    {base : String} {arguments : List String}
    (read : split text = .ok (.generic base arguments)) :
    '<' ∈ text := by
  rcases split_eq_ok read with ⟨other, _⟩ | ⟨_, _, _, _, _, _, rfl⟩
  · cases other
  · exact List.mem_append_right _ List.mem_cons_self

theorem Reference.mem_text_of_mem (base : String) {name : String}
    {arguments : List String} {c : Char} (listed : name ∈ arguments)
    (inside : c ∈ name.toList) : c ∈ (generic base arguments).text := by
  simp only [text, List.mem_append, List.mem_cons]
  exact .inr (.inr (.inl (mem_join_of_mem (List.mem_map_of_mem listed) inside)))

namespace Registry

variable {r grown : Registry}

theorem Canonical.spellable_base (canonical : Canonical r) {base : String}
    {t : Template} (resolved : r.resolveTemplate base = .ok t) :
    Spellable base.toList := by
  obtain ⟨member, rfl | rfl⟩ := mem_of_resolveTemplate_eq_ok resolved
  · exact (canonical.unmarked_template member).spellable
      (canonical.templatesNamed t member).qualify_ne_empty
  · have named := canonical.templatesNamed t member
    exact named.name.spellable named.nonempty

/-- A text that means a type is a name, or spells an instance, which can be
no argument. -/
theorem Canonical.spellable_or_nested (canonical : Canonical r) {name : String}
    {h : Handle} (compact : Text.removeBlanks name.toList = name.toList)
    (resolved : r.resolve name = .ok (h, grown)) :
    Spellable name.toList ∧ r.resolveName name = .ok h ∨
      '<' ∈ name.toList ∧ ∀ d, r.argument h ≠ .ok d := by
  rcases resolve_cases resolved with ⟨plain, read, found, _⟩ |
    ⟨base, arguments, t, handles, read, template, _, made⟩
  · rw [Reference.ofText, compact] at read
    obtain ⟨rfl, spelled⟩ := Reference.spellable_of_split_eq_plain read
    rw [String.ofList_toList] at found
    exact .inl ⟨spelled, found⟩
  · rw [Reference.ofText, compact] at read
    refine .inr ⟨Reference.opening_mem_of_split_eq_generic read,
      fun d argument => ?_⟩
    obtain ⟨member, _⟩ := mem_of_resolveTemplate_eq_ok template
    obtain ⟨arguments, _, _, denoted⟩ :=
      canonical.get?_of_instantiate member made
    obtain ⟨known, plain⟩ := argument_eq_ok_iff.mp argument
    have grew := (Step.instantiate made).types_grow
    rw [get?_eq_some_of_types_grow grew known] at denoted
    exact plain (Option.some.inj denoted ▸ kind_apply t handles arguments)

theorem resolve_generic {text base : String} {arguments : List String}
    {t : Template} {handles : List Handle} (some : arguments ≠ [])
    (spelled : Text.removeBlanks text.toList =
      (Reference.generic base arguments).text)
    (base_spelled : Spellable base.toList)
    (template : r.resolveTemplate base = .ok t)
    (named : List.Forall₂
      (fun name h => Spellable name.toList ∧ r.resolveName name = .ok h)
      arguments handles) :
    r.resolve text = r.instantiate t handles := by
  have names : ∀ name ∈ arguments, Spellable name.toList := by
    intro name listed
    obtain ⟨h, _, spelled, _⟩ := exists_mem_of_forall₂ named listed
    exact spelled
  have resolved : arguments.mapM r.resolveName = .ok handles :=
    mapM_eq_ok_iff.mpr (named.imp fun _ _ both => both.2)
  have read : Reference.ofText text = .ok (.generic base arguments) := by
    rw [Reference.ofText, spelled,
      Reference.split_generic some base_spelled.isBase names]
  exact resolve_of_generic read template resolved

theorem Canonical.resolve_eq_ok_iff (canonical : Canonical r)
    {text base : String} {arguments : List String} {t : Template}
    {handles : List Handle} (some : arguments ≠ [])
    (spelled : Text.removeBlanks text.toList =
      (Reference.generic base arguments).text)
    (template : r.resolveTemplate base = .ok t)
    (resolved : List.Forall₂
      (fun name h => ∃ after, r.resolve name = .ok (h, after)) arguments
      handles) :
    (∀ h after, r.resolve text = .ok (h, after) ↔
      r.instantiate t handles = .ok (h, after)) ∧
    ((∀ name ∈ arguments, ∀ c ∈ name.toList, c ≠ '<' ∧ c ≠ '>' ∧ c ≠ ',') →
      r.resolve text = r.instantiate t handles) := by
  have base_spelled := canonical.spellable_base template
  have compact :
      ∀ name ∈ arguments, Text.removeBlanks name.toList = name.toList := by
    intro name listed
    refine Text.removeBlanks_eq_self fun c inside => ?_
    have there := Reference.mem_text_of_mem base listed inside
    exact Text.isBlank_eq_false_of_mem_removeBlanks (spelled ▸ there)
  have meanings := forall₂_of_mem resolved fun name listed h ⟨after, found⟩ =>
    canonical.spellable_or_nested (compact name listed) found
  have named (free : ∀ name ∈ arguments, '<' ∉ name.toList) :
      r.resolve text = r.instantiate t handles :=
    resolve_generic some spelled base_spelled template <|
      forall₂_of_mem meanings fun name listed h meaning =>
        meaning.resolve_right fun nested => free name listed nested.1
  constructor
  · intro h after
    by_cases free : ∀ name ∈ arguments, '<' ∉ name.toList
    · rw [named free]
    · push Not at free
      obtain ⟨name, listed, nested⟩ := free
      obtain ⟨part, member, meaning⟩ := exists_mem_of_forall₂ meanings listed
      obtain ⟨_, noArgument⟩ := meaning.resolve_left fun plain =>
        plain.1.2 _ nested (.inl rfl)
      constructor
      · intro found
        unfold Registry.resolve Reference.ofText at found
        rw [spelled,
          Reference.split_nested base_spelled.isBase listed nested] at found
        cases found
      · intro made
        obtain ⟨_, _, known, _⟩ := instantiate_eq_ok made
        obtain ⟨d, _, argument⟩ := exists_mem_of_forall₂ known member
        exact absurd (argument_eq_ok_iff.mpr argument) (noArgument d)
  · exact fun free =>
      named fun name listed nested => (free name listed _ nested).1 rfl

theorem eq_of_instantiate_again {later final : Registry}
    (distinct : (later.types.map Descriptor.qualifiedName).Nodup) {t : Template}
    {handles : List Handle} {h k : Handle}
    (made : r.instantiate t handles = .ok (h, grown))
    (grew : grown.types <+: later.types)
    (again : later.instantiate t handles = .ok (k, final)) :
    h = k := by
  have first : ∃ arguments, later.Arguments handles arguments ∧
      later.findQualified? (t.instanceName arguments) = some h := by
    obtain ⟨arguments, _, known, ⟨found, rfl⟩ | ⟨_, pushed⟩⟩ :=
      instantiate_eq_ok made
    · obtain ⟨d, denoted, named⟩ := get?_of_findQualified?_eq_some found
      exact ⟨arguments, known.mono grew,
        (findQualified?_eq_some_iff distinct).mpr ⟨d,
          get?_eq_some_of_types_grow grew denoted, named⟩⟩
    · have here := (types_grow_of_eq_push pushed).trans grew
      obtain ⟨rfl, rfl⟩ := Prod.mk.inj pushed
      exact ⟨arguments, known.mono here,
        (findQualified?_eq_some_iff distinct).mpr ⟨_, get?_eq_some_of_types_grow
          grew (r.get?_push _), t.qualifiedName_apply handles arguments⟩⟩
  obtain ⟨arguments, known, found⟩ := first
  obtain ⟨others, _, otherKnown, meaning⟩ := instantiate_eq_ok again
  obtain rfl := arguments_unique otherKnown known
  rcases meaning with ⟨there, _⟩ | ⟨free, _⟩
  · exact Option.some.inj (found.symm.trans there)
  · cases found.symm.trans free

theorem eq_of_apply_eq {t u : Template} {handles others : List Handle}
    {arguments otherArguments : List Descriptor}
    (arity : handles.length = t.arity) (otherArity : others.length = u.arity)
    (same : t.apply handles arguments = u.apply others otherArguments) :
    t = u ∧ handles = others := by
  have parts := congrArg Descriptor.argumentHandles same
  rw [argumentHandles_apply, argumentHandles_apply] at parts
  subst parts
  have package := congrArg Descriptor.package same
  have name := congrArg Descriptor.name same
  simp only [Template.package_apply, Template.name_apply] at package name
  obtain ⟨_, _, _⟩ := t
  obtain ⟨_, _, _⟩ := u
  simp only at package name arity otherArity
  subst package name
  exact ⟨by rw [← arity, ← otherArity], rfl⟩

/-- In a registry whose types and templates were declared under proper names,
instances are canonical: an instance tells its template and its arguments by its
fields and by its name; at any two times, the handles are the same if and only
if the templates and the arguments are; and however a reference in brackets is
spelled, it means the instance of its template at its arguments. -/
theorem instances_are_canonical (past : List Operation)
    (proper : standard.ProperRun past) :
    let r := standard.run past
    (∀ t ∈ r.templates, ∀ handles h grown,
      r.instantiate t handles = .ok (h, grown) →
      ∃ d arguments, grown.get? h = some d ∧ d.kind = .generic ∧
        d.package = t.package ∧ d.name = t.name ∧ d.argumentHandles = handles ∧
        List.Forall₂ (fun part e => r.get? part = some e) handles arguments ∧
        d.qualifiedName = t.qualifiedName ++ ("<" ++ String.intercalate ","
          (arguments.map Descriptor.qualifiedName) ++ ">")) ∧
    (∀ t ∈ r.templates, ∀ handles h grown,
      r.instantiate t handles = .ok (h, grown) →
      ∀ later, grown.ProperRun later →
        ∀ u ∈ (grown.run later).templates, ∀ others k final,
          (grown.run later).instantiate u others = .ok (k, final) →
          (h = k ↔ t = u ∧ handles = others)) ∧
    (∀ text base arguments t handles, arguments ≠ [] →
      Text.removeBlanks text.toList = (Reference.generic base arguments).text →
      r.resolveTemplate base = .ok t →
      List.Forall₂ (fun name h => ∃ after, r.resolve name = .ok (h, after))
        arguments handles →
      (∀ h grown, r.resolve text = .ok (h, grown) ↔
        r.instantiate t handles = .ok (h, grown)) ∧
      ((∀ name ∈ arguments, ∀ c ∈ name.toList, c ≠ '<' ∧ c ≠ '>' ∧ c ≠ ',') →
        r.resolve text = r.instantiate t handles)) := by
  intro r
  have canonical : Canonical r := canonical_standard.run proper
  refine ⟨?_, ?_,
    fun text base arguments t handles => canonical.resolve_eq_ok_iff⟩
  · intro t member handles h grown made
    obtain ⟨arguments, _, known, denoted⟩ :=
      canonical.get?_of_instantiate member made
    exact ⟨_, arguments, denoted, kind_apply t handles arguments,
      t.package_apply handles arguments, t.name_apply handles arguments,
      argumentHandles_apply t handles arguments,
      known.imp fun _ _ part => part.1, t.qualifiedName_apply handles arguments⟩
  · intro t member handles h grown made later laterProper u otherMember others k
      final again
    have grew := types_grow_of_run grown later
    have laterCanonical := (canonical.instantiate member made).run laterProper
    obtain ⟨_, arity, _, denoted⟩ := canonical.get?_of_instantiate member made
    obtain ⟨_, otherArity, _, otherDenoted⟩ :=
      laterCanonical.get?_of_instantiate otherMember again
    constructor
    · rintro rfl
      have kept := get?_eq_some_of_types_grow
        (grew.trans (Step.instantiate again).types_grow) denoted
      exact eq_of_apply_eq arity otherArity
        (Option.some.inj (kept.symm.trans otherDenoted))
    · rintro ⟨rfl, rfl⟩
      exact eq_of_instantiate_again laterCanonical.distinct made grew again

/-- A map of strings to a declared record, spelled with blanks. -/
theorem instances_are_canonical_map :
    let past : List Operation :=
      [.declareParcelable "a.b" "Point" ⟨"a/b/Point.aidl", 3⟩]
    let r := standard.run past
    standard.ProperRun past ∧ r.resolve " Map < String, Point > " =
      r.instantiate ⟨"java.util", "Map", 2⟩ [.string, ⟨24⟩] := by
  intro past r
  have proper : standard.ProperRun past := by
    refine ⟨⟨by decide, ?_, ?_⟩, trivial⟩ <;> decide +kernel
  have parts :
      List.Forall₂ (fun name h => ∃ after, r.resolve name = .ok (h, after))
        ["String", "Point"] [.string, ⟨24⟩] :=
    .cons ⟨r, rfl⟩ (.cons ⟨r, rfl⟩ .nil)
  obtain ⟨_, _, meaning⟩ := instances_are_canonical past proper
  exact ⟨proper,
    (meaning " Map < String, Point > " "Map" ["String", "Point"] ⟨"java.util",
      "Map", 2⟩ _ (by decide) (by decide +kernel) rfl parts).2 (by simp)⟩

end Registry

end BinderIdl.Types
