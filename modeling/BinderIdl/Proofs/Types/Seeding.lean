import BinderIdl.Proofs.Types.Operations

namespace BinderIdl.Types.Registry

variable {r grown : Registry} {next : Nat} {ds es : List Descriptor}
  {t held : Template} {ts : List Template} {name : String}

theorem seedTypes_append (seeded : r.seedTypes next ds = (grown, none))
    (es : List Descriptor) :
    r.seedTypes next (ds ++ es) = grown.seedTypes (next + ds.length) es := by
  induction ds generalizing r next with
  | nil =>
      cases seeded
      rfl
  | cons d rest induction =>
      rw [List.cons_append, seedTypes]
      rw [seedTypes] at seeded
      cases accepted : r.register d with
      | error error => simp [accepted] at seeded
      | ok entry =>
          simp only [accepted] at seeded ⊢
          split at seeded
          · next expected =>
              rw [if_pos expected, induction seeded, List.length_cons,
                Nat.add_right_comm, Nat.add_assoc]
          · cases seeded

theorem seedTypes_of_known
    (distinct : (r.types.map Descriptor.qualifiedName).Nodup)
    (known : ∀ position d,
      ds[position]? = some d → r.get? ⟨next + position⟩ = some d) :
    r.seedTypes next ds = (r, none) := by
  induction ds generalizing next with
  | nil => rfl
  | cons d rest induction =>
      have here : r.register d = .ok (⟨next⟩, r) :=
        (register_of_qualifiedName_eq distinct (known 0 d rfl) rfl).trans
          (if_pos rfl)
      have later : r.seedTypes (next + 1) rest = (r, none) := by
        refine induction fun position e listed => ?_
        rw [Nat.add_right_comm]
        exact known (position + 1) e listed
      simp only [seedTypes, here, if_true, later]

theorem seedTypes_of_fresh
    (distinct : ((r.types ++ ds).map Descriptor.qualifiedName).Nodup) :
    r.seedTypes r.size ds = ({ r with types := r.types ++ ds }, none) := by
  induction ds generalizing r with
  | nil => simp [seedTypes]
  | cons d rest induction =>
      have free : r.owner? d.qualifiedName = none := by
        rw [List.map_append, List.map_cons, List.nodup_append] at distinct
        exact owner?_eq_none_iff.mpr fun listed =>
          distinct.2.2 _ listed _ List.mem_cons_self rfl
      have here : r.register d =
          .ok (⟨r.size⟩, { r with types := r.types ++ [d] }) := by
        rw [register, free]
        rfl
      have later := induction (r := { r with types := r.types ++ [d] })
        (by rwa [List.append_assoc, List.singleton_append])
      rw [size, List.length_append, List.length_singleton] at later
      simp only [seedTypes, here, if_true]
      rw [size, later, List.append_assoc, List.singleton_append]

theorem nodup_builtIn : (BuiltIn.types.map Descriptor.qualifiedName).Nodup :=
  wellFormed_standard.distinct

theorem seedTypes_builtIn
    (distinct : (r.types.map Descriptor.qualifiedName).Nodup)
    (comparable : r.types <+: BuiltIn.types ∨ BuiltIn.types <+: r.types) :
    r.seedTypes 0 BuiltIn.types =
      ({ r with types := r.types ++ BuiltIn.types.drop r.size }, none) := by
  rcases comparable with ⟨rest, whole⟩ | complete
  · have first : r.seedTypes 0 r.types = (r, none) := by
      refine seedTypes_of_known distinct fun position d listed => ?_
      rwa [Nat.zero_add]
    have second :
        r.seedTypes r.size rest = ({ r with types := r.types ++ rest }, none) :=
      seedTypes_of_fresh (whole ▸ nodup_builtIn)
    have left : BuiltIn.types.drop r.size = rest := by
      rw [← whole, size, List.drop_left]
    rw [left, ← second, ← whole, seedTypes_append first, Nat.zero_add]
    rfl
  · have known : r.seedTypes 0 BuiltIn.types = (r, none) := by
      refine seedTypes_of_known distinct fun position d listed => ?_
      rw [Nat.zero_add]
      exact get?_eq_some_of_types_grow (r := standard) complete listed
    have none : BuiltIn.types.drop r.size = [] :=
      List.drop_eq_nil_of_le complete.length_le
    rw [known, none, List.append_nil]

theorem template?_append (r : Registry) (t : Template) (name : String) :
    ({ r with templates := r.templates ++ [t] } : Registry).template? name =
      (r.template? name).or (if t.qualifiedName ==
        name then some t else none) := by
  simp only [template?, List.find?_append, List.find?_singleton]

theorem registerTemplate_eq_ok (accepted : r.registerTemplate t = .ok grown) :
    r.template? t.qualifiedName = none ∧
    grown = { r with templates := r.templates ++ [t] } ∨
    ∃ held, r.template? t.qualifiedName = some held ∧
      held.arity = t.arity ∧ grown = r := by
  unfold registerTemplate at accepted
  split at accepted
  · next free => exact .inl ⟨free, (Except.ok.inj accepted).symm⟩
  · next held known =>
      split at accepted
      · next same =>
          exact .inr ⟨held, known, same, (Except.ok.inj accepted).symm⟩
      · cases accepted

theorem template?_of_registerTemplate_eq_ok
    (accepted : r.registerTemplate t = .ok grown)
    (known : r.template? name = some held) :
    grown.template? name = some held := by
  rcases registerTemplate_eq_ok accepted with ⟨_, rfl⟩ | ⟨_, _, _, rfl⟩
  · rw [template?_append, known]
    rfl
  · exact known

/-- What a template of the same qualified name asks of those that are seeded. -/
def Agrees (r : Registry) (t : Template) : Prop :=
  ∀ held, r.template? t.qualifiedName = some held → held.arity = t.arity

/-- The templates whose names are free. -/
def missing (r : Registry) (ts : List Template) : List Template :=
  ts.filter fun t => (r.template? t.qualifiedName).isNone

theorem seedTemplates_of_agrees (apart : (ts.map Template.qualifiedName).Nodup)
    (agrees : ∀ t ∈ ts, r.Agrees t) :
    r.seedTemplates ts =
      ({ r with templates := r.templates ++ r.missing ts }, none) := by
  induction ts generalizing r with
  | nil => simp [seedTemplates, missing]
  | cons t rest induction =>
      rw [List.map_cons, List.nodup_cons] at apart
      obtain ⟨here, others⟩ := List.forall_mem_cons.mp agrees
      cases known : r.template? t.qualifiedName with
      | some held =>
          have accepted : r.registerTemplate t = .ok r := by
            simp only [registerTemplate, known, here held known, if_true]
          simp only [seedTemplates, accepted]
          rw [induction apart.2 others, missing, missing,
            List.filter_cons_of_neg (by simp [known])]
      | none =>
          have accepted : r.registerTemplate t =
              .ok { r with templates := r.templates ++ [t] } := by
            simp only [registerTemplate, known]
          -- The other names are not the one that was added.
          have same : ∀ u ∈ rest,
              ({ r with templates := r.templates ++ [t] } : Registry).template?
                u.qualifiedName = r.template? u.qualifiedName := by
            intro u listed
            have other : t.qualifiedName ≠ u.qualifiedName := fun same =>
              apart.1 (same ▸ List.mem_map_of_mem listed)
            rw [template?_append, beq_eq_false_iff_ne.mpr other]
            simp
          have later :=
            induction (r := { r with templates := r.templates ++ [t] }) apart.2
              fun u listed held found =>
                others u listed held (same u listed ▸ found)
          have rest_missing :
              ({ r with templates := r.templates ++ [t] } :
                Registry).missing rest = r.missing rest :=
            List.filter_congr fun u listed => by rw [same u listed]
          have all_missing : r.missing (t :: rest) = t :: r.missing rest :=
            List.filter_cons_of_pos (by simp [known])
          simp only [seedTemplates, accepted]
          rw [later, rest_missing, all_missing, List.append_assoc,
            List.singleton_append]

theorem agrees_of_seedTemplates (seeded : (r.seedTemplates ts).2 = none) :
    ∀ t ∈ ts, r.Agrees t := by
  induction ts generalizing r with
  | nil => exact List.forall_mem_nil _
  | cons t rest induction =>
      rw [seedTemplates] at seeded
      cases accepted : r.registerTemplate t with
      | error error => simp [accepted] at seeded
      | ok grown =>
          simp only [accepted] at seeded
          refine List.forall_mem_cons.mpr ⟨fun held known => ?_,
            fun u listed held known => ?_⟩
          · rcases registerTemplate_eq_ok accepted with
              ⟨free, _⟩ | ⟨other, found, same, _⟩
            · rw [free] at known
              cases known
            · rw [found] at known
              cases known
              exact same
          · exact induction seeded u listed held
              (template?_of_registerTemplate_eq_ok accepted known)

/-- The types are the first built-in ones, or begin with all of them,
and the templates have the arities of the built-in ones whose qualified
names they have. -/
structure Seedable (r : Registry) : Prop where
  comparable : r.types <+: BuiltIn.types ∨ BuiltIn.types <+: r.types
  agrees : ∀ t ∈ BuiltIn.templates, r.Agrees t

def seeded (r : Registry) : Registry :=
  ⟨r.types ++ BuiltIn.types.drop r.size,
    r.templates ++ r.missing BuiltIn.templates⟩

theorem Seedable.seed_eq (seedable : r.Seedable)
    (distinct : (r.types.map Descriptor.qualifiedName).Nodup) :
    r.seed = (r.seeded, none) := by
  have typed := seedTypes_builtIn distinct seedable.comparable
  -- Templates are looked up where types were added, and there are
  -- the same ones.
  have templated :=
    seedTemplates_of_agrees
      (r := { r with types := r.types ++ BuiltIn.types.drop r.size })
      (by decide +kernel) seedable.agrees
  rw [seed, typed]
  exact templated

theorem templates_of_seedTypes (r : Registry) (next : Nat)
    (ds : List Descriptor) :
    (r.seedTypes next ds).1.templates = r.templates := by
  induction ds generalizing r next with
  | nil => rfl
  | cons d rest induction =>
      unfold seedTypes
      split
      · rfl
      · next h grown accepted =>
          have same : grown.templates = r.templates := by
            rcases eq_or_push_of_register_eq_ok accepted with rfl | pushed
            · rfl
            · exact congrArg (fun entry => entry.2.templates) pushed
          split
          · exact (induction grown (next + 1)).trans same
          · exact same

theorem seedable_of_seed (done : r.seed = (grown, none)) : r.Seedable := by
  have builtIn : BuiltIn.types <+: grown.types := by
    refine List.prefix_iff_getElem?.mpr fun position bound => ?_
    exact get?_of_seed (h := ⟨position⟩) done (List.getElem?_eq_getElem bound)
  unfold seed at done
  split at done
  · cases done
  · next after typed =>
      have grew := types_grow_of_seedTypes r 0 BuiltIn.types
      have same := types_of_seedTemplates after BuiltIn.templates
      have agrees := agrees_of_seedTemplates (congrArg Prod.snd done)
      have templates := templates_of_seedTypes r 0 BuiltIn.types
      rw [typed] at grew templates
      rw [done] at same
      refine ⟨List.prefix_or_prefix_of_prefix (same ▸ grew) builtIn,
        fun t listed held known => ?_⟩
      refine agrees t listed held ?_
      rwa [template?, templates]

theorem Effect.templates_grow {answer : Answer}
    (effect : r.Effect answer grown) :
    r.templates <+: grown.templates := by
  cases effect with
  | template t => exact List.prefix_append _ _
  | _ => exact List.prefix_refl _

theorem templates_grow_of_run (r : Registry) (operations : List Operation) :
    r.templates <+: (r.run operations).templates := by
  induction operations generalizing r with
  | nil => exact List.prefix_refl _
  | cons operation rest induction =>
      exact (effect_perform r operation).templates_grow.trans (induction _)

theorem template?_of_templates_grow (grew : r.templates <+: grown.templates)
    (known : r.template? name = some t) : grown.template? name = some t := by
  obtain ⟨added, templates⟩ := grew
  unfold template? at known ⊢
  rw [← templates, List.find?_append, known]
  rfl

theorem template?_builtIn : ∀ t ∈ BuiltIn.templates,
    standard.template? t.qualifiedName = some t := by
  decide +kernel

/-- Where the built-in types and templates are in front, there is nothing left
to seed. -/
theorem seed_of_standard_grown
    (distinct : (r.types.map Descriptor.qualifiedName).Nodup)
    (types : standard.types <+: r.types)
    (templates : standard.templates <+: r.templates) :
    r.seed = (r, none) := by
  have there : ∀ t ∈ BuiltIn.templates, r.template? t.qualifiedName = some t :=
    fun t listed =>
      template?_of_templates_grow templates (template?_builtIn t listed)
  have seedable : r.Seedable := by
    refine ⟨.inr types, fun t listed held known => ?_⟩
    rw [there t listed] at known
    cases known
    rfl
  have noTypes : BuiltIn.types.drop r.size = [] :=
    List.drop_eq_nil_of_le types.length_le
  have noTemplates : r.missing BuiltIn.templates = [] :=
    List.filter_eq_nil_iff.mpr fun t listed => by simp [there t listed]
  rw [seedable.seed_eq distinct, seeded, noTypes, noTemplates, List.append_nil,
    List.append_nil]

theorem Seedable.get?_seeded (seedable : r.Seedable) {h : Handle}
    {d : Descriptor} (builtIn : BuiltIn.types[h.index]? = some d) :
    r.seeded.get? h = some d := by
  rcases seedable.comparable with ⟨rest, whole⟩ | complete
  · have types : r.seeded.types = BuiltIn.types := by
      rw [seeded, ← whole, size, List.drop_left]
    rwa [get?, types]
  · exact get?_eq_some_of_types_grow (r := standard)
      (complete.trans (List.prefix_append _ _)) builtIn

theorem mem_missing_iff :
    t ∈ r.missing ts ↔ t ∈ ts ∧ r.template? t.qualifiedName = none := by
  simp [missing, List.mem_filter]

theorem mem_templates_seeded_iff :
    t ∈ r.seeded.templates ↔ t ∈ r.templates ∨
      t ∈ BuiltIn.templates ∧ r.template? t.qualifiedName = none := by
  rw [seeded, List.mem_append, mem_missing_iff]

theorem nodup_templates_seeded
    (distinct : (r.templates.map Template.qualifiedName).Nodup) :
    (r.seeded.templates.map Template.qualifiedName).Nodup := by
  have apart :
      ((r.missing BuiltIn.templates).map Template.qualifiedName).Nodup :=
    (List.filter_sublist.map _).nodup (by decide +kernel)
  rw [seeded, List.map_append]
  refine List.nodup_append.mpr ⟨distinct, apart, ?_⟩
  rintro first firstListed second secondListed rfl
  obtain ⟨t, free, rfl⟩ := List.mem_map.mp secondListed
  exact template?_eq_none_iff.mp (mem_missing_iff.mp free).2 firstListed

theorem Seedable.template?_seeded (seedable : r.Seedable)
    (distinct : (r.templates.map Template.qualifiedName).Nodup)
    (listed : t ∈ BuiltIn.templates) :
    ∃ held, r.seeded.template? t.qualifiedName = some held ∧
      held.arity = t.arity := by
  cases known : r.template? t.qualifiedName with
  | some held =>
      exact ⟨held, template?_of_templates_grow (List.prefix_append _ _) known,
        seedable.agrees t listed held known⟩
  | none =>
      refine ⟨t, ?_, rfl⟩
      rw [template?_eq_some_iff (nodup_templates_seeded distinct),
        mem_templates_seeded_iff]
      exact ⟨.inr ⟨listed, known⟩, rfl⟩

/-- It is the built-in template itself unless another one had the
name before. -/
theorem mem_templates_seeded_builtIn_iff
    (distinct : (r.templates.map Template.qualifiedName).Nodup)
    (listed : t ∈ BuiltIn.templates) :
    t ∈ r.seeded.templates ↔ ∀ held ∈
      r.templates, held.qualifiedName = t.qualifiedName → held = t := by
  constructor
  · intro there held member same
    exact List.inj_on_of_nodup_map (nodup_templates_seeded distinct)
      (List.mem_append_left _ member) there same
  · intro alone
    rw [mem_templates_seeded_iff]
    cases known : r.template? t.qualifiedName with
    | none => exact .inr ⟨listed, rfl⟩
    | some held =>
        obtain ⟨member, named⟩ := (template?_eq_some_iff distinct).mp known
        exact .inl (alone held member named ▸ member)

/-- A registry that was seeded when it was empty is not changed by seeding,
whatever it was asked since. Any other one that was empty once fails to be
seeded, or ends with every built-in type at its handle and a template of
the right arity behind the name of every built-in one, and with the types
and templates that were there at their places. It succeeds iff it is
seedable, and the template behind a name is the built-in one iff no other
had the name before. -/
theorem seeding_fails_or_completes (past : List Operation) :
    (standard.run past).seed = (standard.run past, none) ∧
    let r := empty.run past
    ¬ r.Seedable ∧ (∃ error, r.seed.2 = some error) ∨
    r.Seedable ∧ r.seed.2 = none ∧
      (∀ h d, BuiltIn.types[h.index]? = some d → r.seed.1.get? h = some d) ∧
      (∀ t ∈ BuiltIn.templates,
        (∃ held, r.seed.1.template? t.qualifiedName = some held ∧
          held.arity = t.arity) ∧ (t ∈ r.seed.1.templates ↔ ∀ held ∈
            r.templates, held.qualifiedName = t.qualifiedName → held = t)) ∧
      (∀ h d, r.get? h = some d → r.seed.1.get? h = some d) ∧
      r.templates <+: r.seed.1.templates := by
  refine ⟨seed_of_standard_grown (nodup_run nodup_builtIn past)
    (types_grow_of_run standard past) (templates_grow_of_run standard past), ?_⟩
  intro r
  have distinct : (r.types.map Descriptor.qualifiedName).Nodup :=
    nodup_run_empty past
  have templates : (r.templates.map Template.qualifiedName).Nodup :=
    nodup_templates_run (r := empty) List.nodup_nil past
  by_cases seedable : r.Seedable
  · rw [seedable.seed_eq distinct]
    refine .inr ⟨seedable, rfl, fun h d => seedable.get?_seeded,
      fun t listed => ?_, fun h d known => ?_, List.prefix_append _ _⟩
    · exact ⟨seedable.template?_seeded templates listed,
        mem_templates_seeded_builtIn_iff templates listed⟩
    · exact get?_eq_some_of_types_grow (List.prefix_append _ _) known
  · refine .inl ⟨seedable, ?_⟩
    cases outcome : r.seed.2 with
    | some error => exact ⟨error, rfl⟩
    | none => exact absurd (seedable_of_seed (Prod.ext rfl outcome)) seedable

/-- Where a template that is called by the full name stands in for the
built-in one, seeding succeeds, but the template is not there and its simple
name is unknown. -/
theorem seeded_without_template_list :
    let r := empty.run [.registerTemplate ⟨"", "java.util.List", 1⟩]
    r.seed.2 = none ∧ ⟨"java.util", "List", 1⟩ ∈ BuiltIn.templates ∧
    r.seed.1.templates = [⟨"", "java.util.List", 1⟩, ⟨"java.util", "Map", 2⟩] ∧
    (r.seed.1.resolve "List<String>").map Prod.fst = .error (.unknown "List") ∧
    (standard.resolve "List<String>").map Prod.fst = .ok ⟨24⟩ := by
  decide +kernel

end BinderIdl.Types.Registry
