import BinderIdl.Proofs.Types.WellFormed

namespace BinderIdl.Types.Registry

open Source

inductive Operation where
  | register (d : Descriptor)
  | declareParcelable (package name : String) (site : Site)
  | declareInterface (package name : String) (oneway : Bool) (site : Site)
  | registerTemplate (t : Template)
  | resolve (text : String)
  /-- As `resolve`, without the reason of a failure. -/
  | search (text : String)
  | instantiate (t : Template) (handles : List Handle)

inductive Answer where
  | found (h : Handle)
  | done
  | nothing
  | refused (error : RegisterError)
  | unresolved (error : LookupError)

namespace Answer

def isFailure : Answer → Bool
  | found _ | done => false
  | nothing | refused _ | unresolved _ => true

/-- The answer to an operation that hands out a handle, and what it leaves
behind: a failure leaves what was there. -/
def ofResult {ε σ : Type} (failure : ε → Answer) (before : σ) :
    Except ε (Handle × σ) → Answer × σ
  | .ok (h, after) => (found h, after)
  | .error error => (failure error, before)

def ofTemplate {σ : Type} (before : σ) : Except RegisterError σ → Answer × σ
  | .ok after => (done, after)
  | .error error => (refused error, before)

end Answer

def perform (r : Registry) : Operation → Answer × Registry
  | .register d => Answer.ofResult .refused r (r.register d)
  | .declareParcelable package name site =>
      Answer.ofResult .refused r (r.declareParcelable package name site)
  | .declareInterface package name oneway site =>
      Answer.ofResult .refused r (r.declareInterface package name oneway site)
  | .registerTemplate t => Answer.ofTemplate r (r.registerTemplate t)
  | .resolve text => Answer.ofResult .unresolved r (r.resolve text)
  | .search text => Answer.ofResult (fun _ => .nothing) r (r.resolve text)
  | .instantiate t handles =>
      Answer.ofResult .unresolved r (r.instantiate t handles)

def run (r : Registry) (operations : List Operation) : Registry :=
  operations.foldl (fun r operation => (r.perform operation).2) r

/-- The answers that go with a registry that was left as it is, and with one
that has one more entry at the end. -/
inductive Effect (r : Registry) : Answer → Registry → Prop where
  | failed {answer : Answer} : answer.isFailure → Effect r answer r
  | known {h : Handle} {d : Descriptor} : r.get? h = some d →
      Effect r (.found h) r
  | repeated {t : Template} : t ∈ r.templates → Effect r .done r
  | type (d : Descriptor) : r.findQualified? d.qualifiedName = none →
      Effect r (.found ⟨r.size⟩) { r with types := r.types ++ [d] }
  | template (t : Template) : r.template? t.qualifiedName = none →
      Effect r .done { r with templates := r.templates ++ [t] }

variable {r grown : Registry} {answer : Answer}

theorem effect_of_result {ε : Type} {failure : ε → Answer}
    (failed : ∀ e, (failure e).isFailure)
    {result : Except ε (Handle × Registry)}
    (accepted : ∀ h grown,
      result = .ok (h, grown) → r.Effect (.found h) grown) :
    r.Effect (Answer.ofResult failure r result).1
      (Answer.ofResult failure r result).2 := by
  cases result with
  | error error => exact .failed (failed error)
  | ok entry => exact accepted entry.1 entry.2 rfl

theorem effect_of_eq_push {d : Descriptor} {h : Handle}
    (pushed : (h, grown) = r.push d)
    (free : r.findQualified? d.qualifiedName = none) :
    r.Effect (.found h) grown := by
  cases pushed
  exact .type d free

theorem effect_of_register_eq_ok {d : Descriptor} {h : Handle}
    (accepted : r.register d = .ok (h, grown)) : r.Effect (.found h) grown := by
  have denoted := get?_of_register_eq_ok accepted
  unfold register at accepted
  split at accepted
  · next free =>
      refine effect_of_eq_push (Except.ok.inj accepted).symm ?_
      rw [findQualified?, free]
      rfl
  · split at accepted
    · cases accepted
      exact .known denoted
    · cases accepted

theorem effect_of_instantiate_eq_ok {t : Template} {handles : List Handle}
    {h : Handle} (made : r.instantiate t handles = .ok (h, grown)) :
    r.Effect (.found h) grown := by
  obtain ⟨arguments, _, _, ⟨found, rfl⟩ | ⟨free, pushed⟩⟩ :=
    instantiate_eq_ok made
  · obtain ⟨d, known, _⟩ := get?_of_findQualified?_eq_some found
    exact .known known
  · exact effect_of_eq_push pushed (by rwa [Template.qualifiedName_apply])

theorem effect_of_resolve_eq_ok {text : String} {h : Handle}
    (resolved : r.resolve text = .ok (h, grown)) :
    r.Effect (.found h) grown := by
  rcases resolve_eq_ok resolved with ⟨rfl, d, known⟩ | ⟨t, _, handles, made⟩
  · exact .known known
  · exact effect_of_instantiate_eq_ok made

theorem effect_perform (r : Registry) (operation : Operation) :
    r.Effect (r.perform operation).1 (r.perform operation).2 := by
  cases operation with
  | register d =>
      exact effect_of_result (fun _ => rfl) fun _ _ => effect_of_register_eq_ok
  | declareParcelable =>
      exact effect_of_result (fun _ => rfl) fun _ _ => effect_of_register_eq_ok
  | declareInterface =>
      exact effect_of_result (fun _ => rfl) fun _ _ => effect_of_register_eq_ok
  | resolve text =>
      exact effect_of_result (fun _ => rfl) fun _ _ => effect_of_resolve_eq_ok
  | search text =>
      exact effect_of_result (fun _ => rfl) fun _ _ => effect_of_resolve_eq_ok
  | instantiate t handles =>
      exact effect_of_result (fun _ => rfl) fun _ _ =>
        effect_of_instantiate_eq_ok
  | registerTemplate t =>
      simp only [perform, registerTemplate]
      cases known : r.template? t.qualifiedName with
      | none => exact .template t known
      | some existing =>
          by_cases same : existing.arity = t.arity
          · simp only [same, if_true]
            exact .repeated (List.mem_of_find?_eq_some known)
          · simp only [same, if_false]
            exact .failed rfl

theorem Effect.types_grow (effect : r.Effect answer grown) :
    r.types <+: grown.types := by
  cases effect with
  | type d => exact List.prefix_append _ _
  | _ => exact List.prefix_refl _

theorem Effect.nodup (effect : r.Effect answer grown)
    (distinct : (r.types.map Descriptor.qualifiedName).Nodup) :
    (grown.types.map Descriptor.qualifiedName).Nodup := by
  cases effect with
  | type d free =>
      exact nodup_push distinct (owner?_eq_none_of_findQualified?_eq_none free)
  | _ => exact distinct

theorem template?_eq_none_iff {name : String} :
    r.template? name = none ↔
      name ∉ r.templates.map Template.qualifiedName := by
  simp [template?]

theorem nodup_append_template
    (distinct : (r.templates.map Template.qualifiedName).Nodup) {t : Template}
    (free : r.template? t.qualifiedName = none) :
    ((r.templates ++ [t]).map Template.qualifiedName).Nodup := by
  rw [List.map_append, List.map_singleton, ← List.concat_eq_append]
  exact distinct.concat (template?_eq_none_iff.mp free)

theorem Effect.nodup_templates (effect : r.Effect answer grown)
    (distinct : (r.templates.map Template.qualifiedName).Nodup) :
    (grown.templates.map Template.qualifiedName).Nodup := by
  cases effect with
  | template t free => exact nodup_append_template distinct free
  | _ => exact distinct

/-- A handle is only given out for what it denotes from then on. -/
theorem Effect.get?_of_found {h : Handle} (effect : r.Effect (.found h) grown) :
    ∃ d, grown.get? h = some d := by
  cases effect with
  | failed failure => cases failure
  | known denoted => exact ⟨_, denoted⟩
  | type d => exact ⟨d, r.get?_push d⟩

theorem types_grow_of_run (r : Registry) (operations : List Operation) :
    r.types <+: (r.run operations).types := by
  induction operations generalizing r with
  | nil => exact List.prefix_refl _
  | cons operation rest induction =>
      exact (effect_perform r operation).types_grow.trans (induction _)

theorem nodup_run (distinct : (r.types.map Descriptor.qualifiedName).Nodup)
    (operations : List Operation) :
    ((r.run operations).types.map Descriptor.qualifiedName).Nodup := by
  induction operations generalizing r with
  | nil => exact distinct
  | cons operation rest induction =>
      exact induction ((effect_perform r operation).nodup distinct)

theorem nodup_run_empty (operations : List Operation) :
    ((empty.run operations).types.map Descriptor.qualifiedName).Nodup :=
  nodup_run (r := empty) List.nodup_nil operations

theorem nodup_templates_run
    (distinct : (r.templates.map Template.qualifiedName).Nodup)
    (operations : List Operation) :
    ((r.run operations).templates.map Template.qualifiedName).Nodup := by
  induction operations generalizing r with
  | nil => exact distinct
  | cons operation rest induction =>
      exact induction ((effect_perform r operation).nodup_templates distinct)

theorem get?_run_of_eq_some {h : Handle} {d : Descriptor}
    (known : r.get? h = some d) (operations : List Operation) :
    (r.run operations).get? h = some d :=
  get?_eq_some_of_types_grow (types_grow_of_run r operations) known

theorem owner?_eq_some_iff
    (distinct : (r.types.map Descriptor.qualifiedName).Nodup) {name : String}
    {h : Handle} {d : Descriptor} :
    r.owner? name = some (h, d) ↔
      r.get? h = some d ∧ d.qualifiedName = name := by
  constructor
  · exact fun owned =>
      ⟨get?_of_owner?_eq_some owned, qualifiedName_of_owner?_eq_some owned⟩
  · rintro ⟨known, rfl⟩
    cases owned : r.owner? d.qualifiedName with
    | none =>
        exact absurd (List.mem_map_of_mem (mem_types_of_get?_eq_some known))
          (owner?_eq_none_iff.mp owned)
    | some entry =>
        obtain ⟨k, e⟩ := entry
        obtain ⟨rfl, rfl⟩ :=
          eq_of_qualifiedName_eq distinct (get?_of_owner?_eq_some owned) known
            (qualifiedName_of_owner?_eq_some owned)
        rfl

theorem findQualified?_eq_some_iff
    (distinct : (r.types.map Descriptor.qualifiedName).Nodup) {name : String}
    {h : Handle} :
    r.findQualified? name = some h ↔
      ∃ d, r.get? h = some d ∧ d.qualifiedName = name := by
  constructor
  · exact get?_of_findQualified?_eq_some
  · rintro ⟨d, known⟩
    rw [findQualified?, (owner?_eq_some_iff distinct).mpr known]
    rfl

theorem template?_eq_some_iff
    (distinct : (r.templates.map Template.qualifiedName).Nodup) {name : String}
    {t : Template} :
    r.template? name = some t ↔ t ∈ r.templates ∧ t.qualifiedName = name := by
  constructor
  · exact fun found =>
      ⟨List.mem_of_find?_eq_some found, by simpa using List.find?_some found⟩
  · rintro ⟨listed, rfl⟩
    cases found : r.template? t.qualifiedName with
    | none =>
        exact absurd (List.mem_map_of_mem listed)
          (template?_eq_none_iff.mp found)
    | some other =>
        have named : other.qualifiedName = t.qualifiedName := by
          simpa using List.find?_some found
        rw [List.inj_on_of_nodup_map distinct (List.mem_of_find?_eq_some found)
          listed named]

theorem register_of_qualifiedName_eq
    (distinct : (r.types.map Descriptor.qualifiedName).Nodup) {h : Handle}
    {d e : Descriptor} (known : r.get? h = some e)
    (same : d.qualifiedName = e.qualifiedName) :
    r.register d =
      if e = d then .ok (h, r) else .error (.redefinition d h e) := by
  rw [register, (owner?_eq_some_iff distinct).mpr ⟨known, same.symm⟩]

theorem redefinition_of_register {d added owner : Descriptor}
    {previous : Handle}
    (refused : r.register d = .error (.redefinition added previous owner)) :
    added = d ∧ r.owner? d.qualifiedName = some (previous, owner) := by
  unfold register at refused
  split at refused
  · cases refused
  · next h e owned =>
      split at refused
      · cases refused
      · cases refused
        exact ⟨rfl, owned⟩

theorem redefinition_of_perform {operation : Operation}
    {added owner : Descriptor} {previous : Handle}
    (refused : (r.perform operation).1 =
      .refused (.redefinition added previous owner)) :
    r.get? previous = some owner ∧
    owner.qualifiedName = added.qualifiedName := by
  have ofRegister {d : Descriptor}
      (refused : (Answer.ofResult .refused r (r.register d)).1 =
        .refused (.redefinition added previous owner)) : r.get? previous =
          some owner ∧ owner.qualifiedName = added.qualifiedName := by
    cases result : r.register d with
    | ok entry => simp [result, Answer.ofResult] at refused
    | error error =>
        simp only [result, Answer.ofResult, Answer.refused.injEq] at refused
        obtain ⟨rfl, owned⟩ := redefinition_of_register (refused ▸ result)
        exact ⟨get?_of_owner?_eq_some owned,
          qualifiedName_of_owner?_eq_some owned⟩
  cases operation with
  | register d => exact ofRegister refused
  | declareParcelable package name site => exact ofRegister refused
  | declareInterface package name oneway site => exact ofRegister refused
  | registerTemplate t =>
      cases result : r.registerTemplate t with
      | ok next => simp [perform, result, Answer.ofTemplate] at refused
      | error error =>
          simp only [perform, result, Answer.ofTemplate,
            Answer.refused.injEq] at refused
          subst refused
          unfold registerTemplate at result
          split at result
          · cases result
          · split at result <;> cases result
  | resolve text =>
      cases result :
        r.resolve text <;> simp [perform, result, Answer.ofResult] at refused
  | search text =>
      cases result :
        r.resolve text <;> simp [perform, result, Answer.ofResult] at refused
  | instantiate t handles =>
      cases result : r.instantiate t handles <;>
        simp [perform, result, Answer.ofResult] at refused

theorem types_grow_of_seedTypes (r : Registry) (next : Nat)
    (ds : List Descriptor) :
    r.types <+: (r.seedTypes next ds).1.types := by
  induction ds generalizing r next with
  | nil => exact List.prefix_refl _
  | cons d rest induction =>
      unfold seedTypes
      split
      · exact List.prefix_refl _
      · next h grown accepted =>
          have grew := types_grow_of_register_eq_ok accepted
          split
          · exact grew.trans (induction _ _)
          · exact grew

/-- Seeding succeeds only if every type gets the handle that it is
meant to have. -/
theorem get?_of_seedTypes {next : Nat} {ds : List Descriptor}
    (seeded : r.seedTypes next ds = (grown, none)) {position : Nat}
    {d : Descriptor} (listed : ds[position]? = some d) :
    grown.get? ⟨next + position⟩ = some d := by
  induction ds generalizing r next position with
  | nil => cases listed
  | cons first rest induction =>
      unfold seedTypes at seeded
      split at seeded
      · cases seeded
      · next h after accepted =>
          split at seeded
          · next expected =>
              cases position with
              | zero =>
                  cases Option.some.inj listed
                  have grew := types_grow_of_seedTypes after (next + 1) rest
                  rw [seeded] at grew
                  exact get?_eq_some_of_types_grow grew
                    (expected ▸ get?_of_register_eq_ok accepted)
              | succ position =>
                  have later := induction seeded listed
                  rwa [Nat.add_right_comm] at later
          · cases seeded

theorem types_of_seedTemplates (r : Registry) (ts : List Template) :
    (r.seedTemplates ts).1.types = r.types := by
  induction ts generalizing r with
  | nil => rfl
  | cons t rest induction =>
      unfold seedTemplates
      split
      · rfl
      · next grown accepted =>
          exact (induction grown).trans
            (types_of_registerTemplate_eq_ok accepted)

theorem get?_of_seed (seeded : r.seed = (grown, none)) {h : Handle}
    {d : Descriptor} (builtIn : BuiltIn.types[h.index]? = some d) :
    grown.get? h = some d := by
  unfold seed at seeded
  split at seeded
  · cases seeded
  · next after typed =>
      have there := get?_of_seedTypes typed builtIn
      have same := types_of_seedTemplates after BuiltIn.templates
      rw [seeded] at same
      rw [Nat.zero_add] at there
      exact get?_eq_some_of_types_grow (same ▸ List.prefix_refl _) there

/-- Whatever a registry was asked since it was empty, the next operation
leaves it as it is, or appends one entry under a name that was free. So a
handle that was given out denotes its type in every later state; two handles
have different names, and the handle of a name stays; a type is registered
again under its handle, while another of its name is refused with the handle
and the type that were first; and once a registry is seeded, the built-in
types stay at their handles. -/
theorem first_registration_stays (past : List Operation) :
    let r := empty.run past
    (∀ operation, r.Effect (r.perform operation).1 (r.perform operation).2) ∧
    (∀ operation h, (r.perform operation).1 = .found h →
      ∃ d, ∀ later, ((r.perform operation).2.run later).get? h = some d) ∧
    (∀ h d, r.get? h = some d → ∀ later, (r.run later).get? h = some d) ∧
    (∀ h k d e, r.get? h = some d →
      r.get? k = some e → d.qualifiedName = e.qualifiedName → h = k) ∧
    (∀ name h, r.findQualified? name = some h →
      ∀ later, (r.run later).findQualified? name = some h) ∧
    (∀ h e, r.get? h = some e → ∀ later d, d.qualifiedName = e.qualifiedName →
      (r.run later).register d =
        if e = d then .ok (h, r.run later) else .error (.redefinition d h e)) ∧
    (∀ operation added previous owner, (r.perform operation).1 =
      .refused (.redefinition added previous owner) → r.get? previous =
        some owner ∧ owner.qualifiedName = added.qualifiedName) ∧
    (∀ seeded, r.seed = (seeded, none) → ∀ later h d, BuiltIn.types[h.index]? =
      some d → (seeded.run later).get? h = some d) := by
  have distinct := nodup_run_empty past
  intro r
  refine ⟨r.effect_perform, ?_, fun h d => get?_run_of_eq_some, ?_, ?_,
    ?_, ?_, ?_⟩
  · intro operation h answer
    have effect := r.effect_perform operation
    rw [answer] at effect
    obtain ⟨d, denoted⟩ := effect.get?_of_found
    exact ⟨d, get?_run_of_eq_some denoted⟩
  · intro h k d e known other same
    exact (eq_of_qualifiedName_eq distinct known other same).1
  · intro name h found later
    obtain ⟨entry, owned, rfl⟩ := Option.map_eq_some_iff.mp found
    rw [findQualified?,
      owner?_eq_some_of_types_grow (types_grow_of_run r later) owned]
    rfl
  · intro h e known later d same
    exact register_of_qualifiedName_eq (nodup_run distinct later)
      (get?_run_of_eq_some known later) same
  · exact fun operation added previous owner => redefinition_of_perform
  · intro seeded done later h d builtIn
    exact get?_run_of_eq_some (get?_of_seed done builtIn) later

/-- A record is declared, and its name is taken for good, whatever
happens in between. -/
theorem first_registration_stays_record :
    let point : Descriptor := .parcelable "a.b" "Point" ⟨"Point.aidl", 3⟩
    let other : Descriptor := .interface "a.b" "Point" false ⟨"Other.aidl", 7⟩
    let r := empty.run [.resolve "Point",
      .declareParcelable "a.b" "Point" ⟨"Point.aidl", 3⟩]
    r.get? ⟨0⟩ = some point ∧ ∀ later, (r.run later).register other =
      .error (.redefinition other ⟨0⟩ point) := by
  intro point other r
  have known : r.get? ⟨0⟩ = some point := by decide +kernel
  obtain ⟨_, _, _, _, _, refused, _⟩ := first_registration_stays
    [.resolve "Point", .declareParcelable "a.b" "Point" ⟨"Point.aidl", 3⟩]
  exact ⟨known, fun later =>
    (refused ⟨0⟩ point known later other (by decide +kernel)).trans
      (if_neg (by decide +kernel))⟩

end BinderIdl.Types.Registry
