import BinderIdl.Types.BuiltIn
import BinderIdl.Types.Lookup
import Mathlib.Data.List.Forall2
import Mathlib.Logic.Relation

/-! How a registry grows. Every operation leaves the types alone or appends one,
so what a handle denotes never changes. The reachable registries are those that
the operations make of the standard one. -/

namespace BinderIdl

theorem bind_eq_ok_iff {ε α β : Type} {x : Except ε α} {f : α → Except ε β}
    {b : β} :
    x >>= f = .ok b ↔ ∃ a, x = .ok a ∧ f a = .ok b := by
  cases x <;> simp [bind, Except.bind]

theorem map_eq_ok_iff {ε α β : Type} {x : Except ε α} {f : α → β} {b : β} :
    x.map f = .ok b ↔ ∃ a, x = .ok a ∧ f a = b := by
  cases x <;> simp [Except.map]

/-- A step that may fail goes through a whole list iff it succeeds on
every member. -/
theorem mapM_eq_ok_iff {ε α β : Type} {f : α → Except ε β} {xs : List α}
    {ys : List β} :
    xs.mapM f = .ok ys ↔ List.Forall₂ (fun x y => f x = .ok y) xs ys := by
  induction xs generalizing ys with
  | nil => cases ys <;> simp [pure, Except.pure]
  | cons x rest induction =>
      rw [List.mapM_cons]
      cases first : f x with
      | error error => cases ys <;> simp [bind, Except.bind, first]
      | ok y =>
          cases others : rest.mapM f with
          | error error =>
              cases ys <;> simp [bind, Except.bind, ← induction, others, first]
          | ok more =>
              cases ys <;> simp [bind, Except.bind, pure, Except.pure,
                ← induction, others, first]

theorem exists_mem_of_forall₂ {α β : Type} {R : α → β → Prop} {xs : List α}
    {ys : List β} (related : List.Forall₂ R xs ys) {x : α} (listed : x ∈ xs) :
    ∃ y ∈ ys, R x y := by
  induction related with
  | nil => cases listed
  | cons here _ induction =>
      rcases List.mem_cons.mp listed with rfl | later
      · exact ⟨_, List.mem_cons_self, here⟩
      · obtain ⟨y, member, there⟩ := induction later
        exact ⟨y, List.mem_cons_of_mem _ member, there⟩

theorem map_eq_of_forall₂ {α β γ : Type} {R : α → β → Prop} {f : α → γ}
    {g : β → γ} {xs : List α} {ys : List β} (related : List.Forall₂ R xs ys)
    (each : ∀ {x y}, R x y → f x = g y) : xs.map f = ys.map g := by
  induction related with
  | nil => rfl
  | cons here _ induction => exact congrArg₂ List.cons (each here) induction

theorem exists_forall₂ {α β : Type} {R : α → β → Prop} {xs : List α}
    (each : ∀ x ∈ xs, ∃ y, R x y) : ∃ ys, List.Forall₂ R xs ys := by
  induction xs with
  | nil => exact ⟨[], .nil⟩
  | cons x rest induction =>
      obtain ⟨⟨y, here⟩, later⟩ := List.forall_mem_cons.mp each
      obtain ⟨ys, others⟩ := induction later
      exact ⟨y :: ys, .cons here others⟩

theorem forall₂_of_mem {α β : Type} {R S : α → β → Prop} {xs : List α}
    {ys : List β} (related : List.Forall₂ R xs ys)
    (step : ∀ x ∈ xs, ∀ y, R x y → S x y) :
    List.Forall₂ S xs ys := by
  induction related with
  | nil => exact .nil
  | cons here _ induction =>
      exact .cons (step _ List.mem_cons_self _ here)
        (induction fun x listed => step x (List.mem_cons_of_mem _ listed))

namespace Types.Registry

open Source

/-- One successful operation; an operation that fails leaves no new
registry behind. -/
inductive Step : Registry → Registry → Prop where
  | parcelable {r grown : Registry} {package name : String} {site : Site}
      {h : Handle} : r.declareParcelable package name site = .ok (h, grown) →
        Step r grown
  | interface {r grown : Registry} {package name : String} {oneway : Bool}
      {site : Site} {h : Handle} : r.declareInterface package name oneway site =
        .ok (h, grown) → Step r grown
  | template {r grown : Registry} {t : Template} :
      r.registerTemplate t = .ok grown → Step r grown
  | resolve {r grown : Registry} {text : String} {h : Handle} :
      r.resolve text = .ok (h, grown) → Step r grown
  | instantiate {r grown : Registry} {t : Template} {handles : List Handle}
      {h : Handle} : r.instantiate t handles = .ok (h, grown) → Step r grown

/-- What any number of operations make of a registry. -/
def Grows : Registry → Registry → Prop := Relation.ReflTransGen Step

def Reachable (r : Registry) : Prop := Grows standard r

theorem Grows.refl (r : Registry) : Grows r r := Relation.ReflTransGen.refl

theorem Grows.trans {first second third : Registry} (early : Grows first second)
    (late : Grows second third) : Grows first third :=
  Relation.ReflTransGen.trans early late

theorem Step.grows {r grown : Registry} (step : Step r grown) : Grows r grown :=
  Relation.ReflTransGen.single step

theorem Reachable.grows {r grown : Registry} (reachable : Reachable r)
    (growth : Grows r grown) : Reachable grown :=
  Grows.trans reachable growth

theorem reachable_standard : Reachable standard := Grows.refl standard

/-- The handles of arguments with the types that they denote, none of them
an instance. -/
def Arguments (r : Registry) : List Handle → List Descriptor → Prop :=
  List.Forall₂ fun h d => r.get? h = some d ∧ d.kind ≠ .generic

theorem argument_eq_ok_iff {r : Registry} {h : Handle} {d : Descriptor} :
    r.argument h = .ok d ↔ r.get? h = some d ∧ d.kind ≠ .generic := by
  unfold argument
  cases known : r.get? h with
  | none => simp
  | some type =>
      by_cases generic : type.kind = .generic
      · simp only [generic, if_true, reduceCtorEq, false_iff, Option.some.injEq]
        rintro ⟨rfl, plain⟩
        exact plain generic
      · simp only [generic, if_false, Except.ok.injEq, Option.some.injEq]
        constructor
        · rintro rfl
          exact ⟨rfl, generic⟩
        · exact fun same => same.1

theorem arguments_of_mapM_eq_ok {r : Registry} {handles : List Handle}
    {arguments : List Descriptor}
    (accepted : handles.mapM r.argument = .ok arguments) :
    r.Arguments handles arguments :=
  (mapM_eq_ok_iff.mp accepted).imp fun _ _ => argument_eq_ok_iff.mp

theorem arguments_unique {r : Registry} {handles : List Handle}
    {arguments others : List Descriptor} (known : r.Arguments handles arguments)
    (also : r.Arguments handles others) : arguments = others :=
  List.right_unique_forall₂' (fun _ _ _ left right =>
    Option.some.inj (left.1.symm.trans right.1)) known also

theorem instantiate_eq_ok {r grown : Registry} {t : Template}
    {handles : List Handle} {h : Handle}
    (made : r.instantiate t handles = .ok (h, grown)) :
    ∃ arguments, handles.length = t.arity ∧ r.Arguments handles arguments ∧
      (r.findQualified? (t.instanceName arguments) = some h ∧ grown = r ∨
        r.findQualified? (t.instanceName arguments) = none ∧
          (h, grown) = r.push (t.apply handles arguments)) := by
  unfold instantiate at made
  split at made
  · cases made
  · next arity =>
      split at made
      · cases made
      · next arguments accepted =>
          refine ⟨arguments, not_not.mp arity,
            arguments_of_mapM_eq_ok accepted, ?_⟩
          split at made
          · next found =>
              cases made
              exact .inl ⟨found, rfl⟩
          · next free => exact .inr ⟨free, (Except.ok.inj made).symm⟩

theorem get?_of_findQualified?_eq_some {r : Registry} {name : String}
    {h : Handle} (found : r.findQualified? name = some h) :
    ∃ d, r.get? h = some d ∧ d.qualifiedName = name := by
  obtain ⟨⟨owner, d⟩, owned, rfl⟩ := Option.map_eq_some_iff.mp found
  exact ⟨d, get?_of_owner?_eq_some owned, qualifiedName_of_owner?_eq_some owned⟩

theorem owner?_eq_none_of_findQualified?_eq_none {r : Registry} {name : String}
    (free : r.findQualified? name = none) : r.owner? name = none :=
  Option.map_eq_none_iff.mp free

theorem get?_of_resolveName_eq_ok {r : Registry} {name : String} {h : Handle}
    (resolved : r.resolveName name = .ok h) : ∃ d, r.get? h = some d := by
  unfold resolveName at resolved
  split at resolved
  · next found =>
      cases resolved
      obtain ⟨d, known, _⟩ := get?_of_findQualified?_eq_some found
      exact ⟨d, known⟩
  · split at resolved
    · cases resolved
    · next entry single =>
        cases resolved
        have listed : entry ∈ r.named name := by simp [single]
        exact ⟨entry.2, mem_entries_iff.mp (List.mem_filter.mp listed).1⟩
    · cases resolved

theorem get?_of_instantiate_eq_ok {r grown : Registry} {t : Template}
    {handles : List Handle} {h : Handle}
    (made : r.instantiate t handles = .ok (h, grown)) :
    ∃ d, grown.get? h = some d := by
  obtain ⟨arguments, _, _, ⟨found, rfl⟩ | ⟨_, pushed⟩⟩ := instantiate_eq_ok made
  · obtain ⟨d, known, _⟩ := get?_of_findQualified?_eq_some found
    exact ⟨d, known⟩
  · obtain ⟨rfl, rfl⟩ := Prod.mk.inj pushed
    exact ⟨_, r.get?_push _⟩

theorem qualifiedName_of_template?_eq_some {r : Registry} {name : String}
    {t : Template} (found : r.template? name = some t) :
    t.qualifiedName = name := by
  simpa using List.find?_some found

theorem mem_of_resolveTemplate_eq_ok {r : Registry} {name : String}
    {t : Template} (resolved : r.resolveTemplate name = .ok t) :
    t ∈ r.templates ∧ (name = t.qualifiedName ∨ name = t.name) := by
  unfold resolveTemplate at resolved
  split at resolved
  · next found =>
      cases resolved
      exact ⟨List.mem_of_find?_eq_some found,
        .inl (qualifiedName_of_template?_eq_some found).symm⟩
  · split at resolved
    · cases resolved
    · next single =>
        cases resolved
        have listed : t ∈ r.templates.filter fun u => u.name == name := by
          simp [single]
        obtain ⟨member, named⟩ := List.mem_filter.mp listed
        exact ⟨member, .inr (beq_iff_eq.mp named).symm⟩
    · cases resolved

theorem resolve_eq_ok {r grown : Registry} {text : String} {h : Handle}
    (resolved : r.resolve text = .ok (h, grown)) :
    (grown = r ∧ ∃ d, r.get? h = some d) ∨
    ∃ t ∈ r.templates, ∃ handles, r.instantiate t handles = .ok (h, grown) := by
  rcases resolve_cases resolved with
    ⟨_, _, found, same⟩ | ⟨_, _, t, handles, _, template, _, made⟩
  · exact .inl ⟨same, get?_of_resolveName_eq_ok found⟩
  · exact .inr ⟨t, (mem_of_resolveTemplate_eq_ok template).1, handles, made⟩

theorem get?_of_resolve_eq_ok {r grown : Registry} {text : String} {h : Handle}
    (resolved : r.resolve text = .ok (h, grown)) :
    ∃ d, grown.get? h = some d := by
  rcases resolve_eq_ok resolved with ⟨rfl, known⟩ | ⟨t, _, handles, made⟩
  · exact known
  · exact get?_of_instantiate_eq_ok made

theorem findQualified?_of_register_eq_ok {r grown : Registry} {d : Descriptor}
    {h : Handle} (accepted : r.register d = .ok (h, grown)) :
    grown.findQualified? d.qualifiedName = some h := by
  unfold register at accepted
  split at accepted
  · next free =>
      have pushed := Except.ok.inj accepted
      have owned := r.owner?_push d d.qualifiedName
      rw [pushed, free, if_pos (beq_self_eq_true _)] at owned
      rw [findQualified?, owned]
      rfl
  · next owned =>
      split at accepted
      · cases accepted
        rw [findQualified?, owned]
        rfl
      · cases accepted

theorem types_grow_of_eq_push {r grown : Registry} {d : Descriptor} {h : Handle}
    (pushed : (h, grown) = r.push d) : r.types <+: grown.types := by
  cases pushed
  exact ⟨[d], rfl⟩

theorem types_grow_of_register_eq_ok {r grown : Registry} {d : Descriptor}
    {h : Handle} (accepted : r.register d = .ok (h, grown)) :
    r.types <+: grown.types := by
  rcases eq_or_push_of_register_eq_ok accepted with rfl | pushed
  · exact List.prefix_refl _
  · exact types_grow_of_eq_push pushed

theorem types_of_registerTemplate_eq_ok {r grown : Registry} {t : Template}
    (accepted : r.registerTemplate t = .ok grown) : grown.types = r.types := by
  unfold registerTemplate at accepted
  split at accepted
  · cases accepted
    rfl
  · split at accepted
    · cases accepted
      rfl
    · cases accepted

theorem Step.types_grow {r grown : Registry} (step : Step r grown) :
    r.types <+: grown.types := by
  cases step with
  | parcelable accepted => exact types_grow_of_register_eq_ok accepted
  | interface accepted => exact types_grow_of_register_eq_ok accepted
  | template accepted =>
      exact types_of_registerTemplate_eq_ok accepted ▸ List.prefix_refl _
  | resolve resolved =>
      rcases eq_or_push_of_resolve_eq_ok resolved with rfl | ⟨d, pushed⟩
      · exact List.prefix_refl _
      · exact types_grow_of_eq_push pushed
  | instantiate made =>
      rcases eq_or_push_of_instantiate_eq_ok made with rfl | ⟨d, pushed⟩
      · exact List.prefix_refl _
      · exact types_grow_of_eq_push pushed

theorem Grows.types_grow {r grown : Registry} (growth : Grows r grown) :
    r.types <+: grown.types := by
  induction growth with
  | refl => exact List.prefix_refl _
  | tail _ step induction => exact induction.trans step.types_grow

/-- After a type was appended, a handle denotes what it did before, or it is the
new one. -/
theorem get?_push_eq_some {r : Registry} {d e : Descriptor} {h : Handle}
    (known : (r.push d).2.get? h = some e) :
    r.get? h = some e ∨ h = ⟨r.size⟩ ∧ e = d := by
  rwa [← mem_entries_iff, entries_push, List.mem_append, List.mem_singleton,
    Prod.mk.injEq, mem_entries_iff] at known

theorem get?_eq_some_of_types_grow {r grown : Registry}
    (grew : r.types <+: grown.types) {h : Handle} {d : Descriptor}
    (known : r.get? h = some d) : grown.get? h = some d := by
  obtain ⟨added, types⟩ := grew
  unfold get? at known ⊢
  obtain ⟨bound, _⟩ := List.getElem?_eq_some_iff.mp known
  rw [← types, List.getElem?_append_left bound]
  exact known

theorem Grows.get?_eq_some {r grown : Registry} (growth : Grows r grown)
    {h : Handle} {d : Descriptor} (known : r.get? h = some d) :
    grown.get? h = some d :=
  get?_eq_some_of_types_grow growth.types_grow known

/-- The first type of a name stays the one that is found. -/
theorem owner?_eq_some_of_types_grow {r grown : Registry}
    (grew : r.types <+: grown.types) {name : String}
    {entry : Handle × Descriptor} (owned : r.owner? name = some entry) :
    grown.owner? name = some entry := by
  obtain ⟨added, types⟩ := grew
  unfold owner? entries at owned ⊢
  rw [← types, List.zipIdx_append, List.map_append, List.find?_append, owned]
  rfl

theorem Grows.owner?_eq_some {r grown : Registry} (growth : Grows r grown)
    {name : String} {entry : Handle × Descriptor}
    (owned : r.owner? name = some entry) :
    grown.owner? name = some entry :=
  owner?_eq_some_of_types_grow growth.types_grow owned

theorem Grows.resolve {r grown : Registry} {text : String} {h : Handle}
    (resolved : r.resolve text = .ok (h, grown)) : Grows r grown :=
  (Step.resolve resolved).grows

end Types.Registry

end BinderIdl
