import BinderIdl.Proofs.Document.Acceptance
import BinderIdl.Proofs.Types.Registration

/-! References one after another. Each may add an instance to the registry, but
an instance changes neither what a later reference means nor whether it fails,
so all of them come out as each would alone, also next to references that fail
and in methods that are dropped. -/

namespace BinderIdl

open BinderIdl.Types Registry

namespace Types.Registry

variable {r later : Registry}

/-- What looking up a reference makes of a registry. -/
def after (r : Registry) (text : String) : Registry :=
  match r.resolve text with
  | .ok (_, grown) => grown
  | .error _ => r

def afterAll (r : Registry) (texts : List String) :
    Registry := texts.foldl after r

/-- What references come to that are looked up one after another. -/
def outcomes (r : Registry) :
    List String → List (Except LookupError (Handle × Registry))
  | [] => []
  | text :: rest => r.resolve text :: (r.after text).outcomes rest

theorem afterAll_append (r : Registry) (first second : List String) :
    r.afterAll (first ++ second) = (r.afterAll first).afterAll second :=
  List.foldl_append

theorem looks_after (r : Registry) (text : String) :
    Looks r (r.after text) := by
  unfold after
  split
  · next resolved => exact .single ⟨text, _, resolved⟩
  · exact .refl

theorem looks_afterAll (r : Registry) (texts : List String) :
    Looks r (r.afterAll texts) := by
  induction texts generalizing r with
  | nil => exact .refl
  | cons text rest induction =>
      exact (looks_after r text).trans (induction (r.after text))

theorem Arguments.samePart (grew : r.types <+: later.types)
    {handles : List Handle} {arguments : List Descriptor}
    (known : r.Arguments handles arguments) :
    List.Forall₂ (SamePart r later) handles handles := by
  apply List.forall₂_same.mpr
  intro h listed
  obtain ⟨d, _, denoted, plain⟩ := exists_mem_of_forall₂ known listed
  exact ⟨d, denoted, get?_eq_some_of_types_grow grew denoted, plain⟩

theorem matched_instantiate_of_types_grow (grew : r.types <+: later.types)
    (t : Template) {handles : List Handle}
    (known : ∀ h ∈ handles, ∃ d, r.get? h = some d) :
    Matched SameName (r.instantiate t handles)
      (later.instantiate t handles) := by
  cases accepted : handles.mapM r.argument with
  | ok arguments =>
      exact matched_instantiate t
        ((arguments_of_mapM_eq_ok accepted).samePart grew)
  | error error =>
      -- What cannot stand as an argument cannot later either, and no name is
      -- looked up.
      unfold Registry.instantiate
      rw [mapM_argument_of_types_grow grew known, accepted]
      split <;> exact .error _

/-- Behind any number of references, a reference means a type of the same name,
or it fails for the same reason. -/
theorem Looks.resolve_matched (looks : Looks r later) (text : String) :
    Matched SameName (r.resolve text) (later.resolve text) := by
  have grew := looks.types_grow
  apply matched_resolve (P := fun h k => (∃ d, r.get? h = some d) ∧ h = k)
  case names =>
    intro name free
    rw [looks.resolveName_eq free]
    cases found : r.resolveName name with
    | error error => exact .error error
    | ok h => exact .ok ⟨get?_of_resolveName_eq_ok found, rfl⟩
  case templates => exact fun base _ _ => (looks.resolveTemplate_eq base).symm
  case plain =>
    rintro h _ ⟨⟨d, known⟩, rfl⟩
    exact ⟨d, d, known, get?_eq_some_of_types_grow grew known, rfl⟩
  case instances =>
    intro t _ handles others parts
    obtain ⟨known, same⟩ := (List.forall₂_and_left _ _).mp parts
    obtain rfl := List.forall₂_eq_eq_eq ▸ same
    exact matched_instantiate_of_types_grow grew t known

theorem Looks.outcomes_matched (looks : Looks r later) (texts : List String) :
    List.Forall₂ (fun text outcome => Matched SameName (r.resolve text) outcome)
      texts (later.outcomes texts) := by
  induction texts generalizing later with
  | nil => exact .nil
  | cons text rest induction =>
      exact .cons (looks.resolve_matched text)
        (induction (looks.trans (looks_after later text)))

end Types.Registry

namespace Document

variable {doc : Document} {r now final later : Registry}

def Method.references (m : Method) : List TypeText :=
  m.returnType :: m.parameters.map Parameter.type

def Interface.references (i : Interface) :
    List TypeText := i.methods.flatMap Method.references

/-- The report on a reference that the registry cannot resolve. -/
def reportOn (doc : Document) (r : Registry) (type : TypeText) :
    Option Diagnostic :=
  match r.resolve type.name with
  | .ok _ => none
  | .error error => some (error.report (doc.site type.line))

/-- The registry can resolve every reference of the method. -/
def Method.resolvable (r : Registry) (m : Method) : Bool :=
  m.references.all fun type => (r.resolve type.name).isOk

/-- In the final registry, the handle belongs to a type of the name that the
reference alone means in the first one. -/
structure Means (r final : Registry) (type : TypeText) (t : ResolvedType) :
    Prop where
  isArray : t.isArray = type.isArray
  named : ∃ alone,
    r.resolve type.name = .ok alone ∧ SameName alone (t.handle, final)

structure MeansParameter (r final : Registry) (p : Parameter)
    (q : ResolvedParameter) : Prop where
  name : q.name = p.name
  direction : q.direction = p.direction
  type : Means r final p.type q.type
  line : q.line = p.line

structure MeansMethod (r final : Registry) (owner : Interface) (m : Method)
    (n : ResolvedMethod) : Prop where
  name : n.name = m.name
  line : n.line = m.line
  oneway : n.oneway = (m.oneway || owner.oneway)
  returnType : Means r final m.returnType n.returnType
  parameters : List.Forall₂ (MeansParameter r final) m.parameters n.parameters

/-- The methods are those that can be resolved, each as it would be alone. -/
structure MeansInterface (doc : Document) (r final : Registry) (i : Interface)
    (j : ResolvedInterface) : Prop where
  handle : acceptedHandle? doc r i = some j.handle
  line : j.line = i.line
  methods : List.Forall₂ (MeansMethod r final i)
    (i.methods.filter (Method.resolvable r)) j.methods

theorem Means.mono (grew : final.types <+: later.types) {type : TypeText}
    {t : ResolvedType} (means : Means r final type t) :
    Means r later type t := by
  obtain ⟨isArray, alone, resolved, d, e, known, there, same⟩ := means
  exact ⟨isArray, alone, resolved, d, e, known,
    get?_eq_some_of_types_grow grew there, same⟩

theorem MeansParameter.mono (grew : final.types <+: later.types) {p : Parameter}
    {q : ResolvedParameter} (means : MeansParameter r final p q) :
    MeansParameter r later p q :=
  { means with type := means.type.mono grew }

theorem MeansMethod.mono (grew : final.types <+: later.types)
    {owner : Interface} {m : Method} {n : ResolvedMethod}
    (means : MeansMethod r final owner m n) :
    MeansMethod r later owner m n :=
  { means with
    returnType := means.returnType.mono grew
    parameters := means.parameters.imp fun _ _ => MeansParameter.mono grew }

/-- A part of a document resolved on a registry of now: its references are
looked up one after another, and those are reported that the registry at first
cannot resolve. -/
structure Resolved.Follows {α : Type} (doc : Document) (r now : Registry)
    (types : List TypeText) (resolved : Resolved α) : Prop where
  registry : resolved.registry = now.afterAll (types.map TypeText.name)
  reports : resolved.reports = types.filterMap (reportOn doc r)

theorem Resolved.Follows.looks {α : Type} {types : List TypeText}
    {resolved : Resolved α} (follows : resolved.Follows doc r now types) :
    Looks now resolved.registry :=
  follows.registry ▸ looks_afterAll now _

theorem Resolved.Follows.append {α β γ : Type} {types more : List TypeText}
    {first : Resolved α} {second : Resolved β}
    (one : first.Follows doc r now types)
    (two : second.Follows doc r first.registry more) (result : γ) :
    Resolved.Follows doc r now (types ++ more)
      ⟨second.registry, first.reports ++ second.reports, result⟩ where
  registry := by
    rw [two.registry, one.registry, List.map_append, afterAll_append]
  reports := by rw [one.reports, two.reports, List.filterMap_append]

/-- The part is there iff each of its references alone could be
resolved at first. -/
structure Resolved.Alone {α : Type} (doc : Document) (r now : Registry)
    (types : List TypeText) (R : Registry → α → Prop)
    (resolved : Resolved (Option α)) :
    Prop extends resolved.Follows doc r now types where
  isSome :
    resolved.result.isSome = types.all fun type => (r.resolve type.name).isOk
  means : ∀ a, resolved.result = some a → R resolved.registry a

theorem resolveType_alone (looks : Looks r now) (doc : Document)
    (type : TypeText) :
    (resolveType doc now type).Alone doc r now [type] fun final =>
      Means r final type := by
  have matched := looks.resolve_matched type.name
  generalize alone : r.resolve type.name = first at matched
  generalize found : now.resolve type.name = second at matched
  cases matched with
  | error error =>
      refine ⟨⟨?_, ?_⟩, ?_, ?_⟩ <;> simp [resolveType, afterAll, after,
        reportOn, alone, found, Except.isOk, Except.toBool]
  | @ok entry other same =>
      refine ⟨⟨?_, ?_⟩, ?_, fun t here => ?_⟩
      case refine_4 =>
        simp only [resolveType, found, Option.some.injEq] at here ⊢
        exact here ▸ ⟨rfl, entry, alone, same⟩
      all_goals simp [resolveType, afterAll, after, reportOn, alone, found,
        Except.isOk, Except.toBool]

theorem resolveParameter_alone (looks : Looks r now) (doc : Document)
    (p : Parameter) :
    (resolveParameter doc now p).Alone doc r now [p.type]
      fun final => MeansParameter r final p := by
  have type := resolveType_alone looks doc p.type
  refine ⟨⟨type.registry, type.reports⟩,
    (Option.isSome_map ..).trans type.isSome, ?_⟩
  intro q here
  obtain ⟨t, resolved, rfl⟩ := Option.map_eq_some_iff.mp here
  exact ⟨rfl, rfl, type.means t resolved, rfl⟩

theorem Resolved.Alone.join {α β γ : Type} {types more : List TypeText}
    {R : Registry → α → Prop} {S : Registry → β → Prop}
    {T : Registry → γ → Prop} {first : Resolved (Option α)}
    {second : Resolved (Option β)} {both : α → β → γ}
    (one : first.Alone doc r now types R)
    (two : second.Alone doc r first.registry more S)
    (together : ∀ a b,
      R first.registry a → S second.registry b → T second.registry (both a b)) :
    Resolved.Alone doc r now (types ++ more) T
      { registry := second.registry
        reports := first.reports ++ second.reports
        result := do return both (← first.result) (← second.result) } where
  toFollows := one.toFollows.append two.toFollows _
  isSome := by
    rw [List.all_append, ← one.isSome, ← two.isSome]
    cases first.result <;> cases second.result <;> rfl
  means := by
    intro c here
    simp only [Option.bind_eq_bind, Option.bind_eq_some_iff] at here
    obtain ⟨a, left, b, right, same⟩ := here
    cases same
    exact together a b (one.means a left) (two.means b right)

theorem resolveParameters_alone (looks : Looks r now) (doc : Document)
    (parameters : List Parameter) :
    (resolveParameters doc now parameters).Alone doc r now
      (parameters.map Parameter.type) fun final =>
        List.Forall₂ (MeansParameter r final) parameters := by
  induction parameters generalizing now with
  | nil => exact ⟨⟨rfl, rfl⟩, rfl, by rintro _ ⟨⟩; exact .nil⟩
  | cons p rest induction =>
      have first := resolveParameter_alone looks doc p
      have others := induction (looks.trans first.looks)
      exact first.join others fun _ _ here later =>
        .cons (here.mono others.looks.types_grow) later

theorem resolveMethod_alone (looks : Looks r now) (doc : Document)
    (owner : Interface) (m : Method) :
    (resolveMethod doc owner now m).Alone doc r now m.references
      fun final => MeansMethod r final owner m := by
  have returned := resolveType_alone looks doc m.returnType
  have parameters :=
    resolveParameters_alone (looks.trans returned.looks) doc m.parameters
  exact returned.join parameters fun _ _ here later =>
    ⟨rfl, rfl, rfl, here.mono parameters.looks.types_grow, later⟩

/-- What is made of the parts that are kept, each as it would be alone. -/
structure Resolved.AllAlone {α β : Type} (doc : Document) (r now : Registry)
    (types : List TypeText) (kept : List α) (R : Registry → α → β → Prop)
    (resolved : Resolved (List β)) :
    Prop extends resolved.Follows doc r now types where
  means : List.Forall₂ (R resolved.registry) kept resolved.result

theorem resolveMethods_alone (looks : Looks r now) (doc : Document)
    (owner : Interface) (methods : List Method) :
    (resolveMethods doc owner now methods).AllAlone doc r now
      (methods.flatMap Method.references) (methods.filter (Method.resolvable r))
      fun final => MeansMethod r final owner := by
  induction methods generalizing now with
  | nil => exact ⟨⟨rfl, rfl⟩, .nil⟩
  | cons m rest induction =>
      have first := resolveMethod_alone looks doc owner m
      have others := induction (looks.trans first.looks)
      refine ⟨first.toFollows.append others.toFollows _, ?_⟩
      have resolvable :
          m.resolvable r = (resolveMethod doc owner now m).result.isSome :=
        first.isSome.symm
      simp only [resolveMethods]
      cases result : (resolveMethod doc owner now m).result with
      | none =>
          rw [List.filter_cons_of_neg (by simp [resolvable, result])]
          exact others.means
      | some n =>
          rw [List.filter_cons_of_pos (by simp [resolvable, result])]
          exact .cons ((first.means n result).mono others.looks.types_grow)
            others.means

/-- An instance is no interface, so none that was made on the way is
taken for one. -/
theorem acceptedHandle?_push {d : Descriptor} (generic : d.kind = .generic)
    (i : Interface) :
    acceptedHandle? doc (r.push d).2 i = acceptedHandle? doc r i := by
  apply Option.ext
  intro h
  rw [acceptedHandle?_eq_some_iff, acceptedHandle?_eq_some_iff, owner?_push]
  cases r.owner? (qualify doc.package i.name) with
  | some entry => rfl
  | none =>
      rw [Option.none_or]
      constructor
      · rintro ⟨e, owned, interface, _⟩
        split at owned
        · cases owned
          rw [generic] at interface
          cases interface
        · cases owned
      · rintro ⟨e, owned, _⟩
        cases owned

theorem acceptedHandle?_of_looks (doc : Document) (looks : Looks r later)
    (i : Interface) :
    acceptedHandle? doc later i = acceptedHandle? doc r i := by
  refine looks.keeps (P := fun now => acceptedHandle? doc now i =
      acceptedHandle? doc r i) rfl fun before made => ?_
  obtain ⟨arguments, _, _, ⟨_, rfl⟩ | ⟨_, pushed⟩⟩ := instantiate_eq_ok made
  · exact before
  · obtain ⟨rfl, rfl⟩ := Prod.mk.inj pushed
    exact (acceptedHandle?_push (kind_apply _ _ arguments) i).trans before

theorem resolveInterfaces_alone (looks : Looks r now) (doc : Document)
    (interfaces : List Interface) :
    let kept := interfaces.filter fun i => (acceptedHandle? doc r i).isSome
    (resolveInterfaces doc now interfaces).AllAlone doc r now
      (kept.flatMap Interface.references) kept fun final =>
        MeansInterface doc r final := by
  induction interfaces generalizing now with
  | nil => exact ⟨⟨rfl, rfl⟩, .nil⟩
  | cons i rest induction =>
      dsimp only at induction ⊢
      have same := acceptedHandle?_of_looks doc looks i
      cases accepted : acceptedHandle? doc r i with
      | none =>
          rw [List.filter_cons_of_neg (by simp [accepted]), resolveInterfaces,
            same, accepted]
          exact induction looks
      | some h =>
          have first := resolveMethods_alone looks doc i i.methods
          have others := induction (looks.trans first.looks)
          rw [List.filter_cons_of_pos (by simp [accepted]), resolveInterfaces,
            same, accepted]
          refine ⟨first.toFollows.append others.toFollows _, ?_⟩
          refine .cons ⟨accepted, rfl, first.means.imp fun _ _ => ?_⟩
            others.means
          exact MeansMethod.mono others.looks.types_grow

/-- Resolution looks up the references of the accepted interfaces one after
another, and each comes out as it would alone on the registry that there was
before. Those that fail are reported, each once and in their order; the methods
that stay are those without one, and their types have the names that their
references alone mean. -/
theorem references_resolve_alone (r : Registry) (doc : Document) :
    let interfaces :=
      doc.interfaces.filter fun i => (acceptedHandle? doc r i).isSome
    let references := interfaces.flatMap Interface.references
    let names := references.map TypeText.name
    let resolved := doc.resolve r
    resolved.registry = r.afterAll names ∧
    List.Forall₂ (fun name outcome => Matched SameName (r.resolve name) outcome)
      names (r.outcomes names) ∧
    resolved.reports = references.filterMap (reportOn doc r) ∧ List.Forall₂
      (MeansInterface doc r resolved.registry) interfaces resolved.result := by
  intro interfaces references names resolved
  obtain ⟨⟨registry, reports⟩, means⟩ :=
    resolveInterfaces_alone .refl doc doc.interfaces
  exact ⟨registry, Looks.outcomes_matched .refl names, reports, means⟩

end Document

end BinderIdl
