import BinderIdl.Proofs.Types.Naming

namespace BinderIdl.Types.Registry

/-- Types have different names, and so do templates; what is no instance has an
unmarked name, and every instance is one of a template that is there, at types
that are no instances. -/
structure Canonical (r : Registry) : Prop where
  distinct : (r.types.map Descriptor.qualifiedName).Nodup
  templatesDistinct : (r.templates.map Template.qualifiedName).Nodup
  templatesNamed : ∀ t ∈ r.templates, WellNamed t.package t.name
  plain : ∀ {h : Handle} {d : Descriptor},
    r.get? h = some d → d.kind ≠ .generic → Unmarked d.qualifiedName
  ofTemplate : ∀ {h : Handle} {d : Descriptor},
    r.get? h = some d → d.kind = .generic →
    ∃ t ∈ r.templates, ∃ handles arguments, handles.length = t.arity ∧
      r.Arguments handles arguments ∧ d = t.apply handles arguments

theorem canonical_standard : Canonical standard where
  distinct := wellFormed_standard.distinct
  templatesDistinct := by decide +kernel
  templatesNamed := by
    simp only [standard, BuiltIn.templates, List.forall_mem_cons,
      List.not_mem_nil, false_imp_iff, implies_true, and_true]
    have named (name : String) (list : name = "List" ∨ name = "Map") :
        WellNamed "java.util" name := by
      constructor
      · rcases list with rfl | rfl <;> decide
      · decide +kernel
      · rcases list with rfl | rfl <;> decide +kernel
    exact ⟨named _ (.inl rfl), named _ (.inr rfl)⟩
  plain := by
    intro h d known _
    have all : ∀ b ∈ BuiltIn.types, Unmarked b.qualifiedName := by
      decide +kernel
    exact all d (mem_types_of_get?_eq_some known)
  ofTemplate := by
    intro h d known generic
    exact absurd generic
      (kind_ne_generic_of_mem_types d (mem_types_of_get?_eq_some known))

variable {r grown : Registry}

theorem Canonical.unmarked_template (canonical : Canonical r) {t : Template}
    (member : t ∈ r.templates) : Unmarked t.qualifiedName :=
  let named := canonical.templatesNamed t member
  named.package.qualify named.name

theorem Canonical.unmarked_argument (canonical : Canonical r)
    {handles : List Handle} {arguments : List Descriptor}
    (known : r.Arguments handles arguments) :
    ∀ d ∈ arguments, Unmarked d.qualifiedName := by
  induction known with
  | nil => exact List.forall_mem_nil _
  | cons here _ induction =>
      exact List.forall_mem_cons.mpr ⟨canonical.plain here.1 here.2, induction⟩

theorem Canonical.arguments_eq (canonical : Canonical r)
    {handles others : List Handle} {arguments otherArguments : List Descriptor}
    (known : r.Arguments handles arguments)
    (otherKnown : r.Arguments others otherArguments)
    (same : arguments.map Descriptor.qualifiedName =
      otherArguments.map Descriptor.qualifiedName) :
    handles = others ∧ arguments = otherArguments := by
  induction known generalizing others otherArguments with
  | nil =>
      rw [List.map_nil, eq_comm, List.map_eq_nil_iff] at same
      subst same
      cases otherKnown
      exact ⟨rfl, rfl⟩
  | cons here _ induction =>
      cases otherKnown with
      | nil => cases same
      | cons there rest =>
          obtain ⟨first, others⟩ := List.cons.inj same
          obtain ⟨rfl, rfl⟩ :=
            eq_of_qualifiedName_eq canonical.distinct here.1 there.1 first
          obtain ⟨rfl, rfl⟩ := induction rest others
          exact ⟨rfl, rfl⟩

theorem Canonical.eq_apply (canonical : Canonical r) {t : Template}
    (member : t ∈ r.templates) {handles : List Handle}
    {arguments : List Descriptor} (arity : handles.length = t.arity)
    (known : r.Arguments handles arguments) {h : Handle} {d : Descriptor}
    (denoted : r.get? h = some d)
    (named : d.qualifiedName = t.instanceName arguments) :
    d = t.apply handles arguments := by
  have generic : d.kind = .generic := by
    by_contra plain
    refine (canonical.plain denoted plain).opening_not_mem ?_
    rw [named]
    exact t.opening_mem_instanceName arguments
  obtain ⟨u, listed, others, otherArguments, otherArity, otherKnown, rfl⟩ :=
    canonical.ofTemplate denoted generic
  rw [Template.qualifiedName_apply] at named
  obtain ⟨base, parts⟩ :=
    Template.instanceName_inj (canonical.unmarked_template listed)
      (canonical.unmarked_template member)
      (canonical.unmarked_argument otherKnown)
      (canonical.unmarked_argument known) named
  obtain rfl :=
    List.inj_on_of_nodup_map canonical.templatesDistinct listed member base
  have lengths : otherArguments.length = arguments.length := by
    rw [← otherKnown.length_eq, ← known.length_eq, otherArity, arity]
  obtain ⟨rfl, rfl⟩ := canonical.arguments_eq otherKnown known (parts lengths)
  rfl

/-- A template of the registry is instantiated to its instance, whether that was
there or not. -/
theorem Canonical.get?_of_instantiate (canonical : Canonical r) {t : Template}
    (member : t ∈ r.templates) {handles : List Handle} {h : Handle}
    (made : r.instantiate t handles = .ok (h, grown)) :
    ∃ arguments, handles.length = t.arity ∧ r.Arguments handles arguments ∧
      grown.get? h = some (t.apply handles arguments) := by
  obtain ⟨arguments, arity, known, ⟨found, rfl⟩ | ⟨_, pushed⟩⟩ :=
    instantiate_eq_ok made
  · obtain ⟨d, denoted, named⟩ := get?_of_findQualified?_eq_some found
    exact ⟨arguments, arity, known, denoted.trans (congrArg some
      (canonical.eq_apply member arity known denoted named))⟩
  · obtain ⟨rfl, rfl⟩ := Prod.mk.inj pushed
    exact ⟨arguments, arity, known, r.get?_push _⟩

theorem Canonical.push (canonical : Canonical r) {d : Descriptor}
    (free : r.findQualified? d.qualifiedName = none)
    (plain : d.kind ≠ .generic → Unmarked d.qualifiedName)
    (ofTemplate : d.kind = .generic →
      ∃ t ∈ r.templates, ∃ handles arguments, handles.length = t.arity ∧
        r.Arguments handles arguments ∧ d = t.apply handles arguments) :
    Canonical (r.push d).2 where
  distinct := nodup_push canonical.distinct
    (owner?_eq_none_of_findQualified?_eq_none free)
  templatesDistinct := canonical.templatesDistinct
  templatesNamed := canonical.templatesNamed
  plain := by
    intro h e known
    rcases get?_push_eq_some known with before | ⟨_, rfl⟩
    · exact canonical.plain before
    · exact plain
  ofTemplate := by
    have grew : r.types <+: (r.push d).2.types := ⟨[d], rfl⟩
    have kept {e : Descriptor}
        (made : ∃ t ∈ r.templates,
          ∃ handles arguments, handles.length = t.arity ∧
            r.Arguments handles arguments ∧ e = t.apply handles arguments) :
        ∃ t ∈ (r.push d).2.templates, ∃ handles arguments,
          handles.length = t.arity ∧ (r.push d).2.Arguments handles arguments ∧
          e = t.apply handles arguments := by
      obtain ⟨t, member, handles, arguments, arity, parts, rfl⟩ := made
      exact ⟨t, member, handles, arguments, arity, parts.mono grew, rfl⟩
    intro h e known generic
    rcases get?_push_eq_some known with before | ⟨_, rfl⟩
    · exact kept (canonical.ofTemplate before generic)
    · exact kept (ofTemplate generic)

theorem unmarked_qualifiedName {d : Descriptor} (plain : d.kind ≠ .generic)
    (package : Unmarked d.package) (name : Unmarked d.name) :
    Unmarked d.qualifiedName := by
  rw [Descriptor.qualifiedName.eq_def]
  split
  · next generic => exact absurd generic plain
  · exact package.qualify name

theorem Canonical.register (canonical : Canonical r) {d : Descriptor}
    (plain : d.kind ≠ .generic) (package : Unmarked d.package)
    (name : Unmarked d.name) {h : Handle}
    (accepted : r.register d = .ok (h, grown)) : Canonical grown := by
  have unmarked := unmarked_qualifiedName plain package name
  unfold Registry.register at accepted
  split at accepted
  · next free =>
      cases accepted
      exact canonical.push (by rw [findQualified?, free]; rfl)
        (fun _ => unmarked) fun generic => absurd generic plain
  · split at accepted
    · cases accepted
      exact canonical
    · cases accepted

theorem Canonical.registerTemplate (canonical : Canonical r) {t : Template}
    (named : WellNamed t.package t.name)
    (accepted : r.registerTemplate t = .ok grown) :
    Canonical grown := by
  unfold Registry.registerTemplate at accepted
  split at accepted
  · next free =>
      cases accepted
      constructor
      · exact canonical.distinct
      · exact nodup_append_template canonical.templatesDistinct free
      · intro u listed
        rcases List.mem_append.mp listed with old | new
        · exact canonical.templatesNamed u old
        · exact List.mem_singleton.mp new ▸ named
      · exact canonical.plain
      · intro h d known generic
        obtain ⟨u, listed, made⟩ := canonical.ofTemplate known generic
        exact ⟨u, List.mem_append_left _ listed, made⟩
  · split at accepted
    · cases accepted
      exact canonical
    · cases accepted

theorem Canonical.instantiate (canonical : Canonical r) {t : Template}
    (member : t ∈ r.templates) {handles : List Handle} {h : Handle}
    (made : r.instantiate t handles = .ok (h, grown)) :
    Canonical grown := by
  obtain ⟨arguments, arity, known, ⟨_, rfl⟩ | ⟨free, pushed⟩⟩ :=
    instantiate_eq_ok made
  · exact canonical
  · obtain ⟨rfl, rfl⟩ := Prod.mk.inj pushed
    refine canonical.push ?_ ?_ ?_
    · rwa [Template.qualifiedName_apply]
    · exact fun plain => absurd (kind_apply t handles arguments) plain
    · exact fun _ => ⟨t, member, handles, arguments, arity, known, rfl⟩

theorem Canonical.resolve (canonical : Canonical r) {text : String} {h : Handle}
    (resolved : r.resolve text = .ok (h, grown)) : Canonical grown := by
  rcases resolve_eq_ok resolved with ⟨rfl, _⟩ | ⟨t, member, handles, made⟩
  · exact canonical
  · exact canonical.instantiate member made

/-- An operation that declares under proper names and instantiates templates
that are there. -/
def Proper (r : Registry) : Operation → Prop
  | .register d => d.kind ≠ .generic ∧ WellNamed d.package d.name
  | .declareParcelable package name _ => WellNamed package name
  | .declareInterface package name _ _ => WellNamed package name
  | .registerTemplate t => WellNamed t.package t.name
  | .resolve _ | .search _ => True
  | .instantiate t _ => t ∈ r.templates

def ProperRun (r : Registry) : List Operation → Prop
  | [] => True
  | operation :: rest =>
      r.Proper operation ∧ (r.perform operation).2.ProperRun rest

theorem Canonical.ofResult (canonical : Canonical r) {ε : Type}
    (failure : ε → Answer) {result : Except ε (Handle × Registry)}
    (accepted : ∀ h grown, result = .ok (h, grown) → Canonical grown) :
    Canonical (Answer.ofResult failure r result).2 := by
  cases result with
  | error error => exact canonical
  | ok entry => exact accepted entry.1 entry.2 rfl

theorem Canonical.perform (canonical : Canonical r) {operation : Operation}
    (proper : r.Proper operation) : Canonical (r.perform operation).2 := by
  cases operation with
  | register d =>
      exact canonical.ofResult _ fun h grown =>
        canonical.register proper.1 proper.2.package proper.2.name
  | declareParcelable package name site =>
      exact canonical.ofResult _ fun h grown =>
        canonical.register (d := .parcelable package name site) nofun
          proper.package proper.name
  | declareInterface package name oneway site =>
      exact canonical.ofResult _ fun h grown =>
        canonical.register (d := .interface package name oneway site) nofun
          proper.package proper.name
  | registerTemplate t =>
      simp only [Registry.perform]
      cases accepted : r.registerTemplate t with
      | error error => exact canonical
      | ok grown => exact canonical.registerTemplate proper accepted
  | resolve text => exact canonical.ofResult _ fun h grown => canonical.resolve
  | search text => exact canonical.ofResult _ fun h grown => canonical.resolve
  | instantiate t handles =>
      exact canonical.ofResult _ fun h grown => canonical.instantiate proper

theorem Canonical.run (canonical : Canonical r) {operations : List Operation}
    (proper : r.ProperRun operations) : Canonical (r.run operations) := by
  induction operations generalizing r with
  | nil => exact canonical
  | cons operation rest induction =>
      exact induction (canonical.perform proper.1) proper.2

end BinderIdl.Types.Registry
