import BinderIdl.Document.Legality
import BinderIdl.Proofs.Document.Resolution
import BinderIdl.Proofs.Types.Alike

namespace BinderIdl.Document

open Source BinderIdl.Types Registry

structure ResolvedType.Same (r s : Registry) (t u : ResolvedType) : Prop where
  handle : SameType r s t.handle u.handle
  isArray : t.isArray = u.isArray

structure ResolvedParameter.Same (r s : Registry) (p q : ResolvedParameter) :
    Prop where
  name : p.name = q.name
  direction : p.direction = q.direction
  type : p.type.Same r s q.type
  line : p.line = q.line

structure ResolvedMethod.Same (r s : Registry) (m n : ResolvedMethod) :
    Prop where
  name : m.name = n.name
  line : m.line = n.line
  oneway : m.oneway = n.oneway
  returnType : m.returnType.Same r s n.returnType
  parameters :
    List.Forall₂ (ResolvedParameter.Same r s) m.parameters n.parameters

structure ResolvedInterface.Same (r s : Registry) (i j : ResolvedInterface) :
    Prop where
  handle : SameType r s i.handle j.handle
  line : i.line = j.line
  methods : List.Forall₂ (ResolvedMethod.Same r s) i.methods j.methods

variable {r s grown final : Registry}

theorem ResolvedType.Same.grows (growth : r.Grows grown) (other : s.Grows final)
    {t u : ResolvedType} (same : t.Same r s u) : t.Same grown final u :=
  ⟨same.handle.mono growth.types_grow other.types_grow, same.isArray⟩

theorem ResolvedParameter.Same.grows (growth : r.Grows grown)
    (other : s.Grows final) {p q : ResolvedParameter} (same : p.Same r s q) :
    p.Same grown final q :=
  { same with type := same.type.grows growth other }

theorem ResolvedMethod.Same.grows (growth : r.Grows grown)
    (other : s.Grows final) {m n : ResolvedMethod} (same : m.Same r s n) :
    m.Same grown final n :=
  { same with
    returnType := same.returnType.grows growth other
    parameters :=
      same.parameters.imp fun _ _ => ResolvedParameter.Same.grows growth other}

/-- Two resolutions with the same reports and related results, which leave
related registries. -/
structure Resolved.Related {α : Type} (Q : Registry → Registry → Prop)
    (R : Registry → Registry → α → α → Prop) (first second : Resolved α) :
    Prop where
  after : Q first.registry second.registry
  reports : first.reports = second.reports
  result : R first.registry second.registry first.result second.result

section

variable {Q : Registry → Registry → Prop} {oneSided : Prop}
  (simulation : Simulation Q oneSided)

include simulation

theorem resolveType_related (related : Q r s) (doc : Document) (type : TypeText)
    (quiet : oneSided → (resolveType doc r type).reports = []) :
    Resolved.Related Q (fun r s => Option.Rel (ResolvedType.Same r s))
      (resolveType doc r type) (resolveType doc s type) := by
  have answered (only : oneSided) :
      ∃ entry, r.resolve type.name = .ok entry := by
    have silent := quiet only
    unfold resolveType at silent
    cases meant : r.resolve type.name with
    | ok entry => exact ⟨entry, rfl⟩
    | error error =>
        rw [meant] at silent
        cases silent
  have meant := simulation.resolve related answered
  unfold resolveType
  generalize r.resolve type.name = first, s.resolve type.name = second at meant
  cases meant with
  | error error => exact ⟨related, rfl, .none⟩
  | @ok entry other after => exact ⟨after.1, rfl, .some ⟨after.2, rfl⟩⟩

theorem resolveParameter_related (related : Q r s) (doc : Document)
    (p : Parameter)
    (quiet : oneSided → (resolveParameter doc r p).reports = []) :
    Resolved.Related Q (fun r s => Option.Rel (ResolvedParameter.Same r s))
      (resolveParameter doc r p) (resolveParameter doc s p) := by
  obtain ⟨after, reports, result⟩ :=
    resolveType_related simulation related doc p.type quiet
  refine ⟨after, reports, ?_⟩
  simp only [resolveParameter]
  generalize (resolveType doc r p.type).result = first,
    (resolveType doc s p.type).result = second at result
  cases result with
  | none => exact .none
  | some same => exact .some ⟨rfl, rfl, same, rfl⟩

theorem resolveParameters_related (related : Q r s) (doc : Document)
    (parameters : List Parameter)
    (quiet : oneSided → (resolveParameters doc r parameters).reports = []) :
    Resolved.Related Q
      (fun r s => Option.Rel (List.Forall₂ (ResolvedParameter.Same r s)))
      (resolveParameters doc r parameters)
      (resolveParameters doc s parameters) := by
  induction parameters generalizing r s with
  | nil => exact ⟨related, rfl, .some .nil⟩
  | cons p rest induction =>
      obtain ⟨after, reports, result⟩ :=
        resolveParameter_related simulation related doc p fun only =>
          (List.append_eq_nil_iff.mp (quiet only)).1
      have later :=
        induction after fun only => (List.append_eq_nil_iff.mp (quiet only)).2
      have grows :=
        (resolveParameters_orderly doc (resolveParameter doc r p).registry
          rest).grows
      have other :=
        (resolveParameters_orderly doc (resolveParameter doc s p).registry
          rest).grows
      refine ⟨later.after, congrArg₂ _ reports later.reports, ?_⟩
      have others := later.result
      simp only [resolveParameters]
      generalize (resolveParameter doc r p).result = first,
        (resolveParameter doc s p).result = second at result
      generalize (resolveParameters doc (resolveParameter doc r p).registry
          rest).result = firsts,
        (resolveParameters doc (resolveParameter doc s p).registry
          rest).result = seconds at others
      cases result with
      | none => exact .none
      | some same =>
          cases others with
          | none => exact .none
          | some sames => exact .some (.cons (same.grows grows other) sames)

theorem resolveMethod_related (related : Q r s) (doc : Document)
    (owner : Interface) (m : Method)
    (quiet : oneSided → (resolveMethod doc owner r m).reports = []) :
    Resolved.Related Q (fun r s => Option.Rel (ResolvedMethod.Same r s))
      (resolveMethod doc owner r m) (resolveMethod doc owner s m) := by
  obtain ⟨after, reports, result⟩ :=
    resolveType_related simulation related doc m.returnType fun only =>
      (List.append_eq_nil_iff.mp (quiet only)).1
  have later := resolveParameters_related simulation after doc m.parameters
    fun only => (List.append_eq_nil_iff.mp (quiet only)).2
  have grows :=
    (resolveParameters_orderly doc (resolveType doc r m.returnType).registry
      m.parameters).grows
  have other :=
    (resolveParameters_orderly doc (resolveType doc s m.returnType).registry
      m.parameters).grows
  refine ⟨later.after, congrArg₂ _ reports later.reports, ?_⟩
  have parameters := later.result
  simp only [resolveMethod]
  generalize (resolveType doc r m.returnType).result = first,
    (resolveType doc s m.returnType).result = second at result
  generalize (resolveParameters doc (resolveType doc r m.returnType).registry
      m.parameters).result = firsts,
    (resolveParameters doc (resolveType doc s m.returnType).registry
      m.parameters).result = seconds at parameters
  cases result with
  | none => exact .none
  | some same =>
      cases parameters with
      | none => exact .none
      | some sames => exact .some ⟨rfl, rfl, rfl, same.grows grows other, sames⟩

theorem resolveMethods_related (related : Q r s) (doc : Document)
    (owner : Interface) (methods : List Method)
    (quiet : oneSided → (resolveMethods doc owner r methods).reports = []) :
    Resolved.Related Q (fun r s => List.Forall₂ (ResolvedMethod.Same r s))
      (resolveMethods doc owner r methods)
      (resolveMethods doc owner s methods) := by
  induction methods generalizing r s with
  | nil => exact ⟨related, rfl, .nil⟩
  | cons m rest induction =>
      obtain ⟨after, reports, result⟩ :=
        resolveMethod_related simulation related doc owner m fun only =>
          (List.append_eq_nil_iff.mp (quiet only)).1
      have later :=
        induction after fun only => (List.append_eq_nil_iff.mp (quiet only)).2
      have grows :=
        (resolveMethods_orderly doc owner (resolveMethod doc owner r m).registry
          rest).grows
      have other :=
        (resolveMethods_orderly doc owner (resolveMethod doc owner s m).registry
          rest).grows
      refine ⟨later.after, congrArg₂ _ reports later.reports, ?_⟩
      have others := later.result
      simp only [resolveMethods]
      generalize (resolveMethod doc owner r m).result = first,
        (resolveMethod doc owner s m).result = second at result
      cases result with
      | none => exact others
      | some same => exact .cons (same.grows grows other) others

theorem acceptedHandle?_related (related : Q r s) {doc : Document}
    {i : Interface} (name : Unmarked (qualify doc.package i.name))
    (owned : oneSided → (r.find? doc.package i.name).isSome) :
    Option.Rel (SameType r s) (acceptedHandle? doc r i)
      (acceptedHandle? doc s i) := by
  have found := simulation.findQualified? related name.opening_not_mem owned
  unfold acceptedHandle? Registry.find?
  generalize r.findQualified? _ = first, s.findQualified? _ = second at found
  cases found with
  | none => exact .none
  | some part =>
      obtain ⟨d, known, other, plain⟩ := id part
      simp only [Option.bind_eq_bind, Option.bind_some, known, other]
      split
      · exact .some (part.sameType (simulation.formed related))
      · exact .none

theorem resolveInterfaces_related (related : Q r s) {doc : Document}
    {interfaces : List Interface}
    (names : ∀ i ∈ interfaces, Unmarked (qualify doc.package i.name))
    (owned : oneSided → ∀ i ∈ interfaces, (r.find? doc.package i.name).isSome)
    (quiet : oneSided → (resolveInterfaces doc r interfaces).reports = []) :
    Resolved.Related Q (fun r s => List.Forall₂ (ResolvedInterface.Same r s))
      (resolveInterfaces doc r interfaces)
      (resolveInterfaces doc s interfaces) := by
  induction interfaces generalizing r s with
  | nil => exact ⟨related, rfl, .nil⟩
  | cons i rest induction =>
      obtain ⟨name, others⟩ := List.forall_mem_cons.mp names
      have accepted := acceptedHandle?_related simulation related name
        fun only => owned only i List.mem_cons_self
      have ownedRest (only : oneSided) :=
        (List.forall_mem_cons.mp (owned only)).2
      unfold resolveInterfaces at quiet ⊢
      generalize acceptedHandle? doc r i = first,
        acceptedHandle? doc s i = second at accepted quiet
      cases accepted with
      | none => exact induction related others ownedRest quiet
      | some handle =>
          have here := (resolveMethods_orderly doc i r i.methods).grows
          have there := (resolveMethods_orderly doc i s i.methods).grows
          obtain ⟨after, reports, result⟩ :=
            resolveMethods_related simulation related doc i i.methods
              fun only => (List.append_eq_nil_iff.mp (quiet only)).1
          have later := induction after others
            (fun only j listed =>
              isSome_find?_of_types_grow here.types_grow
                (ownedRest only j listed))
            fun only => (List.append_eq_nil_iff.mp (quiet only)).2
          have grows :=
            (resolveInterfaces_orderly doc
              (resolveMethods doc i r i.methods).registry rest).grows
          have other :=
            (resolveInterfaces_orderly doc
              (resolveMethods doc i s i.methods).registry rest).grows
          refine ⟨later.after, congrArg₂ _ reports later.reports,
            .cons ?_ later.result⟩
          exact ⟨handle.mono (here.trans grows).types_grow
            (there.trans other).types_grow, rfl,
            result.imp fun _ _ => ResolvedMethod.Same.grows grows other⟩

end

theorem resolveInterfaces_alike (alike : r.Alike s) {doc : Document}
    {interfaces : List Interface}
    (names : ∀ i ∈ interfaces, Unmarked (qualify doc.package i.name)) :
    Resolved.Related Registry.Alike
      (fun r s => List.Forall₂ (ResolvedInterface.Same r s))
      (resolveInterfaces doc r interfaces)
      (resolveInterfaces doc s interfaces) :=
  resolveInterfaces_related simulation_alike alike names False.elim False.elim

theorem resolveType_looks (doc : Document) (r : Registry) (type : TypeText) :
    Looks r (resolveType doc r type).registry := by
  unfold resolveType
  split
  · next h grown resolved => exact .single ⟨_, h, resolved⟩
  · exact .refl

theorem resolveParameters_looks (doc : Document) (r : Registry)
    (parameters : List Parameter) :
    Looks r (resolveParameters doc r parameters).registry := by
  induction parameters generalizing r with
  | nil => exact .refl
  | cons p rest induction =>
      exact (resolveType_looks doc r p.type).trans (induction _)

theorem resolveMethods_looks (doc : Document) (owner : Interface) (r : Registry)
    (methods : List Method) :
    Looks r (resolveMethods doc owner r methods).registry := by
  induction methods generalizing r with
  | nil => exact .refl
  | cons m rest induction =>
      have returned := resolveType_looks doc r m.returnType
      have parameters := resolveParameters_looks doc
        (resolveType doc r m.returnType).registry m.parameters
      exact (returned.trans parameters).trans (induction _)

theorem resolveInterfaces_looks (doc : Document) (r : Registry)
    (interfaces : List Interface) :
    Looks r (resolveInterfaces doc r interfaces).registry := by
  induction interfaces generalizing r with
  | nil => exact .refl
  | cons i rest induction =>
      unfold resolveInterfaces
      split
      · exact induction r
      · exact (resolveMethods_looks doc i r i.methods).trans (induction _)

theorem eq_void_iff (formed : r.WellFormed) {h : Handle} {d : Descriptor}
    (known : r.get? h = some d) : h = .void ↔ d.qualifiedName = "void" := by
  have void : r.get? .void = some (.builtIn "" "void" .none .void) :=
    formed.get?_builtIn rfl
  constructor
  · rintro rfl
    cases known.symm.trans void
    rfl
  · exact fun named => (formed.eq_of_qualifiedName_eq known void named).1

theorem isVoid_eq (peers : r.Peers s) {t u : ResolvedType}
    (same : t.Same r s u) :
    t.isVoid = u.isVoid := by
  obtain ⟨d, e, known, other, twin⟩ := same.handle
  have void : t.handle = .void ↔ u.handle = .void := by
    rw [eq_void_iff peers.left known, eq_void_iff peers.right other, twin.same,
      Descriptor.qualifiedName_withHandles]
  unfold ResolvedType.isVoid
  rw [same.isArray]
  congr 1
  exact Bool.eq_iff_iff.mpr (by simpa using void)

theorem checkArgument_eq {h k : Handle} (part : SamePart r s h k)
    {d e : Descriptor} (same : d.qualifiedName = e.qualifiedName)
    (site : Site) :
    checkArgument r site d h = checkArgument s site e k := by
  obtain ⟨argument, known, other, _⟩ := part
  simp only [checkArgument, Findings.withType, known, other, same]

theorem checkMarshallable_eq {t u : ResolvedType} (same : t.Same r s u)
    (site : Site) :
    checkMarshallable r site t = checkMarshallable s site u := by
  obtain ⟨d, e, known, other, twin⟩ := same.handle
  have arguments : d.argumentHandles.map (checkArgument r site d) =
      e.argumentHandles.map (checkArgument s site e) :=
    map_eq_of_forall₂ twin.parts fun part =>
      checkArgument_eq part (by rw [twin.same]; simp) site
  simp only [checkMarshallable, Findings.withType, known, other, arguments,
    same.isArray]
  rw [twin.same]
  simp

theorem checkOut_eq {m n : ResolvedMethod} (name : m.name = n.name)
    (oneway : m.oneway = n.oneway) {p q : ResolvedParameter}
    (same : p.Same r s q) {d e : Descriptor} (twin : Twin r s d e)
    (site : Site) : checkOut m p site d = checkOut n q site e := by
  unfold checkOut canReadInto
  rw [name, oneway, same.name, same.direction, same.type.isArray, twin.same]
  simp

theorem checkParameterType_eq (peers : r.Peers s) {m n : ResolvedMethod}
    (same : m.Same r s n) {p q : ResolvedParameter} (parameter : p.Same r s q)
    (site : Site) :
    checkParameterType r m p site = checkParameterType s n q site := by
  obtain ⟨d, e, known, other, twin⟩ := parameter.type.handle
  unfold checkParameterType
  rw [isVoid_eq peers parameter.type, checkMarshallable_eq parameter.type,
    parameter.name, parameter.direction]
  simp only [Findings.withType, known, other,
    checkOut_eq same.name same.oneway parameter twin]

theorem checkParameters_eq (peers : r.Peers s) (doc : Document)
    {m n : ResolvedMethod} (same : m.Same r s n) (seen : List String)
    {ps qs : List ResolvedParameter}
    (parameters : List.Forall₂ (ResolvedParameter.Same r s) ps qs) :
    checkParameters doc r m seen ps = checkParameters doc s n seen qs := by
  induction parameters generalizing seen with
  | nil => rfl
  | cons parameter _ induction =>
      simp only [checkParameters, parameter.name, parameter.line,
        checkParameterType_eq peers same parameter, induction]

theorem checkMethod_eq (peers : r.Peers s) (doc : Document)
    {m n : ResolvedMethod} (same : m.Same r s n) :
    checkMethod doc r m = checkMethod doc s n := by
  unfold checkMethod checkReturn
  rw [isVoid_eq peers same.returnType, checkMarshallable_eq same.returnType,
    same.line, same.oneway, same.name,
    checkParameters_eq peers doc same [] same.parameters]

theorem checkMethods_alike (peers : r.Peers s) (doc : Document)
    (seen : List String) {ms ns : List ResolvedMethod}
    (same : List.Forall₂ (ResolvedMethod.Same r s) ms ns) :
    List.Forall₂ (ResolvedMethod.Same r s) (checkMethods doc r seen ms).kept
      (checkMethods doc s seen ns).kept ∧
    (checkMethods doc r seen ms).findings =
      (checkMethods doc s seen ns).findings := by
  induction same generalizing seen with
  | nil => exact ⟨.nil, rfl⟩
  | @cons m n ms ns here others induction =>
      obtain ⟨kept, findings⟩ := induction (m.name :: seen)
      unfold checkMethods
      rw [checkMethod_eq peers doc here, here.line, ← here.name]
      dsimp only
      split
      · exact ⟨.cons here others, rfl⟩
      · refine ⟨?_, congrArg (_ ++ ·) findings⟩
        dsimp only
        split
        · exact .cons here kept
        · exact kept

theorem checkInterface_alike (peers : r.Peers s) (doc : Document)
    {i j : ResolvedInterface} (same : i.Same r s j) :
    (checkInterface doc r i).kept.Same r s (checkInterface doc s j).kept ∧
    (checkInterface doc r i).findings = (checkInterface doc s j).findings := by
  obtain ⟨kept, findings⟩ := checkMethods_alike peers doc [] same.methods
  exact ⟨⟨same.handle, same.line, kept⟩, findings⟩

theorem checkInterfaces_alike (peers : r.Peers s) (doc : Document)
    {is js : List ResolvedInterface}
    (same : List.Forall₂ (ResolvedInterface.Same r s) is js) :
    List.Forall₂ (ResolvedInterface.Same r s) (checkInterfaces doc r is).kept
      (checkInterfaces doc s js).kept ∧ (checkInterfaces doc r is).findings =
        (checkInterfaces doc s js).findings := by
  induction same with
  | nil => exact ⟨.nil, rfl⟩
  | cons here others induction =>
      obtain ⟨kept, findings⟩ := checkInterface_alike peers doc here
      unfold checkInterfaces
      dsimp only
      rw [findings]
      split
      · exact ⟨.cons kept others, rfl⟩
      · exact ⟨.cons kept induction.1, congrArg (_ ++ ·) induction.2⟩

end BinderIdl.Document
