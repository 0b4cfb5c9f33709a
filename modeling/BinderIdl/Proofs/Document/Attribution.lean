import BinderIdl.Document.Declaration
import BinderIdl.Document.Legality
import Mathlib.Data.List.Basic

namespace BinderIdl

open Source BinderIdl.Types

namespace Diagnostic

/-- An error in what was compiled, and not in the compiler. -/
def IsUserError (d : Diagnostic) : Prop := d.isError ∧ d.code ≠ .internalError

/-- There is one primary label, and it stands at the site. -/
def PointsAt (d : Diagnostic) (site : Site) : Prop :=
  (d.labels.filter Label.primary).map Label.site = [site]

/-- Errors that are none: there is nothing. -/
theorem eq_nil_of_silent {ds : List Diagnostic}
    (errors : ∀ d ∈ ds, d.IsUserError) (silent : ds.any isError = false) :
    ds = [] := by
  apply List.eq_nil_iff_forall_not_mem.mpr
  intro d listed
  exact absurd (errors d listed).1
    (by simpa using List.any_eq_false.mp silent d listed)

theorem PointsAt.primarySite {d : Diagnostic} {site : Site}
    (points : d.PointsAt site) :
    d.primarySite = some site := by
  rw [Diagnostic.primarySite, ← List.head?_filter, ← List.head?_map, points]
  rfl

end Diagnostic

theorem Types.LookupError.pointsAt_report (site : Site) (error : LookupError) :
    (error.report site).PointsAt site := by
  cases error <;> rfl

theorem Types.LookupError.isUserError_report (site : Site)
    (error : LookupError) :
    (error.report site).IsUserError := by
  cases error <;> exact ⟨rfl, nofun⟩

namespace Document

def Parameter.lines (p : Parameter) : List Nat := [p.line, p.type.line]

def Method.lines (m : Method) : List Nat :=
  m.line :: m.returnType.line :: m.parameters.flatMap Parameter.lines

def Interface.lines (i : Interface) :
    List Nat := i.line :: i.methods.flatMap Method.lines

def Item.lines : Item → List Nat
  | parcelable _ line => [line]
  | interface i => i.lines

/-- The lines of the items, methods, parameters and types of a document. -/
def lines (doc : Document) : List Nat := doc.items.flatMap Item.lines

def ResolvedMethod.lines (m : ResolvedMethod) : List Nat :=
  m.line :: m.parameters.map ResolvedParameter.line

theorem Item.line_mem_lines (item : Item) : item.line ∈ item.lines := by
  cases item <;> exact List.mem_cons_self

theorem lines_interfaces_subset (doc : Document) :
    doc.interfaces.flatMap Interface.lines ⊆ doc.lines := by
  intro line listed
  obtain ⟨i, member, here⟩ := List.mem_flatMap.mp listed
  exact List.mem_flatMap.mpr ⟨_, mem_interfaces_iff.mp member, here⟩

variable {doc : Document} {r : Registry} {lines : List Nat}

/-- Every report is an error of the document, which points at one
of the lines. -/
def Raises (doc : Document) (lines : List Nat) (ds : List Diagnostic) : Prop :=
  ∀ d ∈ ds, d.IsUserError ∧ ∃ line ∈ lines, d.PointsAt (doc.site line)

theorem raises_nil : doc.Raises lines [] := nofun

theorem raises_singleton {d : Diagnostic} {line : Nat} (listed : line ∈ lines)
    (error : d.IsUserError) (points : d.PointsAt (doc.site line)) :
    doc.Raises lines [d] := by
  intro e single
  rw [List.mem_singleton.mp single]
  exact ⟨error, line, listed, points⟩

theorem raises_errorAt {code : Diagnostic.Code} {line : Nat}
    {message label : String} (listed : line ∈ lines)
    (user : code ≠ .internalError) :
    doc.Raises lines [.errorAt code (doc.site line) message label] :=
  raises_singleton listed ⟨rfl, user⟩ rfl

theorem Raises.append {ds es : List Diagnostic} (first : doc.Raises lines ds)
    (second : doc.Raises lines es) : doc.Raises lines (ds ++ es) := by
  intro d listed
  rcases List.mem_append.mp listed with here | there
  · exact first d here
  · exact second d there

theorem Raises.mono {more : List Nat} {ds : List Diagnostic}
    (raises : doc.Raises lines ds) (within : lines ⊆ more) :
    doc.Raises more ds := by
  intro d listed
  obtain ⟨error, line, here, points⟩ := raises d listed
  exact ⟨error, line, within here, points⟩

theorem Raises.isUserError {ds : List Diagnostic}
    (raises : doc.Raises lines ds) :
    ∀ d ∈ ds, d.IsUserError :=
  fun d listed => (raises d listed).1

theorem register_eq_error {d : Descriptor} {error : RegisterError}
    (refused : r.register d = .error error) :
    ∃ h owner, error = .redefinition d h owner := by
  unfold Registry.register at refused
  split at refused
  · cases refused
  · split at refused
    · cases refused
    · exact ⟨_, _, (Except.error.inj refused).symm⟩

theorem site_descriptor (doc : Document) (item : Item) :
    (item.descriptor doc).site = some (doc.site item.line) := by
  cases item <;> rfl

/-- A redefinition points at the item, and only refers to the first
declaration. -/
theorem raises_declareItem (doc : Document) (r : Registry) (item : Item) :
    doc.Raises item.lines (declareItem doc r item).2 := by
  unfold declareItem
  split
  · exact raises_nil
  · next error refused =>
      obtain ⟨h, owner, rfl⟩ := register_eq_error refused
      simp only [RegisterError.report, site_descriptor, Option.getD_some,
        Diagnostic.redefinition]
      split <;> exact raises_singleton item.line_mem_lines ⟨rfl, nofun⟩ rfl

theorem raises_declareItems (doc : Document) (r : Registry)
    (items : List Item) :
    doc.Raises (items.flatMap Item.lines) (declareItems doc r items).2 := by
  induction items generalizing r with
  | nil => exact raises_nil
  | cons item rest induction =>
      rw [List.flatMap_cons]
      exact ((raises_declareItem doc r item).mono
          (List.subset_append_left _ _)).append
        ((induction _).mono (List.subset_append_right _ _))

theorem raises_resolveType (doc : Document) (r : Registry) (type : TypeText) :
    doc.Raises [type.line] (resolveType doc r type).reports := by
  unfold resolveType
  split
  · exact raises_nil
  · next error _ =>
      exact raises_singleton List.mem_cons_self (error.isUserError_report _)
        (error.pointsAt_report _)

theorem raises_resolveParameters (doc : Document) (r : Registry)
    (parameters : List Parameter) :
    doc.Raises (parameters.flatMap Parameter.lines)
      (resolveParameters doc r parameters).reports := by
  induction parameters generalizing r with
  | nil => exact raises_nil
  | cons p rest induction =>
      rw [List.flatMap_cons]
      refine Raises.append ?_
        ((induction _).mono (List.subset_append_right _ _))
      exact (raises_resolveType doc r p.type).mono (by simp [Parameter.lines])

theorem raises_resolveMethod (doc : Document) (owner : Interface) (r : Registry)
    (m : Method) :
    doc.Raises m.lines (resolveMethod doc owner r m).reports := by
  refine Raises.append ?_ ?_
  · exact (raises_resolveType doc r m.returnType).mono (by simp [Method.lines])
  · refine (raises_resolveParameters doc _ m.parameters).mono
      fun line listed => ?_
    exact List.mem_cons_of_mem _ (List.mem_cons_of_mem _ listed)

theorem raises_resolveMethods (doc : Document) (owner : Interface)
    (r : Registry) (methods : List Method) :
    doc.Raises (methods.flatMap Method.lines)
      (resolveMethods doc owner r methods).reports := by
  induction methods generalizing r with
  | nil => exact raises_nil
  | cons m rest induction =>
      rw [List.flatMap_cons]
      exact ((raises_resolveMethod doc owner r m).mono
          (List.subset_append_left _ _)).append
        ((induction _).mono (List.subset_append_right _ _))

theorem raises_resolveInterfaces (doc : Document) (r : Registry)
    (interfaces : List Interface) :
    doc.Raises (interfaces.flatMap Interface.lines)
      (resolveInterfaces doc r interfaces).reports := by
  induction interfaces generalizing r with
  | nil => exact raises_nil
  | cons i rest induction =>
      rw [List.flatMap_cons]
      unfold resolveInterfaces
      split
      · exact (induction r).mono (List.subset_append_right _ _)
      · refine Raises.append ?_
          ((induction _).mono (List.subset_append_right _ _))
        refine (raises_resolveMethods doc i r i.methods).mono
          fun line listed => ?_
        exact List.mem_append_left _ (List.mem_cons_of_mem _ listed)

theorem lines_of_resolveParameters {parameters : List Parameter}
    {resolved : List ResolvedParameter}
    (done : (resolveParameters doc r parameters).result = some resolved) :
    resolved.map ResolvedParameter.line = parameters.map Parameter.line := by
  induction parameters generalizing r resolved with
  | nil =>
      cases done
      rfl
  | cons p rest induction =>
      simp only [resolveParameters, resolveParameter, Option.bind_eq_bind,
        Option.bind_eq_some_iff, Option.map_eq_some_iff] at done
      obtain ⟨_, ⟨t, _, rfl⟩, others, othersDone, same⟩ := done
      cases same
      rw [List.map_cons, List.map_cons, induction othersDone]

theorem lines_subset_of_resolveMethod {owner : Interface} {m : Method}
    {resolved : ResolvedMethod}
    (done : (resolveMethod doc owner r m).result = some resolved) :
    resolved.lines ⊆ m.lines := by
  simp only [resolveMethod, Option.bind_eq_bind,
    Option.bind_eq_some_iff] at done
  obtain ⟨returnType, _, parameters, parametersDone, same⟩ := done
  cases same
  rw [ResolvedMethod.lines, lines_of_resolveParameters parametersDone]
  refine List.cons_subset.mpr ⟨List.mem_cons_self, fun line listed => ?_⟩
  obtain ⟨p, member, rfl⟩ := List.mem_map.mp listed
  refine List.mem_cons_of_mem _ (List.mem_cons_of_mem _ ?_)
  exact List.mem_flatMap.mpr ⟨p, member, List.mem_cons_self⟩

theorem lines_subset_of_mem_resolveMethods {owner : Interface}
    {methods : List Method} {m : ResolvedMethod}
    (listed : m ∈ (resolveMethods doc owner r methods).result) :
    m.lines ⊆ methods.flatMap Method.lines := by
  induction methods generalizing r with
  | nil => cases listed
  | cons first rest induction =>
      rw [List.flatMap_cons]
      rcases List.mem_append.mp listed with here | there
      · exact List.subset_append_of_subset_left _
          (lines_subset_of_resolveMethod (Option.mem_toList.mp here))
      · exact List.subset_append_of_subset_right _ (induction there)

theorem lines_subset_of_mem_resolveInterfaces {interfaces : List Interface}
    {i : ResolvedInterface}
    (listed : i ∈ (resolveInterfaces doc r interfaces).result) :
    ∀ m ∈ i.methods, m.lines ⊆ interfaces.flatMap Interface.lines := by
  induction interfaces generalizing r with
  | nil => cases listed
  | cons first rest induction =>
      rw [List.flatMap_cons]
      unfold resolveInterfaces at listed
      split at listed
      · exact fun m member =>
          List.subset_append_of_subset_right _ (induction listed m member)
      · rcases List.mem_cons.mp listed with rfl | there
        · intro m member line here
          exact List.mem_append_left _ (List.mem_cons_of_mem _
            (lines_subset_of_mem_resolveMethods member here))
        · exact fun m member =>
            List.subset_append_of_subset_right _ (induction there m member)

namespace Findings

theorem mem_complaints_of_append {first second : Findings} {d : Diagnostic}
    (listed : d ∈ (first ++ second).complaints) :
    d ∈ first.complaints ∨ d ∈ second.complaints := by
  change d ∈ (append first second).complaints at listed
  unfold append at listed
  split at listed
  · exact .inl listed
  · exact List.mem_append.mp listed

theorem raises_append {first second : Findings}
    (one : doc.Raises lines first.complaints)
    (two : doc.Raises lines second.complaints) :
    doc.Raises lines (first ++ second).complaints := by
  intro d listed
  rcases mem_complaints_of_append listed with here | there
  · exact one d here
  · exact two d there

theorem raises_complaintIf (condition : Bool) {d : Diagnostic}
    (raises : doc.Raises lines [d]) :
    doc.Raises lines (complaintIf condition d).complaints := by
  cases condition with
  | false => exact raises_nil
  | true => exact raises

theorem raises_concat {parts : List Findings}
    (all : ∀ part ∈ parts, doc.Raises lines part.complaints) :
    doc.Raises lines (concat parts).complaints := by
  induction parts with
  | nil => exact raises_nil
  | cons part rest induction =>
      obtain ⟨first, others⟩ := List.forall_mem_cons.mp all
      exact raises_append first (induction others)

theorem raises_withType (r : Registry) (h : Handle)
    {next : Descriptor → Findings}
    (all : ∀ d, doc.Raises lines (next d).complaints) :
    doc.Raises lines (withType r h next).complaints := by
  unfold withType
  split
  · exact all _
  · exact raises_nil

end Findings

open Findings

theorem raises_checkMarshallable (doc : Document) (r : Registry) {line : Nat}
    (listed : line ∈ lines) (t : ResolvedType) :
    doc.Raises lines (checkMarshallable r (doc.site line) t).complaints := by
  refine raises_withType r _ fun d => raises_append ?_ (raises_concat ?_)
  · split
    · exact raises_errorAt listed nofun
    · exact raises_complaintIf _ (raises_errorAt listed nofun)
  · simp only [List.forall_mem_map]
    intro part _
    exact raises_withType r part fun _ =>
      raises_complaintIf _ (raises_errorAt listed nofun)

theorem raises_checkParameters (doc : Document) (r : Registry)
    (m : ResolvedMethod) (seen : List String)
    {parameters : List ResolvedParameter}
    (listed : ∀ p ∈ parameters, p.line ∈ lines) :
    doc.Raises lines (checkParameters doc r m seen parameters).complaints := by
  induction parameters generalizing seen with
  | nil => exact raises_nil
  | cons p rest induction =>
      obtain ⟨here, later⟩ := List.forall_mem_cons.mp listed
      refine raises_append
        (raises_append (raises_complaintIf _ (raises_errorAt here nofun)) ?_)
        (induction _ later)
      unfold checkParameterType
      split
      · exact raises_errorAt here nofun
      · dsimp only
        split
        · refine raises_withType r _ fun d => raises_append ?_ ?_
          · exact raises_complaintIf _ (raises_errorAt here nofun)
          · exact raises_complaintIf _ (raises_singleton here ⟨rfl, nofun⟩ rfl)
        · exact raises_checkMarshallable doc r here _

theorem raises_checkMethod (doc : Document) (r : Registry) {m : ResolvedMethod}
    (listed : m.lines ⊆ lines) :
    doc.Raises lines (checkMethod doc r m).complaints := by
  obtain ⟨own, parameters⟩ := List.cons_subset.mp listed
  refine raises_append ?_ (raises_checkParameters doc r m [] fun p member =>
    parameters (List.mem_map_of_mem member))
  unfold checkReturn
  split
  · exact raises_nil
  · exact raises_append (raises_checkMarshallable doc r own _)
      (raises_complaintIf _ (raises_errorAt own nofun))

theorem raises_checkMethods (doc : Document) (r : Registry) (seen : List String)
    {methods : List ResolvedMethod} (listed : ∀ m ∈ methods, m.lines ⊆ lines) :
    doc.Raises lines (checkMethods doc r seen methods).findings.complaints := by
  induction methods generalizing seen with
  | nil => exact raises_nil
  | cons m rest induction =>
      obtain ⟨here, later⟩ := List.forall_mem_cons.mp listed
      have own : m.line ∈ lines := (List.cons_subset.mp here).1
      have first {d : Diagnostic} (raises : doc.Raises lines [d]) :=
        raises_append (raises_checkMethod doc r here)
          (raises_complaintIf (seen.contains m.name) raises)
      unfold checkMethods
      dsimp only
      split
      · exact first (raises_errorAt own nofun)
      · exact raises_append (first (raises_errorAt own nofun))
          (induction _ later)

theorem raises_checkInterfaces (doc : Document) (r : Registry)
    {interfaces : List ResolvedInterface}
    (listed : ∀ i ∈ interfaces, ∀ m ∈ i.methods, m.lines ⊆ lines) :
    doc.Raises lines
      (checkInterfaces doc r interfaces).findings.complaints := by
  induction interfaces with
  | nil => exact raises_nil
  | cons i rest induction =>
      obtain ⟨here, later⟩ := List.forall_mem_cons.mp listed
      have first := raises_checkMethods doc r [] here
      unfold checkInterfaces
      dsimp only
      split
      · exact first
      · exact raises_append first (induction later)

theorem raises_declare (doc : Document) (r : Registry) :
    doc.Raises doc.lines (doc.declare r).2 :=
  raises_declareItems doc r doc.items

theorem raises_resolve (doc : Document) (r : Registry) :
    doc.Raises doc.lines (doc.resolve r).reports :=
  (raises_resolveInterfaces doc r doc.interfaces).mono
    doc.lines_interfaces_subset

theorem raises_check (doc : Document) (r later : Registry) :
    doc.Raises doc.lines
      (checkInterfaces doc later (doc.resolve r).result).findings.complaints :=
  raises_checkInterfaces doc later fun _ listed m member =>
    List.Subset.trans (lines_subset_of_mem_resolveInterfaces listed m member)
      doc.lines_interfaces_subset

/-- The reports of declaration, resolution and check, in this order. The
declaration has given `before`. -/
def allReports (doc : Document) (r : Registry) (before : List Diagnostic) :
    List Diagnostic :=
  let resolved := doc.resolve r
  before ++ resolved.reports ++
    (checkInterfaces doc resolved.registry resolved.result).findings.complaints

variable {before : List Diagnostic}

theorem raises_allReports (r : Registry)
    (raises : doc.Raises doc.lines before) :
    doc.Raises doc.lines (doc.allReports r before) :=
  (raises.append (raises_resolve doc r)).append (raises_check doc r _)

theorem silent_of_allReports (raises : doc.Raises doc.lines before)
    (silent : (doc.allReports r before).any Diagnostic.isError = false) :
    before = [] ∧ (doc.resolve r).reports = [] ∧
      (checkInterfaces doc (doc.resolve r).registry
        (doc.resolve r).result).findings.complaints = [] := by
  have nothing :=
    Diagnostic.eq_nil_of_silent (raises_allReports r raises).isUserError silent
  simpa [allReports, and_assoc] using nothing

end Document

end BinderIdl
