import BinderIdl.Document.Legality
import BinderIdl.Proofs.Document.Resolution

namespace BinderIdl.Document

open Source BinderIdl.Types

variable {r : Registry} {doc : Document} {m : ResolvedMethod}

structure Marshallable (r : Registry) (t : ResolvedType) (d : Descriptor) :
    Prop where
  known : r.get? t.handle = some d
  writable : d.canWrite
  array : t.isArray → d.canBeArray
  arguments : ∀ part ∈ d.argumentHandles, ∃ e, r.get? part = some e ∧ e.canWrite

structure LegalParameter (r : Registry) (oneway : Bool)
    (p : ResolvedParameter) : Prop where
  notVoid : p.type.isVoid = false
  marshallable : ∃ d, Marshallable r p.type d ∧
    (p.direction.isOut → oneway = false ∧ canReadInto d p.type.isArray)

structure LegalMethod (r : Registry) (m : ResolvedMethod) : Prop where
  result : m.returnType.isVoid ∨
    m.oneway = false ∧ ∃ d, Marshallable r m.returnType d
  distinct : (m.parameters.map ResolvedParameter.name).Nodup
  parameters : ∀ p ∈ m.parameters, LegalParameter r m.oneway p

namespace Findings

theorem isClean_iff (f : Findings) :
    f.isClean ↔ f.complaints = [] ∧ f.dangling = none := by
  simp [isClean]

theorem dangling_append {first second : Findings} (one : first.dangling = none)
    (two : second.dangling = none) : (first ++ second).dangling = none := by
  change (append first second).dangling = none
  simp only [append, one, two]

theorem complaints_append {first : Findings} (second : Findings)
    (going : first.dangling = none) :
    (first ++ second).complaints = first.complaints ++ second.complaints := by
  change (append first second).complaints = _
  simp only [append, going]

theorem isClean_append (first second : Findings) :
    (first ++ second).isClean ↔ first.isClean ∧ second.isClean := by
  change (append first second).isClean ↔ _
  obtain ⟨_, _ | _⟩ := first <;> simp [append, isClean, and_assoc]

theorem isClean_empty : empty.isClean := rfl

theorem isClean_complaintIf (condition : Bool) (d : Diagnostic) :
    (complaintIf condition d).isClean ↔ condition = false := by
  cases condition <;> simp [complaintIf, complaint, empty, isClean]

theorem isClean_concat (parts : List Findings) :
    (concat parts).isClean ↔ ∀ part ∈ parts, part.isClean := by
  induction parts with
  | nil => simp [concat, isClean_empty]
  | cons part rest induction =>
      have step : concat (part :: rest) = part ++ concat rest := rfl
      rw [step, isClean_append, induction, List.forall_mem_cons]

theorem isClean_withType (r : Registry) (h : Handle)
    (next : Descriptor → Findings) :
    (withType r h next).isClean ↔
      ∃ d, r.get? h = some d ∧ (next d).isClean := by
  unfold withType
  cases r.get? h <;> simp [stop, isClean]

theorem dangling_complaintIf (condition : Bool) (d : Diagnostic) :
    (complaintIf condition d).dangling = none := by
  cases condition <;> rfl

theorem dangling_concat {parts : List Findings}
    (going : ∀ part ∈ parts, part.dangling = none) :
    (concat parts).dangling = none := by
  induction parts with
  | nil => rfl
  | cons part rest induction =>
      obtain ⟨first, others⟩ := List.forall_mem_cons.mp going
      exact dangling_append first (induction others)

theorem withType_eq {r : Registry} {h : Handle} {d : Descriptor}
    (known : r.get? h = some d) (next : Descriptor → Findings) :
    withType r h next = next d := by
  simp [withType, known]

/-- Every complaint is an error in what was compiled. -/
def OnlyUserErrors (f : Findings) : Prop := ∀ d ∈ f.complaints, d.IsUserError

end Findings

open Findings

theorem isClean_checkMarshallable_iff {site : Site} {t : ResolvedType} :
    (checkMarshallable r site t).isClean ↔ ∃ d, Marshallable r t d := by
  simp only [checkMarshallable, isClean_withType, isClean_append,
    isClean_concat, List.forall_mem_map, checkArgument, isClean_complaintIf,
    Bool.not_eq_false']
  constructor
  · rintro ⟨d, known, uses, arguments⟩
    split at uses
    · simp [complaint, isClean] at uses
    · next writable =>
        rw [isClean_complaintIf] at uses
        refine ⟨d, known, by simpa using writable, ?_, arguments⟩
        intro array
        simpa [array] using uses
  · rintro ⟨d, known, writable, array, arguments⟩
    refine ⟨d, known, ?_, arguments⟩
    rw [if_neg (by simp [writable]), isClean_complaintIf]
    simpa using array

theorem isClean_checkOut_iff {p : ResolvedParameter} {site : Site}
    {d : Descriptor} :
    (checkOut m p site d).isClean ↔
      m.oneway = false ∧ canReadInto d p.type.isArray := by
  simp [checkOut, isClean_append, isClean_complaintIf]

theorem isClean_checkParameterType_iff {p : ResolvedParameter} {site : Site} :
    (checkParameterType r m p site).isClean ↔ LegalParameter r m.oneway p := by
  unfold checkParameterType
  split
  · next isVoid =>
      constructor
      · simp [complaint, isClean]
      · intro legal
        rw [legal.notVoid] at isVoid
        cases isVoid
  · next notVoid =>
      have notVoid : p.type.isVoid = false := by simpa using notVoid
      dsimp only
      split
      · next condition =>
          obtain ⟨marshalling, comesBack⟩ := Bool.and_eq_true_iff.mp condition
          obtain ⟨d, marshallable⟩ :=
            isClean_checkMarshallable_iff.mp marshalling
          rw [withType_eq marshallable.known, isClean_checkOut_iff]
          constructor
          · exact fun fit => ⟨notVoid, d, marshallable, fun _ => fit⟩
          · rintro ⟨_, e, other, fit⟩
            cases Option.some.inj (marshallable.known.symm.trans other.known)
            exact fit comesBack
      · next condition =>
          rw [isClean_checkMarshallable_iff]
          constructor
          · rintro ⟨d, marshallable⟩
            refine ⟨notVoid, d, marshallable, fun comesBack => ?_⟩
            exact absurd
              (Bool.and_eq_true_iff.mpr ⟨isClean_checkMarshallable_iff.mpr
                  ⟨d, marshallable⟩, comesBack⟩) condition
          · rintro ⟨_, d, marshallable, _⟩
            exact ⟨d, marshallable⟩

/-- The names seen so far stand for the parameters in front. -/
theorem isClean_checkParameters_iff {seen : List String}
    {parameters : List ResolvedParameter} :
    (checkParameters doc r m seen parameters).isClean ↔
      (∀ p ∈ parameters, LegalParameter r m.oneway p ∧ p.name ∉ seen) ∧
        (parameters.map ResolvedParameter.name).Nodup := by
  induction parameters generalizing seen with
  | nil => simp [checkParameters, isClean_empty]
  | cons p rest induction =>
      simp only [checkParameters, isClean_append, isClean_complaintIf,
        isClean_checkParameterType_iff, induction, List.contains_eq_mem,
        decide_eq_false_iff_not, List.mem_cons, forall_eq_or_imp, List.map_cons,
        List.nodup_cons, not_or, List.mem_map, not_exists, not_and]
      constructor
      · rintro ⟨⟨unseen, legal⟩, others, distinct⟩
        exact ⟨⟨⟨legal, unseen⟩,
          fun q listed => ⟨(others q listed).1, (others q listed).2.2⟩⟩,
          fun q listed => (others q listed).2.1, distinct⟩
      · rintro ⟨⟨⟨legal, unseen⟩, others⟩, apart, distinct⟩
        exact ⟨⟨unseen, legal⟩, fun q listed =>
          ⟨(others q listed).1, apart q listed, (others q listed).2⟩, distinct⟩

theorem isClean_checkReturn_iff :
    (checkReturn doc r m).isClean ↔ m.returnType.isVoid ∨
      m.oneway = false ∧ ∃ d, Marshallable r m.returnType d := by
  unfold checkReturn
  split
  · next isVoid => simp [isVoid, isClean_empty]
  · next notVoid =>
      simp only [isClean_append, isClean_checkMarshallable_iff,
        isClean_complaintIf, notVoid, Bool.false_eq_true, false_or]
      exact And.comm

theorem isClean_checkMethod_iff :
    (checkMethod doc r m).isClean ↔ LegalMethod r m := by
  rw [checkMethod, isClean_append, isClean_checkReturn_iff,
    isClean_checkParameters_iff]
  constructor
  · rintro ⟨result, parameters, distinct⟩
    exact ⟨result, distinct, fun p listed => (parameters p listed).1⟩
  · rintro ⟨result, distinct, parameters⟩
    exact ⟨result, fun p listed => ⟨parameters p listed, by simp⟩, distinct⟩

theorem dangling_checkMarshallable (formed : r.WellFormed) (site : Site)
    {t : ResolvedType} (known : t.Known r) :
    (checkMarshallable r site t).dangling = none := by
  obtain ⟨d, here⟩ := known
  rw [checkMarshallable, withType_eq here]
  apply dangling_append
  · split
    · rfl
    · exact dangling_complaintIf _ _
  · apply dangling_concat
    simp only [List.forall_mem_map]
    intro part listed
    obtain ⟨e, argument, _⟩ := formed.argument_known here listed
    rw [checkArgument, withType_eq argument]
    exact dangling_complaintIf _ _

theorem dangling_checkParameters (formed : r.WellFormed) (seen : List String)
    {parameters : List ResolvedParameter}
    (known : ∀ p ∈ parameters, p.type.Known r) :
    (checkParameters doc r m seen parameters).dangling = none := by
  induction parameters generalizing seen with
  | nil => rfl
  | cons p rest induction =>
      obtain ⟨here, others⟩ := List.forall_mem_cons.mp known
      refine dangling_append (dangling_append (dangling_complaintIf _ _) ?_)
        (induction (p.name :: seen) others)
      unfold checkParameterType
      split
      · rfl
      · dsimp only
        split
        · obtain ⟨d, found⟩ := here
          rw [withType_eq found]
          exact dangling_append (dangling_complaintIf _ _)
            (dangling_complaintIf _ _)
        · exact dangling_checkMarshallable formed _ here

theorem dangling_checkMethod (doc : Document) (formed : r.WellFormed)
    (known : m.Known r) :
    (checkMethod doc r m).dangling = none := by
  apply dangling_append
  · unfold checkReturn
    split
    · rfl
    · exact dangling_append
        (dangling_checkMarshallable formed _ known.returnType)
        (dangling_complaintIf _ _)
  · exact dangling_checkParameters formed [] known.parameters

/-- A review that went through: what is kept meets `Kept`, what is found are
errors of the document, and without one nothing was taken away. -/
structure Review.Complete {α : Type} (Kept : α → Prop) (given : List α)
    (review : Review (List α)) : Prop where
  dangling : review.findings.dangling = none
  kept : ∀ a ∈ review.kept, Kept a
  reports : review.findings.OnlyUserErrors
  silent : review.findings.complaints = [] → review.kept = given

theorem onlyUserErrors_checkMethods (doc : Document) (r : Registry)
    (seen : List String) (methods : List ResolvedMethod) :
    (checkMethods doc r seen methods).findings.OnlyUserErrors := by
  have raises : doc.Raises (methods.flatMap ResolvedMethod.lines) _ :=
    raises_checkMethods doc r seen fun m listed _ here =>
      List.mem_flatMap.mpr ⟨m, listed, here⟩
  exact raises.isUserError

theorem checkMethods_complete (formed : r.WellFormed) (doc : Document)
    (seen : List String) {methods : List ResolvedMethod}
    (known : ∀ m ∈ methods, m.Known r) :
    (checkMethods doc r seen methods).Complete
      (fun m => m ∈ methods ∧ LegalMethod r m) methods := by
  induction methods generalizing seen with
  | nil =>
      exact ⟨rfl, nofun, onlyUserErrors_checkMethods doc r seen [],
        fun _ => rfl⟩
  | cons m rest induction =>
      obtain ⟨here, later⟩ := List.forall_mem_cons.mp known
      have others := induction (m.name :: seen) later
      have going :=
        dangling_append (dangling_checkMethod doc formed here)
          (dangling_complaintIf (seen.contains m.name)
            (.errorAt .duplicateName (doc.site m.line) ("method " ++ m.name ++
                " is declared more than once") "redeclared here"))
      refine ⟨?_, ?_, onlyUserErrors_checkMethods doc r seen (m :: rest),
        ?_⟩ <;> simp only [checkMethods, going]
      · exact dangling_append going others.dangling
      · intro k listed
        have ofOthers : k ∈ (checkMethods doc r (m.name :: seen) rest).kept →
            k ∈ m :: rest ∧ LegalMethod r k :=
          fun member =>
            ⟨List.mem_cons_of_mem m (others.kept k member).1,
              (others.kept k member).2⟩
        split at listed
        · next clean =>
            rcases List.mem_cons.mp listed with rfl | member
            · exact ⟨List.mem_cons_self .., isClean_checkMethod_iff.mp
                ((isClean_append _ _).mp clean).1⟩
            · exact ofOthers member
        · exact ofOthers listed
      · intro silent
        rw [complaints_append _ going] at silent
        obtain ⟨first, rest⟩ := List.append_eq_nil_iff.mp silent
        rw [if_pos ((isClean_iff _).mpr ⟨first, going⟩), others.silent rest]

/-- An interface of the given ones, with some of its methods, all
of them legal. -/
def LegalPart (r : Registry) (interfaces : List ResolvedInterface)
    (i : ResolvedInterface) : Prop :=
  ∃ whole ∈ interfaces, i.handle = whole.handle ∧
    ∀ m ∈ i.methods, m ∈ whole.methods ∧ LegalMethod r m

theorem onlyUserErrors_checkInterfaces (doc : Document) (r : Registry)
    (interfaces : List ResolvedInterface) :
    (checkInterfaces doc r interfaces).findings.OnlyUserErrors := by
  have raises : doc.Raises
      (interfaces.flatMap fun i => i.methods.flatMap ResolvedMethod.lines) _ :=
    raises_checkInterfaces doc r fun i listed m member _ here =>
      List.mem_flatMap.mpr ⟨i, listed, List.mem_flatMap.mpr ⟨m, member, here⟩⟩
  exact raises.isUserError

theorem checkInterfaces_complete (formed : r.WellFormed) (doc : Document)
    {interfaces : List ResolvedInterface}
    (known : ∀ i ∈ interfaces, i.Known r) :
    (checkInterfaces doc r interfaces).Complete (LegalPart r interfaces)
      interfaces := by
  induction interfaces with
  | nil =>
      exact ⟨rfl, nofun, onlyUserErrors_checkInterfaces doc r [], fun _ => rfl⟩
  | cons i rest induction =>
      obtain ⟨here, later⟩ := List.forall_mem_cons.mp known
      have others := induction later
      have first := checkMethods_complete formed doc [] here.methods
      refine ⟨?_, ?_, onlyUserErrors_checkInterfaces doc r (i :: rest), ?_⟩ <;>
        simp only [checkInterfaces, checkInterface, first.dangling]
      · exact dangling_append first.dangling others.dangling
      · intro j listed
        rcases List.mem_cons.mp listed with rfl | member
        · exact ⟨i, List.mem_cons_self .., rfl, first.kept⟩
        · obtain ⟨whole, among, same, methods⟩ := others.kept j member
          exact ⟨whole, List.mem_cons_of_mem i among, same, methods⟩
      · intro silent
        rw [complaints_append _ first.dangling] at silent
        obtain ⟨one, more⟩ := List.append_eq_nil_iff.mp silent
        rw [first.silent one, others.silent more]

end BinderIdl.Document
