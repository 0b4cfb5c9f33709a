import BinderIdl.Proofs.Parcel.Carried
import BinderIdl.Proofs.Types.Naming

/-! What an instance of a template says about itself stays true of its type
arguments, whatever is registered later: they stand at earlier handles and are
no instances, the text lists their names, and a list carries its elements as
their own strategy asks. Arguments therefore never lead in a circle. -/

namespace BinderIdl.Types

open Parcel

/-- The parcel calls that suit elements of a type. -/
inductive Descriptor.CarriedAs (d : Descriptor) : ListElement → Prop where
  | strings : d.strategy = .string → CarriedAs d .strings
  | binders : d.strategy = .binder .handle → CarriedAs d .binders
  | typed : d.strategy = .parcelable →
      CarriedAs d (.typed (d.qualifiedName ++ ".CREATOR"))
  | untyped : d.strategy ≠ .string → d.strategy ≠ .binder .handle →
      d.strategy ≠ .parcelable → CarriedAs d .untyped

theorem Descriptor.carriedAs_ofType (d : Descriptor) :
    d.CarriedAs (.ofType d) := by
  unfold ListElement.ofType
  split
  · next string => exact .strings string
  · next binder => exact .binders binder
  · next record => exact .typed record
  · next string binder record => exact .untyped string binder record

/-- The strategy of a list, as opposed to that of other containers. -/
def Strategy.isGenericList : Strategy → Bool
  | .genericList _ _ => true
  | _ => false

namespace Template

theorem argumentText_apply (t : Template) (handles : List Handle)
    (arguments : List Descriptor) :
    (t.apply handles arguments).argumentText = render arguments := by
  unfold apply
  split <;> rfl

theorem isGenericList_apply (t : Template) (handles : List Handle)
    {types : List Descriptor} (arity : types.length = t.arity) :
    (t.apply handles types).strategy.isGenericList = t.isList := by
  cases isList : t.isList with
  | false => simp [apply, isList, Descriptor.ofTemplate, Strategy.isGenericList]
  | true =>
      have single : types.length = 1 :=
        arity.trans (by simpa using (Bool.and_eq_true_iff.mp isList).2)
      obtain ⟨element, rfl⟩ := List.length_eq_one_iff.mp single
      simp [apply, isList, Descriptor.ofTemplate, Strategy.isGenericList]

end Template

namespace Registry

variable {r : Registry} {h : Handle} {d : Descriptor}

/-- What an instance says about itself is true of the types that its
arguments denote. -/
structure Consistent (r : Registry) (h : Handle) (d : Descriptor) : Prop where
  isInstance : d.strategy.arguments?.isSome
  earlier : ∀ part ∈ d.argumentHandles, part.index < h.index
  named : ∃ types, r.Arguments d.argumentHandles types ∧ d.argumentText =
    "<" ++ String.intercalate "," (types.map Descriptor.qualifiedName) ++ ">"
  isList_iff : d.strategy.isGenericList ↔
    d.name = "List" ∧ d.argumentHandles.length = 1
  element : ∀ arguments element, d.strategy = .genericList arguments element →
    ∃ part type, d.argumentHandles = [part] ∧
      r.get? part = some type ∧ type.CarriedAs element
  canWrite_iff : d.canWrite ↔
    d.argumentHandles.length = 1 ∨ d.argumentHandles.length = 2
  canBeOut_iff : d.canBeOut ↔
    d.argumentHandles.length = 1 ∨ d.argumentHandles.length = 2

def IsArgument (r : Registry) (part whole : Handle) : Prop :=
  ∃ d, r.get? whole = some d ∧ part ∈ d.argumentHandles

theorem isSome_arguments?_apply (t : Template) (handles : List Handle)
    (arguments : List Descriptor) :
    (t.apply handles arguments).strategy.arguments?.isSome := by
  unfold Template.apply
  split <;> rfl

theorem capable_apply (t : Template) {handles : List Handle}
    {types : List Descriptor} (arity : handles.length = t.arity)
    (counted : handles.length = types.length) :
    ((t.apply handles types).canWrite ↔ t.arity = 1 ∨ t.arity = 2) ∧
      ((t.apply handles types).canBeOut ↔ t.arity = 1 ∨ t.arity = 2) := by
  rcases apply_cases t arity counted with
    ⟨_, element, capable, single, _, _⟩ | ⟨_, capable, _, _⟩
  · have few : t.arity = 1 ∨ t.arity = 2 :=
      .inl (by rw [← arity, counted, single]; rfl)
    rw [Descriptor.canWrite, Descriptor.canBeOut, capable]
    exact ⟨iff_of_true Capabilities.canWrite_writeAndOut few,
      iff_of_true Capabilities.canBeOut_writeAndOut few⟩
  · rw [Descriptor.canWrite, Descriptor.canBeOut, capable]
    exact ⟨Template.canWrite_iff, Template.canBeOut_iff⟩

theorem WellFormed.consistent (formed : r.WellFormed)
    (known : r.get? h = some d) (generic : d.kind = .generic) :
    r.Consistent h d := by
  obtain ⟨t, handles, types, arity, given, earlier, rfl⟩ :=
    formed.exists_apply known generic
  have counted := given.length_eq
  obtain ⟨canWrite, canBeOut⟩ := capable_apply t arity counted
  constructor
  case isInstance => exact isSome_arguments?_apply t handles types
  case named =>
    exact ⟨types, by rwa [argumentHandles_apply],
      t.argumentText_apply handles types⟩
  case isList_iff =>
    rw [t.isGenericList_apply handles (counted ▸ arity), argumentHandles_apply,
      Template.name_apply, arity]
    simp [Template.isList]
  case element =>
    intro arguments element list
    rcases apply_cases t arity counted with
      ⟨_, type, _, single, _, ofType⟩ | ⟨_, _, _, other⟩
    · cases ofType.symm.trans list
      subst single
      obtain ⟨part, rfl⟩ := List.length_eq_one_iff.mp counted
      obtain ⟨⟨denoted, _⟩, _⟩ := List.forall₂_cons.mp given
      exact ⟨part, type, argumentHandles_apply t _ _, denoted,
        type.carriedAs_ofType⟩
    · cases other.symm.trans list
  all_goals rw [argumentHandles_apply]
  case earlier => exact earlier
  case canWrite_iff => rwa [arity]
  case canBeOut_iff => rwa [arity]

theorem WellFormed.index_lt_of_isArgument (formed : r.WellFormed)
    {part whole : Handle} (argument : r.IsArgument part whole) :
    part.index < whole.index := by
  obtain ⟨d, known, listed⟩ := argument
  by_cases generic : d.kind = .generic
  · exact (formed.consistent known generic).earlier part listed
  · rw [Descriptor.argumentHandles,
      formed.arguments?_eq_none known generic] at listed
    cases listed

/-- Following arguments comes to an end, since it leads to
earlier types only. -/
theorem WellFormed.wellFounded_isArgument (formed : r.WellFormed) :
    WellFounded r.IsArgument :=
  Subrelation.wf (fun argument => formed.index_lt_of_isArgument argument)
    (measure Handle.index).wf

end Registry

end BinderIdl.Types
