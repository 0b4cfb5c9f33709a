import BinderIdl.Proofs.Types.Operations
import BinderIdl.Proofs.Types.Reference

/-! Names of instances. A name that is declared has no brackets, commas and
blanks, so the name of an instance is none of them, and it shows which template
and which arguments made it. -/

namespace BinderIdl.Types

/-- A name without separators and blanks. -/
def Unmarked (name : String) : Prop :=
  ∀ c ∈ name.toList, ¬ IsSeparator c ∧ Text.isBlank c = false

-- The characters of the name are tried, and not all characters that there are.
instance :
    DecidablePred Unmarked := fun name => List.decidableBAll _ name.toList

/-- A package and a name in it as declarations have them; the package may be the
default one. -/
structure WellNamed (package name : String) : Prop where
  nonempty : name ≠ ""
  package : Unmarked package
  name : Unmarked name

theorem Unmarked.spellable {name : String} (unmarked : Unmarked name)
    (nonempty : name ≠ "") :
    Spellable name.toList :=
  ⟨by simpa using nonempty, fun c listed => (unmarked c listed).1⟩

theorem Unmarked.qualify {package name : String} (inPackage : Unmarked package)
    (inName : Unmarked name) : Unmarked (qualify package name) := by
  unfold Types.qualify
  split
  · exact inName
  · intro c listed
    simp only [String.toList_append, List.mem_append] at listed
    rcases listed with (first | dot) | second
    · exact inPackage c first
    · cases List.mem_singleton.mp dot
      decide
    · exact inName c second

theorem WellNamed.qualify_ne_empty {package name : String}
    (named : WellNamed package name) :
    qualify package name ≠ "" := by
  unfold qualify
  split
  · exact named.nonempty
  · intro empty
    exact named.nonempty (String.append_eq_empty_iff.mp empty).2

theorem Unmarked.opening_not_mem {name : String} (unmarked : Unmarked name) :
    '<' ∉ name.toList :=
  fun listed => (unmarked _ listed).1 (.inl rfl)

theorem Unmarked.comma_not_mem {name : String} (unmarked : Unmarked name) :
    ',' ∉ name.toList :=
  fun listed => (unmarked _ listed).1 (.inr (.inr rfl))

theorem Reference.join_eq_intercalate (names : List (List Char)) :
    join names = [','].intercalate names := by
  induction names with
  | nil => rfl
  | cons name rest induction =>
      cases rest with
      | nil => simp [join, List.intercalate]
      | cons next more => rw [join, induction]; simp [List.intercalate]

namespace Template

theorem toList_instanceName (t : Template) (arguments : List Descriptor) :
    (t.instanceName arguments).toList =
      (Reference.generic t.qualifiedName
        (arguments.map Descriptor.qualifiedName)).text := by
  simp [instanceName, render, Reference.text, Reference.join_eq_intercalate]

theorem opening_mem_instanceName (t : Template) (arguments : List Descriptor) :
    '<' ∈ (t.instanceName arguments).toList := by
  simp [toList_instanceName, Reference.text]

/-- The name shows the template, and the arguments if their number is known. -/
theorem instanceName_inj {t u : Template} {arguments others : List Descriptor}
    (unmarked : Unmarked t.qualifiedName)
    (unmarkedOther : Unmarked u.qualifiedName)
    (plain : ∀ d ∈ arguments, Unmarked d.qualifiedName)
    (plainOther : ∀ d ∈ others, Unmarked d.qualifiedName)
    (same : t.instanceName arguments = u.instanceName others) :
    t.qualifiedName = u.qualifiedName ∧
    (arguments.length = others.length → arguments.map Descriptor.qualifiedName =
      others.map Descriptor.qualifiedName) := by
  have texts := congrArg String.toList same
  rw [toList_instanceName, toList_instanceName] at texts
  obtain ⟨base, joined⟩ := Reference.generic_text_inj unmarked.opening_not_mem
    unmarkedOther.opening_not_mem texts
  refine ⟨base, fun lengths => ?_⟩
  have commaless {ds : List Descriptor}
      (plain : ∀ d ∈ ds, Unmarked d.qualifiedName) : ∀ name ∈
        (ds.map Descriptor.qualifiedName).map String.toList, ',' ∉ name := by
    simp only [List.map_map, List.mem_map, Function.comp_apply,
      forall_exists_index, and_imp, forall_apply_eq_imp_iff₂]
    exact fun d listed => (plain d listed).comma_not_mem
  have names := Reference.join_inj (by simpa using lengths) (commaless plain)
    (commaless plainOther) joined
  exact (List.map_inj_right fun _ _ => String.toList_inj.mp).mp names

@[simp] theorem package_apply (t : Template) (handles : List Handle)
    (arguments : List Descriptor) :
    (t.apply handles arguments).package = t.package := by
  unfold apply
  split <;> rfl

@[simp] theorem name_apply (t : Template) (handles : List Handle)
    (arguments : List Descriptor) :
    (t.apply handles arguments).name = t.name := by
  unfold apply
  split <;> rfl

end Template

end BinderIdl.Types
