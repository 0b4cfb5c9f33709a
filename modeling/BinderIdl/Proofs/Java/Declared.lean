import BinderIdl.Java.Variables

namespace BinderIdl.Java

mutual
/-- The variables that a statement declares, at any depth. -/
def Stmt.declared : Stmt → List Variable
  | .expr _ | .assign _ _ => []
  | .declareUnset v | .declare v _ => [v]
  | .ifThen _ body => Block.declared body
  | .ifElse _ yes no => Block.declared yes ++ Block.declared no
  | .countUp index _ body => index :: Block.declared body
  | .forEach item _ body => item :: Block.declared body

def Block.declared : List Stmt → List Variable
  | [] => []
  | stmt :: rest => stmt.declared ++ Block.declared rest
end

mutual
theorem Stmt.declared_subset_vars : (stmt : Stmt) → stmt.declared ⊆ stmt.vars
  | .expr _ | .assign _ _ => List.nil_subset _
  | .declareUnset v => List.Subset.refl [v]
  | .declare v _ => List.cons_subset_cons v (List.nil_subset _)
  | .ifThen _ body =>
      List.subset_append_of_subset_right _ (Block.declared_subset_vars body)
  | .ifElse condition yes no => by
      simp only [Stmt.declared, Stmt.vars, List.append_subset]
      constructor
      · apply List.subset_append_of_subset_left
        exact List.subset_append_of_subset_right _
          (Block.declared_subset_vars yes)
      · exact List.subset_append_of_subset_right _
          (Block.declared_subset_vars no)
  | .countUp index _ body =>
      List.cons_subset_cons index
        (List.subset_append_of_subset_right _ (Block.declared_subset_vars body))
  | .forEach item _ body =>
      List.cons_subset_cons item
        (List.subset_append_of_subset_right _ (Block.declared_subset_vars body))

theorem Block.declared_subset_vars :
    (code : List Stmt) → Block.declared code ⊆ Block.vars code
  | [] => List.nil_subset _
  | stmt :: rest => by
      simp only [Block.declared, Block.vars, List.append_subset]
      constructor
      · exact List.subset_append_of_subset_left _ stmt.declared_subset_vars
      · exact List.subset_append_of_subset_right _
          (Block.declared_subset_vars rest)
end

namespace Block

@[simp] theorem declared_append (first second : Block) :
    declared (first ++ second) = declared first ++ declared second := by
  induction first with
  | nil => rfl
  | cons stmt rest induction => simp [declared, induction]

/-- No variable of the code goes by the name. -/
def Unmentioned (name : String) (code : Block) :
    Prop := ∀ v ∈ vars code, v.name ≠ name

/-- The code brings no variable of the name into scope. -/
def Undeclared (name : String) (code : Block) :
    Prop := ∀ v ∈ declared code, v.name ≠ name

variable {name : String} {first second : Block}

theorem unmentioned_nil (name : String) : Unmentioned name [] := by
  simp [Unmentioned, vars]

theorem unmentioned_append :
    Unmentioned name (first ++ second) ↔
      Unmentioned name first ∧ Unmentioned name second := by
  simp only [Unmentioned, vars_append, List.forall_mem_append]

theorem undeclared_append :
    Undeclared name (first ++ second) ↔
      Undeclared name first ∧ Undeclared name second := by
  simp only [Undeclared, declared_append, List.forall_mem_append]

theorem Unmentioned.undeclared {code : Block}
    (unmentioned : Unmentioned name code) :
    Undeclared name code :=
  fun v listed => unmentioned v (declared_subset_vars code listed)

/-- How often, and as what, the code declares the name. -/
def declarations (name : String) (code : Block) : List Variable :=
  (declared code).filter fun v => v.name == name

theorem declarations_eq_nil_iff {code : Block} :
    declarations name code = [] ↔ Undeclared name code := by
  simp [declarations, Undeclared]

theorem declarations_append :
    declarations name (first ++ second) =
      declarations name first ++ declarations name second := by
  simp [declarations]

end Block

end BinderIdl.Java
