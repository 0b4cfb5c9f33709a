import BinderIdl.Parcel.Create
import BinderIdl.Proofs.Parcel.Statements
import BinderIdl.Proofs.Types.WellFormed

namespace BinderIdl.Parcel

open Java BinderIdl.Types Emitter

def loaderVariable : Variable := ⟨"java.lang.ClassLoader", loaderName⟩

/-- The state of an emitter that has declared the class loader, or has not. -/
def slot (held : Bool) :
    Option Variable := if held then some loaderVariable else none

/-- A class loader that was declared is in scope. -/
def Loaded (held : Bool) (env : Env) : Prop :=
  held → env.get? loaderVariable = some (.symbol loaderText)

/-- The code that declares a class loader where one is needed and
not there yet. -/
def acquireCode (held needed : Bool) : Block :=
  if needed && !held then [.declare loaderVariable loaderValue] else []

def acquired (held needed : Bool) : Env :=
  if needed && !held then [(loaderVariable, some (.symbol loaderText))] else []

variable {m : Platform} {r : Registry} {s : State} {held needed : Bool}

theorem acquire_slot (formed : r.WellFormed) (held : Bool) :
    acquire r (slot held) =
      ⟨acquireCode held true, slot true, .ok loaderVariable⟩ := by
  cases held with
  | true => rfl
  | false =>
      simp only [acquire, slot, formed.require_builtIn (h := .classLoader) rfl]
      rfl

theorem acquireIf_slot (formed : r.WellFormed) (held needed : Bool) :
    acquireIf r needed (slot held) =
      ⟨acquireCode held needed, slot (held || needed), .ok ()⟩ := by
  cases needed with
  | true =>
      have taken := acquire_slot formed held
      simp only [acquireIf, if_true, Bool.or_true]
      rw [run_bind_ok (by rw [taken]), taken]
      simp [run_pure]
  | false => simp [acquireIf, run_pure, acquireCode]

theorem eq_loader_of_mem_acquired {entry : Variable × Option Value}
    (listed : entry ∈ acquired held needed) : entry.1 = loaderVariable := by
  unfold acquired at listed
  split at listed
  · rw [List.mem_singleton] at listed
    rw [listed]
  · cases listed

theorem get?_acquired {v : Variable} (other : v ≠ loaderVariable) (env : Env) :
    (acquired held needed ++ env).get? v = env.get? v :=
  Env.get?_append_of_forall_ne
    (fun _ listed => eq_loader_of_mem_acquired listed ▸ other.symm) env

theorem loaded_acquired (needed : Bool) (loaded : Loaded held s.env) :
    Loaded (held || needed) (acquired held needed ++ s.env) := by
  intro declared
  cases held with
  | true => simpa [acquired] using loaded rfl
  | false =>
      cases needed with
      | true => exact Env.get?_cons_self _ _ _
      | false => cases declared

theorem exec_acquireCode (held needed : Bool) (m : Platform) (s : State) :
    Block.exec m (acquireCode held needed) s =
      some { s with env := acquired held needed ++ s.env } := by
  unfold acquireCode acquired
  split
  · simp [Stmt.exec, loaderValue, Expr.eval, Expr.evalAll, Value.ofLiteral,
      Platform.call, callSymbol, State.push]
  · rfl

def binderVariable (value : Variable) :
    Variable := value.derived "android.os.IBinder" "binder"

/-- What code declares that gives a variable a value. -/
inductive Helper (value : Variable) : Variable → Prop where
  | self : Helper value value
  | size : Helper value (sizeVariable value)
  | length : Helper value (value.derived "int" "length")
  | binder : Helper value (binderVariable value)
  | loader : Helper value loaderVariable

theorem derived_ne_derived (owner : Variable) (first second : String)
    {one two : String} (other : one ≠ two) :
    owner.derived first one ≠ owner.derived second two := by
  intro same
  have names : owner.name ++ "_" ++ one = owner.name ++ "_" ++ two :=
    congrArg Variable.name same
  exact other ((String.append_right_inj _).mp names)

theorem derived_ne_owner (owner : Variable) (type suffix : String) :
    owner.derived type suffix ≠ owner := by
  intro same
  have names : owner.name ++ "_" ++ suffix = owner.name :=
    congrArg Variable.name same
  have lengths := congrArg String.length names
  simp only [String.length_append] at lengths
  have mark : "_".length = 1 := rfl
  omega

theorem derived_derived (owner : Variable) (first second one two : String) :
    (owner.derived first one).derived second two =
      owner.derived second (one ++ "_" ++ two) := by
  simp only [Variable.derived, String.append_assoc]

theorem ne_of_type_ne {v w : Variable} (other : v.type ≠ w.type) : v ≠ w :=
  fun same => other (congrArg Variable.type same)

/-- The helpers of a variable inside a loop are no variables of the loop. -/
theorem Helper.ne_owner {owner v : Variable} {type suffix : String}
    (helper : Helper (owner.derived type suffix) v)
    (plain : owner.type ≠ "java.lang.ClassLoader") : v ≠ owner := by
  cases helper with
  | self => exact derived_ne_owner owner type suffix
  | size =>
      exact (derived_derived owner _ _ _ _).trans_ne
        (derived_ne_owner owner _ _)
  | length =>
      exact (derived_derived owner _ _ _ _).trans_ne
        (derived_ne_owner owner _ _)
  | binder =>
      exact (derived_derived owner _ _ _ _).trans_ne
        (derived_ne_owner owner _ _)
  | loader => exact (ne_of_type_ne (w := loaderVariable) plain).symm

theorem Helper.ne_derived {owner v : Variable} {type suffix other name : String}
    (helper : Helper (owner.derived type suffix) v)
    (plain : other ≠ "java.lang.ClassLoader") (self : suffix ≠ name)
    (size : suffix ++ "_" ++ "size" ≠ name)
    (length : suffix ++ "_" ++ "length" ≠ name)
    (binder : suffix ++ "_" ++ "binder" ≠ name) :
    v ≠ owner.derived other name := by
  cases helper with
  | self => exact derived_ne_derived owner _ _ self
  | size =>
      exact (derived_derived owner _ _ _ _).trans_ne
        (derived_ne_derived owner _ _ size)
  | length =>
      exact (derived_derived owner _ _ _ _).trans_ne
        (derived_ne_derived owner _ _ length)
  | binder =>
      exact (derived_derived owner _ _ _ _).trans_ne
        (derived_ne_derived owner _ _ binder)
  | loader => exact (ne_of_type_ne (w := loaderVariable) plain).symm

theorem Helper.ne_parcel {value parcel v : Variable} (helper : Helper value v)
    (typed : parcel.type = "android.os.Parcel")
    (plain : value.type ≠ "android.os.Parcel") :
    v ≠ parcel := by
  apply ne_of_type_ne
  rw [typed]
  cases helper with
  | self => exact plain
  | size => exact (by decide : "int" ≠ "android.os.Parcel")
  | length => exact (by decide : "int" ≠ "android.os.Parcel")
  | binder => exact (by decide : "android.os.IBinder" ≠ "android.os.Parcel")
  | loader => exact (by decide : "java.lang.ClassLoader" ≠ "android.os.Parcel")

/-- A variable that is neither a parcel nor the class loader. -/
structure Plain (v : Variable) : Prop where
  loader : v.type ≠ "java.lang.ClassLoader"
  parcel : v.type ≠ "android.os.Parcel"

theorem Plain.ne_parcel {v parcel : Variable} (plain : Plain v)
    (typed : parcel.type = "android.os.Parcel") : v ≠ parcel :=
  ne_of_type_ne (typed ▸ plain.parcel)

theorem plain_of_qualifiedName (formed : r.WellFormed) {h : Handle}
    {d : Descriptor} (known : r.get? h = some d) (other : d.strategy ≠ .helper)
    {v : Variable} (typed : v.type = d.qualifiedName) : Plain v where
  loader := typed ▸
    formed.qualifiedName_ne_helper known other (k := .classLoader) rfl rfl
  parcel :=
    typed ▸ formed.qualifiedName_ne_helper known other (k := .parcel) rfl rfl

theorem plain_int {v : Variable} (typed : v.type = "int") : Plain v where
  loader := by rw [typed]; decide
  parcel := by rw [typed]; decide

theorem Plain.ne_loader {v : Variable} (plain : Plain v) : v ≠ loaderVariable :=
  ne_of_type_ne (w := loaderVariable) plain.loader

end BinderIdl.Parcel
