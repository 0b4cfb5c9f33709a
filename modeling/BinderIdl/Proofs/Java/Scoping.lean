import BinderIdl.Proofs.Java.Declared
import Mathlib.Data.List.Nodup

/-! Scopes. A local can be used to the end of its block, and for that time its
name is taken. Code is well scoped if it only uses variables that are in scope,
reads none before every path to it has given it a value, and takes no name that
is taken. -/

namespace BinderIdl.Java

structure Scope where
  /-- The variables in scope, the last one declared in front. -/
  declared : List Variable
  /-- Those that have no value yet on some path. -/
  unset : List Variable
deriving DecidableEq

namespace Scope

/-- The scope of variables that all have a value. -/
def full (vs : List Variable) : Scope := ⟨vs, []⟩

def names (s : Scope) : List String := s.declared.map Variable.name

def reads (s : Scope) (e : Expr) : Bool :=
  e.vars.all fun v => s.declared.contains v && !s.unset.contains v

def declare (s : Scope) (v : Variable) : Option Scope :=
  if s.names.contains v.name then none else some { s with declared :=
    v :: s.declared }

def declareUnset (s : Scope) (v : Variable) : Option Scope :=
  (s.declare v).map fun inner => { inner with unset := v :: inner.unset }

def set (s : Scope) (v : Variable) : Option Scope :=
  if s.declared.contains v then some { s with unset := s.unset.filter (· ≠ v) }
    else none

def assign (s : Scope) (target value : Expr) : Option Scope :=
  if s.reads value then
    match target with
    | .var v => s.set v
    | _ => if s.reads target then some s else none
  else none

/-- The scope behind two branches: what either of them leaves without a value
has none. -/
def join (s yes no : Scope) : Scope :=
  { s with unset :=
    s.unset.filter fun v => yes.unset.contains v || no.unset.contains v }

end Scope

mutual
/-- The scope behind a statement that is well scoped. What a body declares
is not in scope behind it, and a body that may be left out gives no
variable a value. -/
def Stmt.scopeAfter : Stmt → Scope → Option Scope
  | .expr value, s => if s.reads value then some s else none
  | .declareUnset v, s => s.declareUnset v
  | .declare v value, s => if s.reads value then s.declare v else none
  | .assign target value, s => s.assign target value
  | .ifThen condition body, s =>
      if s.reads condition then (Block.scopeAfter body s).map fun _ =>
        s else none
  | .ifElse condition yes no, s =>
      if s.reads condition then do
        let first ← Block.scopeAfter yes s
        let second ← Block.scopeAfter no s
        return s.join first second
      else none
  | .countUp index count body, s => do
      let inner ← s.declare index
      if inner.reads count then (Block.scopeAfter body inner).map fun _ =>
        s else none
  | .forEach item collection body, s =>
      if s.reads collection then do
        let inner ← s.declare item
        (Block.scopeAfter body inner).map fun _ => s
      else none

def Block.scopeAfter : List Stmt → Scope → Option Scope
  | [], s => some s
  | stmt :: rest, s => (stmt.scopeAfter s).bind (Block.scopeAfter rest)
end

namespace Block

/-- The block is a body for the scope of variables that go by
different names. -/
def WellScoped (given : List Variable) (code : Block) : Prop :=
  (given.map Variable.name).Nodup ∧ (scopeAfter code (.full given)).isSome

instance (given : List Variable) (code : Block) :
    Decidable (WellScoped given code) :=
  inferInstanceAs (Decidable (_ ∧ _))

/-- The code declares none of the names that are taken by the variables. -/
def Fresh (given : List Variable) (code : Block) : Prop :=
  ∀ v ∈ declared code, ∀ w ∈ given, v.name ≠ w.name

end Block

namespace Scope

variable {s s' : Scope} {v : Variable}

theorem declare_eq_some_iff :
    s.declare v = some s' ↔
      v.name ∉ s.names ∧ s' = { s with declared := v :: s.declared } := by
  unfold declare
  split <;> simp_all [eq_comm]

theorem declared_assign {target value : Expr}
    (done : s.assign target value = some s') :
    s'.declared = s.declared := by
  unfold assign at done
  split at done
  · split at done
    · unfold set at done
      split at done <;> cases done
      rfl
    · split at done <;> cases done
      rfl
  · cases done

end Scope

mutual
/-- A statement that is well scoped takes no name that was taken before, and
gives none back. -/
theorem Stmt.names_of_scopeAfter : (stmt : Stmt) →
    ∀ {s s' : Scope}, stmt.scopeAfter s = some s' →
      s.names ⊆ s'.names ∧ ∀ v ∈ stmt.declared, v.name ∉ s.names
  | .expr value, s, s', done => by
      simp only [Stmt.scopeAfter, Option.ite_none_right_eq_some,
        Option.some.injEq] at done
      exact done.2 ▸ ⟨List.Subset.refl _, nofun⟩
  | .declareUnset v, s, s', done => by
      simp only [Stmt.scopeAfter, Scope.declareUnset, Option.map_eq_some_iff,
        Scope.declare_eq_some_iff] at done
      obtain ⟨inner, ⟨free, rfl⟩, rfl⟩ := done
      exact ⟨List.subset_cons_self _ _, List.forall_mem_singleton.mpr free⟩
  | .declare v value, s, s', done => by
      simp only [Stmt.scopeAfter, Option.ite_none_right_eq_some,
        Scope.declare_eq_some_iff] at done
      obtain ⟨_, free, rfl⟩ := done
      exact ⟨List.subset_cons_self _ _, List.forall_mem_singleton.mpr free⟩
  | .assign target value, s, s', done => by
      have same : s'.names = s.names :=
        congrArg (List.map Variable.name) (Scope.declared_assign done)
      exact ⟨same ▸ List.Subset.refl _, nofun⟩
  | .ifThen condition body, s, s', done => by
      simp only [Stmt.scopeAfter, Option.ite_none_right_eq_some,
        Option.map_eq_some_iff] at done
      obtain ⟨_, inner, ran, rfl⟩ := done
      exact ⟨List.Subset.refl _, (Block.names_of_scopeAfter body ran).2⟩
  | .ifElse condition yes no, s, s', done => by
      simp only [Stmt.scopeAfter, Option.ite_none_right_eq_some, bind,
        Option.bind_eq_some_iff, pure, Option.some.injEq] at done
      obtain ⟨_, first, ran, second, also, rfl⟩ := done
      refine ⟨List.Subset.refl _, List.forall_mem_append.mpr ⟨?_, ?_⟩⟩
      · exact (Block.names_of_scopeAfter yes ran).2
      · exact (Block.names_of_scopeAfter no also).2
  | .countUp index count body, s, s', done => by
      simp only [Stmt.scopeAfter, bind, Option.bind_eq_some_iff,
        Scope.declare_eq_some_iff, Option.ite_none_right_eq_some,
        Option.map_eq_some_iff] at done
      obtain ⟨inner, ⟨free, rfl⟩, _, last, ran, rfl⟩ := done
      refine ⟨List.Subset.refl _,
        List.forall_mem_cons.mpr ⟨free, fun v listed taken => ?_⟩⟩
      exact (Block.names_of_scopeAfter body ran).2 v listed
        (List.mem_cons_of_mem _ taken)
  | .forEach item collection body, s, s', done => by
      simp only [Stmt.scopeAfter, bind, Option.bind_eq_some_iff,
        Scope.declare_eq_some_iff, Option.ite_none_right_eq_some,
        Option.map_eq_some_iff] at done
      obtain ⟨_, inner, ⟨free, rfl⟩, last, ran, rfl⟩ := done
      refine ⟨List.Subset.refl _,
        List.forall_mem_cons.mpr ⟨free, fun v listed taken => ?_⟩⟩
      exact (Block.names_of_scopeAfter body ran).2 v listed
        (List.mem_cons_of_mem _ taken)

theorem Block.names_of_scopeAfter : (code : List Stmt) → ∀ {s s' : Scope},
    Block.scopeAfter code s = some s' →
    s.names ⊆ s'.names ∧ ∀ v ∈ Block.declared code, v.name ∉ s.names
  | [], s, s', done => by
      cases done
      exact ⟨List.Subset.refl _, nofun⟩
  | stmt :: rest, s, s', done => by
      obtain ⟨middle, ran, later⟩ := Option.bind_eq_some_iff.mp done
      obtain ⟨grown, here⟩ := stmt.names_of_scopeAfter ran
      obtain ⟨more, others⟩ := Block.names_of_scopeAfter rest later
      refine ⟨List.Subset.trans grown more,
        List.forall_mem_append.mpr ⟨here, ?_⟩⟩
      exact fun v listed taken => others v listed (grown taken)
end

theorem Block.WellScoped.fresh {given : List Variable} {code : Block}
    (sound : Block.WellScoped given code) : Block.Fresh given code := by
  obtain ⟨after, done⟩ := Option.isSome_iff_exists.mp sound.2
  intro v listed w there same
  exact (Block.names_of_scopeAfter code done).2 v listed (same ▸
    List.mem_map_of_mem there)

namespace Scope

variable {vs : List Variable} {v : Variable} {e : Expr}

@[simp] theorem reads_full : (full vs).reads e ↔ e.vars ⊆ vs := by
  simp [reads, full, List.subset_def]

theorem declare_full (free : ∀ w ∈ vs, v.name ≠ w.name) :
    (full vs).declare v = some (full (v :: vs)) := by
  refine declare_eq_some_iff.mpr ⟨?_, rfl⟩
  simpa [names, full, eq_comm] using free

theorem declareUnset_full (free : ∀ w ∈ vs, v.name ≠ w.name) :
    (full vs).declareUnset v = some ⟨v :: vs, [v]⟩ := by
  rw [declareUnset, declare_full free]
  rfl

@[simp] theorem join_full (vs : List Variable) (yes no : Scope) :
    (full vs).join yes no = full vs := rfl

theorem reads_of_unset (there : e.vars ⊆ vs) (apart : v ∉ e.vars) :
    (Scope.mk vs [v]).reads e := by
  refine List.all_eq_true.mpr fun w used => ?_
  have other : w ≠ v := fun same => apart (same ▸ used)
  simp [there used, other]

theorem assign_of_unset (there : v ∈ vs) (known : e.vars ⊆ vs)
    (apart : v ∉ e.vars) :
    (Scope.mk vs [v]).assign v.ref e = some (full vs) := by
  simp [assign, reads_of_unset known apart, Variable.ref, set, full, there]

theorem assign_full {target : Expr} (target_known : target.vars ⊆ vs)
    (known : e.vars ⊆ vs) :
    (full vs).assign target e = some (full vs) := by
  have reads := reads_full.mpr target_known
  unfold assign
  rw [if_pos (reads_full.mpr known)]
  cases target with
  | var v =>
      have there : v ∈ vs := target_known (by simp [Expr.vars])
      simp [set, full, there]
  | _ => exact if_pos reads

end Scope

mutual
theorem Stmt.scopeAfter_of_declared_eq_nil : (stmt : Stmt) →
    ∀ {vs : List Variable}, stmt.declared = [] →
      stmt.vars ⊆ vs → stmt.scopeAfter (.full vs) = some (.full vs)
  | .expr value, vs, _, known => if_pos (Scope.reads_full.mpr known)
  | .assign target value, vs, _, known => by
      obtain ⟨first, second⟩ := List.append_subset.mp known
      exact Scope.assign_full first second
  | .ifThen condition body, vs, silent, known => by
      obtain ⟨first, second⟩ := List.append_subset.mp known
      have ran := Block.scopeAfter_of_declared_eq_nil body silent second
      simp [Stmt.scopeAfter, Scope.reads_full.mpr first, ran]
  | .ifElse condition yes no, vs, silent, known => by
      obtain ⟨silentYes, silentNo⟩ := List.append_eq_nil_iff.mp silent
      obtain ⟨first, last⟩ := List.append_subset.mp known
      obtain ⟨reads, second⟩ := List.append_subset.mp first
      have ran := Block.scopeAfter_of_declared_eq_nil yes silentYes second
      have also := Block.scopeAfter_of_declared_eq_nil no silentNo last
      simp [Stmt.scopeAfter, Scope.reads_full.mpr reads, ran, also]

theorem Block.scopeAfter_of_declared_eq_nil : (code : List Stmt) →
    ∀ {vs : List Variable}, Block.declared code = [] →
      Block.vars code ⊆ vs → Block.scopeAfter code (.full vs) = some (.full vs)
  | [], vs, _, _ => rfl
  | stmt :: rest, vs, silent, known => by
      obtain ⟨here, later⟩ := List.append_eq_nil_iff.mp silent
      obtain ⟨first, second⟩ := List.append_subset.mp known
      have ran := stmt.scopeAfter_of_declared_eq_nil here first
      have others := Block.scopeAfter_of_declared_eq_nil rest later second
      simp [Block.scopeAfter, ran, others]
end

namespace Block

variable {given needs keeps more : List Variable} {tops locals : List String}
variable {code rest : Block}

theorem append_subset_append {α : Type} {first second first' second' : List α}
    (one : first ⊆ first') (other : second ⊆ second') :
    first ++ second ⊆ first' ++ second' :=
  List.append_subset.mpr ⟨List.subset_append_of_subset_left _ one,
    List.subset_append_of_subset_right _ other⟩

theorem scopeAfter_append (first second : Block) (s : Scope) :
    scopeAfter (first ++ second) s =
      (scopeAfter first s).bind (scopeAfter second) := by
  induction first generalizing s with
  | nil => rfl
  | cons stmt rest induction =>
      simp only [List.cons_append, scopeAfter, Option.bind_assoc]
      exact congrArg _ (funext induction)

theorem fresh_append :
    Fresh given (code ++ rest) ↔ Fresh given code ∧ Fresh given rest := by
  simp only [Fresh, declared_append, List.forall_mem_append]

theorem fresh_of_names (names : ∀ v ∈ declared code, v.name ∈ locals)
    (apart : ∀ w ∈ given, w.name ∉ locals) : Fresh given code :=
  fun v listed w there same => apart w there (same ▸ names v listed)

theorem Fresh.append (first : Fresh given code) (second : Fresh more code) :
    Fresh (more ++ given) code := by
  intro v listed
  exact List.forall_mem_append.mpr ⟨second v listed, first v listed⟩

/-- Code that is well scoped wherever the variables are that it needs and the
names are free that it declares. It brings into scope, under names of one
list, what it keeps and helpers; what it declares, at any depth, goes by
names of another. -/
structure Introduces (needs keeps : List Variable) (tops locals : List String)
    (code : Block) : Prop where
  declares : keeps ⊆ declared code
  scope : ∃ made, keeps ⊆ made ∧ (∀ v ∈ made, v.name ∈ tops) ∧
    ∀ given, needs ⊆ given → Fresh given code →
      scopeAfter code (.full given) = some (.full (made ++ given))
  names : ∀ v ∈ declared code, v.name ∈ locals

theorem Introduces.mono {needs' keeps' : List Variable}
    {tops' locals' : List String}
    (introduces : Introduces needs keeps tops locals code)
    (more : needs ⊆ needs') (fewer : keeps' ⊆ keeps) (top : tops ⊆ tops')
    (all : locals ⊆ locals') :
    Introduces needs' keeps' tops' locals' code := by
  obtain ⟨made, kept, named, runs⟩ := introduces.scope
  refine ⟨List.Subset.trans fewer introduces.declares, ⟨made,
    List.Subset.trans fewer kept, fun v listed => top (named v listed), ?_⟩, ?_⟩
  · exact fun given enough => runs given (List.Subset.trans more enough)
  · exact fun v listed => all (introduces.names v listed)

theorem Introduces.weaken {needs' : List Variable}
    (introduces : Introduces needs keeps tops locals code)
    (more : needs ⊆ needs') :
    Introduces needs' keeps tops locals code :=
  introduces.mono more (List.Subset.refl _) (List.Subset.refl _)
    (List.Subset.refl _)

theorem Introduces.rename {tops' locals' : List String}
    (introduces : Introduces needs keeps tops locals code) (top : tops ⊆ tops')
    (all : locals ⊆ locals') : Introduces needs keeps tops' locals' code :=
  introduces.mono (List.Subset.refl _) (List.Subset.refl _) top all

/-- Code after code. What the first brings into scope must not be in the way of
the second, unless what it keeps clashes with what it was given. -/
theorem Introduces.append {needs' keeps' : List Variable}
    {tops' locals' : List String}
    (first : Introduces needs keeps tops locals code)
    (second : Introduces needs' keeps' tops' locals' rest)
    (enough : needs' ⊆ keeps ++ needs)
    (apart : (∀ v ∈ keeps, ∀ w ∈ needs, v.name ≠ w.name) →
      tops.Disjoint locals') :
    Introduces needs (keeps' ++ keeps) (tops ++ tops') (locals ++ locals')
      (code ++ rest) := by
  obtain ⟨made, kept, named, runs⟩ := first.scope
  obtain ⟨later, keptLater, namedLater, runsLater⟩ := second.scope
  refine ⟨?_, ⟨later ++ made, append_subset_append keptLater kept, ?_, ?_⟩, ?_⟩
  · rw [declared_append]
    exact List.append_subset.mpr ⟨List.subset_append_of_subset_right _
      second.declares, List.subset_append_of_subset_left _ first.declares⟩
  · refine List.forall_mem_append.mpr ⟨fun v listed => ?_, fun v listed => ?_⟩
    · exact List.mem_append_right _ (namedLater v listed)
    · exact List.mem_append_left _ (named v listed)
  · intro given there fresh
    obtain ⟨here, after⟩ := fresh_append.mp fresh
    have clear : ∀ v ∈ keeps, ∀ w ∈ needs, v.name ≠ w.name :=
      fun v kept w need => here v (first.declares kept) w (there need)
    have free : Fresh (made ++ given) rest :=
      after.append fun v declares w brought same =>
        apart clear (named w brought) (same ▸ second.names v declares)
    have scope : needs' ⊆ made ++ given :=
      List.Subset.trans enough (append_subset_append kept there)
    rw [scopeAfter_append, runs given there here, Option.bind_some,
      runsLater _ scope free, List.append_assoc]
  · rw [declared_append]
    refine List.forall_mem_append.mpr ⟨fun v listed => ?_, fun v listed => ?_⟩
    · exact List.mem_append_left _ (first.names v listed)
    · exact List.mem_append_right _ (second.names v listed)

theorem Introduces.wellScoped
    (introduces : Introduces needs keeps tops locals code)
    (distinct : (needs.map Variable.name).Nodup) (fresh : Fresh needs code) :
    WellScoped needs code := by
  obtain ⟨made, _, _, runs⟩ := introduces.scope
  exact ⟨distinct, by rw [runs needs (List.Subset.refl _) fresh]; rfl⟩

theorem introduces_of_declared_eq_nil (silent : declared code = [])
    (known : vars code ⊆ needs) :
    Introduces needs [] [] [] code where
  declares := List.nil_subset _
  scope := ⟨[], List.Subset.refl _, nofun, fun _ there _ =>
    scopeAfter_of_declared_eq_nil code silent (List.Subset.trans known there)⟩
  names := by simp [silent]

theorem introduces_declare {v : Variable} {value : Expr}
    (known : value.vars ⊆ needs) :
    Introduces needs [v] [v.name] [v.name] [.declare v value] where
  declares := by simp [declared, Stmt.declared]
  scope := by
    refine ⟨[v], List.Subset.refl _, by simp, fun given there fresh => ?_⟩
    have reads := Scope.reads_full.mpr (List.Subset.trans known there)
    have free : ∀ w ∈ given, v.name ≠ w.name :=
      fresh v (by simp [declared, Stmt.declared])
    simp [scopeAfter, Stmt.scopeAfter, reads, Scope.declare_full free]
  names := by simp [declared, Stmt.declared]

theorem Introduces.inside {body : Block}
    (introduces : Introduces needs keeps tops locals body)
    (there : needs ⊆ given) (fresh : Fresh given body) :
    ∃ made, scopeAfter body (.full given) = some (.full made) := by
  obtain ⟨made, _, _, runs⟩ := introduces.scope
  exact ⟨made ++ given, runs given there fresh⟩

theorem introduces_ifElse {condition : Expr} {yes no : Block}
    {tops' locals' : List String} (known : condition.vars ⊆ needs)
    (first : Introduces needs keeps tops locals yes)
    (second : Introduces needs more tops' locals' no) :
    Introduces needs [] [] (locals ++ locals') [.ifElse condition yes no] where
  declares := List.nil_subset _
  scope := by
    refine ⟨[], List.Subset.refl _, nofun, fun given there fresh => ?_⟩
    have reads := Scope.reads_full.mpr (List.Subset.trans known there)
    simp only [Fresh, declared, Stmt.declared, List.append_nil,
      List.forall_mem_append] at fresh
    obtain ⟨made, here⟩ := first.inside there fresh.1
    obtain ⟨other, also⟩ := second.inside there fresh.2
    simp [scopeAfter, Stmt.scopeAfter, reads, here, also]
  names := by
    simp only [declared, Stmt.declared, List.append_nil, List.forall_mem_append]
    exact ⟨fun v listed => List.mem_append_left _ (first.names v listed),
      fun v listed => List.mem_append_right _ (second.names v listed)⟩

theorem Introduces.turn {v : Variable} {body : Block}
    (introduces : Introduces (v :: needs) keeps tops locals body)
    (there : needs ⊆ given) (fresh : Fresh given body)
    (apart : v.name ∉ locals) :
    ∃ made, scopeAfter body (.full (v :: given)) = some (.full made) := by
  have own : Fresh [v] body :=
    fresh_of_names introduces.names (by simpa using apart)
  have all : Fresh ([v] ++ given) body := fresh.append own
  exact introduces.inside (List.cons_subset_cons v there) all

theorem introduces_loop {v : Variable} {body : Block} {loop : Stmt}
    (declares : loop.declared = v :: declared body)
    (inner : Introduces (v :: needs) keeps tops locals body)
    (apart : v.name ∉ locals)
    (turns : ∀ {given : List Variable} {made : List Variable},
      needs ⊆ given → (∀ w ∈ given, v.name ≠ w.name) →
      scopeAfter body (.full (v :: given)) = some (.full made) →
      loop.scopeAfter (.full given) = some (.full given)) :
    Introduces needs [] [] (v.name :: locals) [loop] where
  declares := List.nil_subset _
  scope := by
    refine ⟨[], List.Subset.refl _, nofun, fun given there fresh => ?_⟩
    simp only [Fresh, declared, declares, List.append_nil,
      List.forall_mem_cons] at fresh
    obtain ⟨made, here⟩ := inner.turn there fresh.2 apart
    rw [scopeAfter, turns there fresh.1 here]
    rfl
  names := by
    simp only [declared, declares, List.append_nil, List.forall_mem_cons]
    exact ⟨List.mem_cons_self,
      fun v listed => List.mem_cons_of_mem _ (inner.names v listed)⟩

theorem introduces_countUp {index : Variable} {count : Expr} {body : Block}
    (known : count.vars ⊆ needs)
    (inner : Introduces (index :: needs) keeps tops locals body)
    (apart : index.name ∉ locals) :
    Introduces needs [] [] (index.name :: locals) [.countUp index count
      body] := by
  refine introduces_loop rfl inner apart fun {given made} there free here => ?_
  have reads := Scope.reads_full.mpr
    (List.Subset.trans known (List.subset_cons_of_subset index there))
  simp [Stmt.scopeAfter, Scope.declare_full free, reads, here]

theorem introduces_forEach {item : Variable} {collection : Expr} {body : Block}
    (known : collection.vars ⊆ needs)
    (inner : Introduces (item :: needs) keeps tops locals body)
    (apart : item.name ∉ locals) :
    Introduces needs [] [] (item.name :: locals) [.forEach item collection
      body] := by
  refine introduces_loop rfl inner apart fun {given made} there free here => ?_
  have reads := Scope.reads_full.mpr (List.Subset.trans known there)
  simp [Stmt.scopeAfter, Scope.declare_full free, reads, here]

/-- Two branches that begin by giving a variable its value. -/
theorem scopeAfter_branches {vs yesScope noScope : List Variable} {v : Variable}
    {condition first second : Expr} {yes no : Block} (there : v ∈ vs)
    (known : ∀ e ∈ [condition, first, second], e.vars ⊆ vs ∧ v ∉ e.vars)
    (yesRuns : scopeAfter yes (.full vs) = some (.full yesScope))
    (noRuns : scopeAfter no (.full vs) = some (.full noScope)) :
    scopeAfter [.ifElse condition (.set v first :: yes) (.set v second :: no)]
      ⟨vs, [v]⟩ = some (.full vs) := by
  simp only [List.forall_mem_cons] at known
  obtain ⟨⟨asked, askedApart⟩, ⟨one, oneApart⟩, ⟨other, otherApart⟩, _⟩ := known
  have set {e : Expr} {rest : Block} {after : Scope} (known : e.vars ⊆ vs)
      (apart : v ∉ e.vars) (runs : scopeAfter rest (.full vs) = some after) :
      scopeAfter (.set v e :: rest) ⟨vs, [v]⟩ = some after := by
    simp only [scopeAfter, Stmt.set, Stmt.scopeAfter,
      Scope.assign_of_unset there known apart, Option.bind_some, runs]
  rw [scopeAfter, Stmt.scopeAfter,
    if_pos (Scope.reads_of_unset asked askedApart), set one oneApart yesRuns,
    set other otherApart noRuns]
  rfl

theorem not_mem_vars_of_free {v : Variable} {e : Expr}
    (free : ∀ w ∈ given, v.name ≠ w.name) (known : e.vars ⊆ given) :
    v ∉ e.vars :=
  fun used => free v (known used) rfl

theorem introduces_chosen {v : Variable} {condition first second : Expr}
    (known : ∀ e ∈ [condition, first, second], e.vars ⊆ needs) :
    Introduces needs [v] [v.name] [v.name]
      [.declareUnset v, .ifElse condition [.set v first] [.set v second]] where
  declares := by simp [declared, Stmt.declared]
  scope := by
    refine ⟨[v], List.Subset.refl _, by simp, fun given there fresh => ?_⟩
    have free : ∀ w ∈ given, v.name ≠ w.name :=
      fresh v (by simp [declared, Stmt.declared])
    have inside :
        ∀ e ∈ [condition, first, second], e.vars ⊆ v :: given ∧ v ∉ e.vars := by
      intro e listed
      have enough := List.Subset.trans (known e listed) there
      exact ⟨List.subset_cons_of_subset v enough,
        not_mem_vars_of_free free enough⟩
    rw [scopeAfter, Stmt.scopeAfter, Scope.declareUnset_full free]
    exact scopeAfter_branches List.mem_cons_self inside rfl rfl
  names := by simp [declared, Stmt.declared, Stmt.set]

/-- A container behind its size: a local that one branch makes null, and the
other makes and fills. -/
theorem introduces_sized {v size : Variable}
    {count condition first second : Expr} {body : Block}
    (counted : count.vars ⊆ needs)
    (known : ∀ e ∈ [condition, first, second], e.vars ⊆ size :: needs)
    (inner : Introduces (size :: v :: needs) keeps tops locals body)
    (other : v.name ≠ size.name)
    (apart : v.name ∉ locals ∧ size.name ∉ locals) :
    Introduces needs [v] [v.name, size.name] (v.name :: size.name :: locals)
      [.declareUnset v, .declare size count,
        .ifElse condition [.set v first] (.set v second :: body)] where
  declares := by simp [declared, Stmt.declared]
  scope := by
    refine ⟨[size, v], by simp, by simp, fun given there fresh => ?_⟩
    simp only [Fresh, declared, Stmt.declared, Stmt.set, List.nil_append,
      List.singleton_append, List.append_nil, List.forall_mem_cons] at fresh
    obtain ⟨free, sizeFree, freshBody⟩ := fresh
    have countKnown := List.Subset.trans counted there
    have own : Fresh [size, v] body :=
      fresh_of_names inner.names (by simpa using apart.symm)
    have all : Fresh ([size, v] ++ given) body := Fresh.append freshBody own
    obtain ⟨made, ran⟩ := inner.inside
      (List.cons_subset_cons size (List.cons_subset_cons v there)) all
    have inside : ∀ e ∈ [condition, first, second],
        e.vars ⊆ size :: v :: given ∧ v ∉ e.vars := by
      intro e listed
      have enough :=
        List.Subset.trans (known e listed) (List.cons_subset_cons size there)
      refine ⟨List.Subset.trans enough ?_, not_mem_vars_of_free ?_ enough⟩
      · exact List.cons_subset_cons size (List.subset_cons_self v given)
      · exact List.forall_mem_cons.mpr ⟨other, free⟩
    have declares : (Scope.mk (v :: given) [v]).declare size =
        some ⟨size :: v :: given, [v]⟩ := by
      refine Scope.declare_eq_some_iff.mpr ⟨?_, rfl⟩
      simpa [Scope.names, eq_comm, other] using sizeFree
    have reads : (Scope.mk (v :: given) [v]).reads count :=
      Scope.reads_of_unset (List.subset_cons_of_subset v countKnown)
        (not_mem_vars_of_free free countKnown)
    rw [scopeAfter, Stmt.scopeAfter, Scope.declareUnset_full free,
      Option.bind_some, scopeAfter, Stmt.scopeAfter, if_pos reads, declares]
    exact scopeAfter_branches (by simp) inside rfl ran
  names := by
    simp only [declared, Stmt.declared, Stmt.set, List.nil_append,
      List.singleton_append, List.append_nil, List.forall_mem_cons]
    refine ⟨by simp, by simp, fun w listed => ?_⟩
    exact List.mem_cons_of_mem _ (List.mem_cons_of_mem _ (inner.names w listed))

end Block

end BinderIdl.Java
