import BinderIdl.Proofs.Method.Locals
import Mathlib.Data.List.TakeWhile

/-! Scoping of both sides of a method. The implementation's side names its
locals by position, so none of them is in the way of another. The caller's side
names them after the parameters, so a parameter can be in the way of a local. -/

namespace BinderIdl

open Document Java BinderIdl.Types Parcel Emitter Block

namespace Method

variable {r : Registry} {p : Parameter} {s : Signature}
  {data reply : Java.Variable}

def argumentTops (owner : String) : List String :=
  owner :: suffixed owner ["size", "binder", "length"]

def argumentNames (owner : String) : List String :=
  owner ::
    suffixed owner ("size" :: "binder" :: "length" :: "i" :: elementWords)

theorem argumentVariable_name (p : Parameter) (position : Nat) :
    (argumentVariable p position).name = "_arg" ++ toString position :=
  ValueType.name_variableNamed _ _

theorem marked_argument (p : Parameter) (position : Nat) :
    '_' ∈ (argumentVariable p position).name.toList := by
  simp [argumentVariable_name]

theorem introduces_allocateArray (d : Descriptor) (value data : Java.Variable) :
    Introduces [data] [value] [(lengthVariable value).name, value.name]
      [(lengthVariable value).name, value.name]
      (allocateArray d value data) := by
  have length : Introduces [data] [lengthVariable value] _ _
      [.declare (lengthVariable value) (readInt data)] :=
    introduces_declare (by simp)
  have chosen :
      Introduces [lengthVariable value] [value] _ _ [.declareUnset value,
        .ifElse (.compare (lengthVariable value).ref .lt (.int 0))
          [.set value .null]
          [.set value (.newArray d.importType (lengthVariable value).ref)]] :=
    introduces_chosen (by simp [Expr.vars, Expr.int, Expr.null])
  have apart : (lengthVariable value).name ≠ value.name := fun same =>
    derived_ne_owner value value.type "length"
      (congrArg (Java.Variable.mk value.type) same)
  exact (length.append chosen (by simp) fun _ => by simpa using apart.symm).mono
    (List.Subset.refl _) (by simp) (List.Subset.refl _) (List.Subset.refl _)

theorem Parameter.Sound.brings_receiveArgument (sound : p.Sound r)
    (formed : r.WellFormed) (data : Java.Variable) (position : Nat) :
    Brings [data] [argumentVariable p position]
      (argumentTops (argumentVariable p position).name)
      (argumentNames (argumentVariable p position).name)
      (receiveArgument r data p position) := by
  have marked := marked_argument p position
  have tops : Marked (argumentTops (argumentVariable p position).name) :=
    .cons marked (marked_suffixed _ _)
  have names : Marked (argumentNames (argumentVariable p position).name) :=
    .cons marked (marked_suffixed _ _)
  unfold receiveArgument
  dsimp only
  split
  · refine (sound.type.brings_create formed marked data).rename ?_ ?_ tops names
    · exact List.cons_subset_cons _ (suffixed_subset (by decide) _)
    · exact List.cons_subset_cons _ (suffixed_subset (by decide) _)
  · split
    · have allocates := introduces_allocateArray p.type.descriptor
        (argumentVariable p position) data
      refine ((opens_emitAll allocates).mono (List.Subset.refl _)
          (List.Subset.refl _) ?_ ?_).brings tops names
      · simp [argumentTops, suffixed, lengthVariable, Variable.derived]
      · simp [argumentNames, suffixed, lengthVariable, Variable.derived]
    · have fresh : Introduces [data] [argumentVariable p position] _ _
          [.declare (argumentVariable p position)
            (.new p.type.descriptor.instantiable [])] :=
        introduces_declare (by simp [Expr.vars, Expr.listVars])
      refine ((opens_emitAll fresh).rename ?_ ?_).brings tops names
      · simp [argumentTops]
      · simp [argumentNames]

theorem position_eq_of_name_eq {q : Parameter} {position other : Nat}
    (same : (argumentVariable p position).name =
      (argumentVariable q other).name) :
    position = other := by
  simpa [argumentVariable_name, String.append_right_inj, Nat.toString_eq_repr,
    Nat.repr_inj] using same

/-- A word behind an underscore. -/
def Simple (owner : String) :
    Prop := ∃ word, owner = "_" ++ word ∧ '_' ∉ word.toList

/-- What stands between the first underscore and the next; it tells whose local
a name is. -/
def firstWord (name : String) :
    List Char := (name.toList.drop 1).takeWhile (· != '_')

theorem takeWhile_eq {word : List Char} (single : '_' ∉ word)
    (rest : List Char) :
    word.takeWhile (· != '_') = word ∧
    (word ++ '_' :: rest).takeWhile (· != '_') = word := by
  have whole : ∀ c ∈ word, (c != '_') = true := fun c listed =>
    bne_iff_ne.mpr fun same => single (same ▸ listed)
  refine ⟨List.takeWhile_eq_self_iff.mpr whole, ?_⟩
  rw [List.takeWhile_append_of_pos whole,
    List.takeWhile_cons_of_neg (by decide), List.append_nil]

theorem firstWord_of_mem {owner name : String} {words : List String}
    (simple : Simple owner) (listed : name ∈ owner :: suffixed owner words) :
    firstWord name = owner.toList.drop 1 := by
  obtain ⟨word, rfl, single⟩ := simple
  rcases List.mem_cons.mp listed with rfl | listed
  · simpa [firstWord] using (takeWhile_eq single []).1
  · obtain ⟨rest, _, rfl⟩ := List.mem_map.mp listed
    simpa [firstWord] using (takeWhile_eq single rest.toList).2

theorem disjoint_of_simple {owner other : String} (simple : Simple owner)
    (also : Simple other) (apart : owner ≠ other) (words words' : List String) :
    (owner :: suffixed owner words).Disjoint
      (other :: suffixed other words') := by
  intro name one two
  have same :=
    (firstWord_of_mem simple one).symm.trans (firstWord_of_mem also two)
  obtain ⟨word, rfl, _⟩ := simple
  obtain ⟨word', rfl, _⟩ := also
  exact apart (by simpa [String.toList_inj] using same)

theorem simple_result : Simple resultName := ⟨"result", rfl, by decide⟩

theorem simple_argument (p : Parameter) (position : Nat) :
    Simple (argumentVariable p position).name := by
  refine ⟨"arg" ++ toString position, ?_, ?_⟩
  · rw [argumentVariable_name, ← String.append_assoc]
    rfl
  · simp

theorem result_disjoint_argument (p : Parameter) (position : Nat)
    (words words' : List String) :
    (resultName :: suffixed resultName words).Disjoint
      ((argumentVariable p position).name ::
        suffixed (argumentVariable p position).name words') := by
  refine disjoint_of_simple simple_result (simple_argument p position)
    (fun same => ?_) _ _
  simp [argumentVariable_name, resultName, String.ext_iff] at same

theorem argumentTops_disjoint_writtenNames (p q : Parameter)
    (position other : Nat) :
    (argumentTops (argumentVariable p position).name).Disjoint
      (writtenNames (argumentVariable q other).name) := by
  intro name top written
  by_cases same :
    (argumentVariable p position).name = (argumentVariable q other).name
  · rw [same] at top
    rcases List.mem_cons.mp top with rfl | derived
    · exact owner_not_mem_suffixed _ _ written
    · exact disjoint_suffixed (by simp [writtenWords]) _ derived written
  · exact disjoint_of_simple (simple_argument _ _) (simple_argument _ _) same _
      writtenWords top (List.mem_cons_of_mem _ written)

namespace Signature

def resultVariables (s : Signature) : List Java.Variable :=
  s.result.toList.map fun t => t.variableNamed resultName

/-- The names of what stands in loops that send the result and the arguments. -/
def answeredNames (s : Signature) : List String :=
  writtenNames resultName ++ s.parameters.zipIdx.flatMap fun e =>
    writtenNames (argumentVariable e.1 e.2).name

theorem result_disjoint_answeredNames (s : Signature) :
    [resultName].Disjoint s.answeredNames := by
  refine List.singleton_disjoint.mpr fun listed => ?_
  rcases List.mem_append.mp listed with own | others
  · exact owner_not_mem_suffixed _ _ own
  · obtain ⟨e, _, written⟩ := List.mem_flatMap.mp others
    exact result_disjoint_argument e.1 e.2 [] writtenWords List.mem_cons_self
      (List.mem_cons_of_mem _ written)

theorem argumentTops_disjoint_answeredNames (s : Signature) :
    (s.parameters.zipIdx.flatMap fun e =>
      argumentTops (argumentVariable e.1 e.2).name).Disjoint
      ([resultName] ++ s.answeredNames) := by
  intro name one other
  obtain ⟨e, _, top⟩ := List.mem_flatMap.mp one
  rcases List.mem_append.mp other with result | answered
  · exact result_disjoint_argument e.1 e.2 [] _
      (List.mem_append_left _ result) top
  · rcases List.mem_append.mp answered with result | argument
    · exact result_disjoint_argument e.1 e.2 writtenWords _
        (List.mem_cons_of_mem _ result) top
    · obtain ⟨e', _, written⟩ := List.mem_flatMap.mp argument
      exact argumentTops_disjoint_writtenNames e.1 e'.1 e.2 e'.2 top written

end Signature

theorem brings_callImplementation (s : Signature) :
    Brings s.arguments s.resultVariables [resultName] [resultName]
      (emit (callImplementation s s.arguments)) := by
  have marked : Marked [resultName] := .cons (by decide) marked_nil
  unfold callImplementation Signature.resultVariables
  cases s.result with
  | none =>
      have call : Brings s.arguments [] [] [] (emit (.expr
          (.call (.literal "this") s.name (s.arguments.map Variable.ref)))) :=
        brings_silent rfl (by simp [Stmt.vars, Expr.vars, listVars_refs])
      exact call.rename (List.nil_subset _) (List.nil_subset _) marked marked
  | some t =>
      have call : Introduces s.arguments [t.variableNamed resultName] _ _
          [.declare (t.variableNamed resultName) (.call (.literal "this") s.name
            (s.arguments.map Variable.ref))] :=
        introduces_declare (by simp [Expr.vars, listVars_refs])
      rw [t.name_variableNamed] at call
      exact (opens_emitAll call).brings marked marked

theorem brings_sendResult (sound : s.Sound r) (formed : r.WellFormed)
    (reply : Java.Variable) :
    Brings (s.resultVariables ++ [reply]) [] [] (writtenNames resultName)
      (sendResult r reply s.result) := by
  unfold sendResult Signature.resultVariables
  cases result : s.result with
  | none => exact brings_pure.among (marked_suffixed _ _)
  | some t =>
      have sent := (sound.result t result).brings_write formed
        (t.variableNamed resultName) reply .returnValue
      rwa [t.name_variableNamed] at sent

theorem Parameter.Sound.brings_sendArgument (sound : p.Sound r)
    (formed : r.WellFormed) (reply : Java.Variable) (position : Nat) :
    Brings [argumentVariable p position, reply] [] []
      (writtenNames (argumentVariable p position).name)
      (sendArgument r reply p position) := by
  unfold sendArgument
  split
  · exact sound.type.brings_write formed _ reply .returnValue
  · exact brings_pure.among (marked_suffixed _ _)

theorem brings_answer (sound : s.Sound r) (formed : r.WellFormed)
    (reply : Java.Variable) :
    Brings (s.resultVariables ++ (s.arguments ++ [reply])) [] [] s.answeredNames
      (s.answer r reply) := by
  have announced : Brings (s.resultVariables ++ (s.arguments ++ [reply])) [] []
      [] (emit (.expr (reply.call "writeNoException" []))) :=
    brings_silent rfl (by
      simp [Stmt.vars, Expr.vars, Expr.listVars, Variable.call, Variable.ref])
  have arguments : Brings (s.arguments ++ [reply]) [] []
      (s.parameters.zipIdx.flatMap fun e =>
        writtenNames (argumentVariable e.1 e.2).name)
      (s.parameters.zipIdx.forM fun e => sendArgument r reply e.1 e.2) := by
    refine brings_forM_inner fun e listed => ?_
    have sends :=
      (sound.parameters e.1
        (List.fst_mem_of_mem_zipIdx listed)).brings_sendArgument formed
        reply e.2
    refine sends.mono ?_ (List.Subset.refl _)
    have member : argumentVariable e.1 e.2 ∈ s.arguments :=
      List.mem_map.mpr ⟨e, listed, rfl⟩
    exact List.cons_subset.mpr ⟨List.mem_append_left _ member,
      List.subset_append_right _ _⟩
  have result :=
    (brings_sendResult sound formed reply).mono
      (append_subset_append (List.Subset.refl _)
        (List.subset_append_right s.arguments _)) (List.Subset.refl _)
  have both := (result.bind arguments (List.subset_append_right _ _) fun _ =>
    List.disjoint_nil_left _).behind announced
  unfold Signature.answer
  split
  · exact brings_pure.among both.locals
  · exact both

theorem brings_receive (sound : s.Sound r) (formed : r.WellFormed)
    (data : Java.Variable) :
    Brings [data] s.arguments (s.parameters.zipIdx.flatMap fun e =>
        argumentTops (argumentVariable e.1 e.2).name)
      (s.parameters.zipIdx.flatMap fun e =>
        argumentNames (argumentVariable e.1 e.2).name) (s.parameters.zipIdx.forM
          fun (p, position) => receiveArgument r data p position) := by
  have apart : s.parameters.zipIdx.Pairwise fun e e' =>
      (argumentTops (argumentVariable e.1 e.2).name).Disjoint
        (argumentNames (argumentVariable e'.1 e'.2).name) := by
    refine (pairwise_positions s.parameters).imp fun {e e'} other => ?_
    exact disjoint_of_simple (simple_argument _ _) (simple_argument _ _)
      (fun same => other (position_eq_of_name_eq same)) _ _
  have all := brings_forM (fun e listed =>
    (sound.parameters e.1
      (List.fst_mem_of_mem_zipIdx listed)).brings_receiveArgument formed
      data e.2)
    apart
  rwa [← List.map_eq_flatMap] at all

/-- The implementation's side introduces no name but that of the class loader
and marked ones. -/
theorem exists_brings_stubBody (sound : s.Sound r) (formed : r.WellFormed)
    (data reply : Java.Variable) :
    ∃ tops locals,
      Brings [data, reply] [] tops locals (stubBody r s data reply) := by
  have enforced : Brings [data, reply] [] [] []
      (emit (.expr (data.call "enforceInterface" [.literal "DESCRIPTOR"]))) :=
    brings_silent rfl (by
      simp [Stmt.vars, Expr.vars, Expr.listVars, Variable.call, Variable.ref])
  have received := (brings_receive sound formed data).mono
    (List.cons_subset_cons data (List.nil_subset [reply])) (List.Subset.refl _)
  have called := (brings_callImplementation s).mono
    (List.subset_append_left _ [data, reply]) (List.Subset.refl _)
  have answered := (brings_answer sound formed reply).mono (append_subset_append
    (List.Subset.refl _) (append_subset_append (List.Subset.refl _)
      (List.subset_cons_self data [reply]))) (List.Subset.refl _)
  have rest := called.bind answered (List.Subset.refl _) fun _ =>
    s.result_disjoint_answeredNames
  have all := received.bind rest (List.Subset.refl _) fun _ =>
    s.argumentTops_disjoint_answeredNames
  exact ⟨_, _,
    (all.behind enforced).mono (List.Subset.refl _) (List.nil_subset _)⟩

theorem exists_stub_wellScoped (formed : r.WellFormed) (sound : s.Sound r) :
    ∃ code, stub r s = .ok code ∧
      code.WellScoped [parcelNamed "data", parcelNamed "reply"] := by
  obtain ⟨tops, locals, brings⟩ :=
    exists_brings_stubBody sound formed (parcelNamed "data")
      (parcelNamed "reply")
  obtain ⟨code, made, _, introduces⟩ := brings.exists_code
  have unmarked (name : String) (other : name ≠ loaderName)
      (plain : '_' ∉ name.toList) : name ∉ loaderName :: locals :=
    fun listed => (List.mem_cons.mp listed).elim other fun own =>
      plain (brings.locals name own)
  refine ⟨code, ?_,
    introduces.wellScoped (by decide) (fresh_of_names introduces.names ?_)⟩
  · simp only [stub, parcelVariable_eq_ok formed]
    exact made
  · exact List.forall_mem_cons.mpr ⟨unmarked "data" (by decide) (by decide),
      List.forall_mem_singleton.mpr (unmarked "reply" (by decide) (by decide))⟩

/-- The implementation's side of a kept method is generated and well scoped,
whatever its parameters are called. -/
theorem stub_is_well_scoped {r : Registry} (reachable : r.Reachable)
    {doc : Document} {i : ResolvedInterface} (known : i.Known r)
    {m : ResolvedMethod} (kept : m ∈ (checkInterface doc r i).kept.methods) :
    ∃ g, generate r (checkInterface doc r i).kept m = .ok g ∧
      g.stub.WellScoped [parcelNamed "data", parcelNamed "reply"] := by
  have formed := reachable.wellFormed
  obtain ⟨s, _, resolved, sound, generates⟩ :=
    exists_signature_of_kept formed known kept
  obtain ⟨caller, proxied⟩ := exists_proxy formed sound
  obtain ⟨callee, stubbed, well⟩ := exists_stub_wellScoped formed sound
  exact ⟨_, generates proxied stubbed, well⟩

/-- A sorter that gives back a map and fills a list and an array; its parameters
are called like the parcel and like the class loader. -/
def sorter : Document where
  package := "a.b"
  file := "Sorter.aidl"
  items := [.interface ⟨"Sorter", 1, false, [⟨"sort", 2, false,
    ⟨"Map<String,IBinder>", false, 2⟩, [⟨.inOut, ⟨"List<IBinder>", false, 2⟩,
      "data", 2⟩, ⟨.output, ⟨"IBinder", true, 2⟩, "cl", 2⟩]⟩]⟩]

theorem stub_is_well_scoped_sorter :
    let r := (sorter.resolve (sorter.declare .standard).1).registry
    let m : ResolvedMethod := ⟨"sort", 2, false, ⟨⟨25⟩, false⟩,
      [⟨"data", .inOut, ⟨⟨26⟩, false⟩, 2⟩, ⟨"cl", .output, ⟨.binder, true⟩, 2⟩]⟩
    ∃ i ∈ (sorter.resolve (sorter.declare .standard).1).result, m ∈ i.methods ∧
      ∃ g, generate r i m = .ok g ∧
        g.stub.WellScoped [parcelNamed "data", parcelNamed "reply"] := by
  intro r m
  have reachable : r.Reachable :=
    Registry.Reachable.grows (declareItems_grows sorter .standard sorter.items)
      (resolve_orderly sorter _).grows
  have listed : (⟨⟨24⟩, 1, [m]⟩ : ResolvedInterface) ∈
      (sorter.resolve (sorter.declare .standard).1).result := by decide +kernel
  have kept : (checkInterface sorter r ⟨⟨24⟩, 1, [m]⟩).kept =
      ⟨⟨24⟩, 1, [m]⟩ := by decide +kernel
  have member : m ∈ (checkInterface sorter r ⟨⟨24⟩, 1, [m]⟩).kept.methods := by
    rw [kept]
    exact List.mem_singleton_self m
  obtain ⟨g, made, well⟩ :=
    stub_is_well_scoped reachable (known_of_mem_resolve listed) member
  exact ⟨_, listed, List.mem_singleton_self m, g, kept ▸ made, well⟩

end Method

end BinderIdl
