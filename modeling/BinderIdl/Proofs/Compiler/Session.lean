import BinderIdl.Proofs.Compiler.Finish

namespace BinderIdl.Compiler

open Diagnostic Document BinderIdl.Types

inductive Request where
  | declare (doc : Document)
  /-- Finishes the document that was declared at a position, with the queue of
  its own declaration. There is nothing to do where none was. -/
  | finish (position : Nat)
  | compile (doc : Document)

structure Session where
  compiler : Compiler
  declared : List (Document × Queue)
  outputs : List Output

namespace Session

def new (options : Options) : Session := ⟨.new options, [], []⟩

def step (s : Session) : Request → Except Handle Session
  | .declare doc =>
      let (queue, compiler) := s.compiler.declare doc
      .ok { s with compiler := compiler, declared :=
        s.declared ++ [(doc, queue)] }
  | .finish position =>
      match s.declared[position]? with
      | none => .ok s
      | some (doc, queue) =>
          (s.compiler.finish doc queue).map fun (output, compiler) =>
            { s with compiler := compiler, outputs := s.outputs ++ [output] }
  | .compile doc =>
      (s.compiler.compile doc).map fun (output, compiler) =>
        { s with compiler := compiler, outputs := s.outputs ++ [output] }

/-- Serves requests in their order. The error is a handle that the registry does
not hold. -/
def run (s : Session) : List Request → Except Handle Session
  | [] => .ok s
  | request :: rest =>
      match s.step request with
      | .ok next => next.run rest
      | .error h => .error h

end Session

theorem exists_compiled {c : Compiler} (reachable : c.registry.Reachable)
    (doc : Document) :
    ∃ output next,
      c.compile doc = .ok (output, next) ∧ Finished c doc output next := by
  have declaration := later_declare c doc
  obtain ⟨output, next, done, finished⟩ :=
    exists_finished (reachable.grows declaration.grows) (declared_declare c doc)
  exact ⟨output, next, done, finished.complete, finished.noInternalError,
    declaration.trans finished.later⟩

structure Session.Sound (s : Session) : Prop where
  reachable : s.compiler.registry.Reachable
  declared : ∀ entry ∈ s.declared, Declared s.compiler entry.1 entry.2
  outputs : ∀ output ∈ s.outputs, output.NoInternalError

theorem Session.sound_new (options : Options) :
    (Session.new options).Sound where
  reachable := Registry.reachable_standard
  declared := by simp [Session.new]
  outputs := by simp [Session.new]

theorem Session.Sound.answer {s : Session} (sound : s.Sound) {doc : Document}
    {output : Output} {next : Compiler}
    (finished : Finished s.compiler doc output next) :
    Session.Sound { s with compiler := next, outputs := s.outputs ++ [output] }
      where
  reachable := sound.reachable.grows finished.later.grows
  declared entry listed :=
    (sound.declared entry listed).grows finished.later.grows
  outputs other listed := by
    rcases List.mem_append.mp listed with before | added
    · exact sound.outputs other before
    · exact List.mem_singleton.mp added ▸ finished.noInternalError

theorem Session.Sound.step {s : Session} (sound : s.Sound) (request : Request) :
    ∃ next, s.step request = .ok next ∧ next.Sound := by
  cases request with
  | declare doc =>
      have later := later_declare s.compiler doc
      refine ⟨_, rfl, sound.reachable.grows later.grows, ?_, sound.outputs⟩
      intro entry listed
      rcases List.mem_append.mp listed with before | added
      · exact (sound.declared entry before).grows later.grows
      · rw [List.mem_singleton.mp added]
        exact declared_declare s.compiler doc
  | finish position =>
      cases found : s.declared[position]? with
      | none => exact ⟨s, by simp [Session.step, found], sound⟩
      | some entry =>
          obtain ⟨output, next, done, finished⟩ :=
            exists_finished sound.reachable
              (sound.declared entry (List.mem_of_getElem? found))
          exact ⟨_, by simp [Session.step, found, done, Except.map],
            sound.answer finished⟩
  | compile doc =>
      obtain ⟨output, next, done, finished⟩ :=
        exists_compiled sound.reachable doc
      exact ⟨_, by simp [Session.step, done, Except.map], sound.answer finished⟩

theorem Session.Sound.run {s : Session} (sound : s.Sound)
    (requests : List Request) :
    ∃ final, s.run requests = .ok final ∧ final.Sound := by
  induction requests generalizing s with
  | nil => exact ⟨s, rfl, sound⟩
  | cons request rest induction =>
      obtain ⟨next, done, nextSound⟩ := sound.step request
      obtain ⟨final, finished, finalSound⟩ := induction nextSound
      exact ⟨final, by simp [Session.run, done, finished], finalSound⟩

theorem later_declareAll (c : Compiler) (docs : List Document) :
    Later c (c.declareAll docs).2 := by
  induction docs generalizing c with
  | nil => exact .refl c
  | cons doc rest induction => exact (later_declare c doc).trans (induction _)

theorem documents_declareAll (c : Compiler) (docs : List Document) :
    (c.declareAll docs).1.map Prod.fst = docs := by
  induction docs generalizing c with
  | nil => rfl
  | cons doc rest induction => exact congrArg (doc :: ·) (induction _)

theorem declared_declareAll (c : Compiler) (docs : List Document) :
    ∀ entry ∈ (c.declareAll docs).1,
      Declared (c.declareAll docs).2 entry.1 entry.2 := by
  induction docs generalizing c with
  | nil => simp [declareAll]
  | cons doc rest induction =>
      intro entry listed
      rcases List.mem_cons.mp listed with rfl | later
      · exact (declared_declare c doc).grows (later_declareAll _ rest).grows
      · exact induction _ entry later

/-- An output as every document of a batch gets one. -/
def Output.Proper (doc : Document) (o : Output) :
    Prop := o.Complete doc ∧ o.NoInternalError

theorem exists_finishedAll {c : Compiler} (reachable : c.registry.Reachable)
    {entries : List (Document × Queue)}
    (declared : ∀ entry ∈ entries, Declared c entry.1 entry.2) :
    ∃ outputs, c.finishAll entries = .ok outputs ∧
      List.Forall₂ Output.Proper (entries.map Prod.fst) outputs := by
  induction entries generalizing c with
  | nil => exact ⟨[], rfl, .nil⟩
  | cons entry rest induction =>
      obtain ⟨doc, queue⟩ := entry
      obtain ⟨here, others⟩ := List.forall_mem_cons.mp declared
      obtain ⟨output, next, done, finished⟩ := exists_finished reachable here
      obtain ⟨outputs, allDone, proper⟩ :=
        induction (reachable.grows finished.later.grows) fun entry listed =>
          (others entry listed).grows finished.later.grows
      refine ⟨output :: outputs, ?_,
        .cons ⟨finished.complete, finished.noInternalError⟩ proper⟩
      simp [finishAll, done, allDone, bind, Except.bind, pure, Except.pure]

theorem exists_batch (options : Options) (docs : List Document) :
    ∃ outputs, compileBatch options docs = .ok outputs ∧
      List.Forall₂ Output.Proper docs outputs := by
  unfold compileBatch
  cases options.registryMode with
  | shared =>
      have reachable : ((new options).declareAll docs).2.registry.Reachable :=
        Registry.reachable_standard.grows
          (later_declareAll (new options) docs).grows
      obtain ⟨outputs, done, proper⟩ :=
        exists_finishedAll reachable (declared_declareAll (new options) docs)
      rw [documents_declareAll] at proper
      exact ⟨outputs, done, proper⟩
  | perFile =>
      simp only [compilePerFile, mapM_eq_ok_iff]
      induction docs with
      | nil => exact ⟨[], .nil, .nil⟩
      | cons doc rest induction =>
          obtain ⟨outputs, done, proper⟩ := induction
          obtain ⟨output, next, compiled, finished⟩ :=
            exists_compiled (c := new options) Registry.reachable_standard doc
          refine ⟨output :: outputs, .cons ?_ done,
            .cons ⟨finished.complete, finished.noInternalError⟩ proper⟩
          simp [compiled, Except.map]

/-- Checking is sound for generation. What the check keeps of a document, in any
registry that the operations make, has code for both sides; so neither a session
nor a batch ever meets an unknown handle or an internal error. -/
theorem generation_never_fails :
    (∀ (r later : Registry) (doc : Document),
      r.Reachable → (doc.resolve r).registry.Grows later →
      ∀ i ∈ (doc.resolve r).result,
        (checkInterface doc later i).findings.dangling = none ∧
        ∀ m ∈ (checkInterface doc later i).kept.methods, ∃ g,
          Method.generate later (checkInterface doc later i).kept m = .ok g) ∧
      (∀ (options : Options) (requests : List Request),
        ∃ s, (Session.new options).run requests = .ok s ∧ ∀ output ∈
          s.outputs, ∀ d ∈ output.diagnostics, d.code ≠ .internalError) ∧
      ∀ (options : Options) (docs : List Document),
        ∃ outputs, compileBatch options docs = .ok outputs ∧
          ∀ output ∈ outputs, ∀ d ∈ output.diagnostics,
            d.code ≠ .internalError := by
  refine ⟨?_, ?_, ?_⟩
  · intro r later doc reachable growth i listed
    have orderly := resolve_orderly doc r
    have formed := ((reachable.grows orderly.grows).grows growth).wellFormed
    have known := known_of_mem_resolve listed
    obtain ⟨owner, here⟩ := known.handle
    have review := checkMethods_complete formed doc [] fun m member =>
      (known.methods m member).grows growth
    refine ⟨review.dangling, ?_⟩
    intro m kept
    obtain ⟨g, made, _, _⟩ :=
      Method.exists_generated (i := (checkInterface doc later i).kept) formed
        (growth.get?_eq_some here) (review.kept m kept).2
    exact ⟨g, made⟩
  · intro options requests
    obtain ⟨s, done, sound⟩ := (Session.sound_new options).run requests
    exact ⟨s, done, sound.outputs⟩
  · intro options docs
    obtain ⟨outputs, done, proper⟩ := exists_batch options docs
    have clean := proper.flip.imp fun _ _ good => And.intro good.2 good.1
    exact ⟨outputs, done, ((List.forall₂_and_left ..).mp clean).1⟩

def echo : Document where
  package := "a.b"
  file := "Echo.aidl"
  items := [.interface ⟨"Echo", 1, false, [⟨"send", 2, false,
    ⟨"String", false, 2⟩, [⟨.inOut, ⟨"List<String>", false, 2⟩, "names", 2⟩]⟩]⟩]

theorem generation_never_fails_echo :
    let r := (echo.declare .standard).1
    let resolved := echo.resolve r
    ∃ i ∈ resolved.result,
      ∃ m ∈ (checkInterface echo resolved.registry i).kept.methods,
        ∃ g, Method.generate resolved.registry
          (checkInterface echo resolved.registry i).kept m = .ok g := by
  let r := (echo.declare .standard).1
  let i : ResolvedInterface := ⟨⟨24⟩, 1, [⟨"send", 2, false, ⟨.string, false⟩,
    [⟨"names", .inOut, ⟨⟨25⟩, false⟩, 2⟩]⟩]⟩
  have reachable : r.Reachable := declareItems_grows echo .standard echo.items
  have listed : i ∈ (echo.resolve r).result := by decide +kernel
  obtain ⟨_, generated⟩ :=
    generation_never_fails.1 r (echo.resolve r).registry echo reachable
      (.refl _) i listed
  have kept : (checkInterface echo (echo.resolve r).registry i).kept.methods =
      i.methods := by
    decide +kernel
  have member : i.methods.head nofun ∈
      (checkInterface echo (echo.resolve r).registry i).kept.methods := by
    rw [kept]
    exact List.head_mem _
  exact ⟨i, listed, _, member, generated _ member⟩

/-- Whatever a compiler has been asked before, a document comes out with errors
and without methods, or without errors and with all of its methods in order; and
so does every document of a batch. -/
theorem compilation_is_complete (options : Options) (requests : List Request)
    (docs : List Document) :
    (∃ s, (Session.new options).run requests = .ok s ∧ ∀ doc, ∃ output next,
      s.compiler.compile doc = .ok (output, next) ∧ output.Complete doc) ∧
    ∃ outputs, compileBatch options docs = .ok outputs ∧
      List.Forall₂ Output.Complete docs outputs := by
  obtain ⟨s, done, sound⟩ := (Session.sound_new options).run requests
  obtain ⟨outputs, batch, proper⟩ := exists_batch options docs
  refine ⟨⟨s, done, fun doc => ?_⟩, outputs, batch,
    proper.imp fun _ _ good => good.1⟩
  obtain ⟨output, next, compiled, finished⟩ :=
    exists_compiled sound.reachable doc
  exact ⟨output, next, compiled, finished.complete⟩

end BinderIdl.Compiler
