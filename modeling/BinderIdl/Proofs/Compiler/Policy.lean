import BinderIdl.Proofs.Compiler.Account

namespace BinderIdl.Compiler

open Diagnostic Diagnostic.Queue BinderIdl.Types

namespace Output

/-- Outputs that differ at most in the diagnostics that they show. -/
structure Agrees (o other : Output) : Prop where
  file : o.file = other.file
  methods : o.methods = other.methods
  typeDump : o.typeDump = other.typeDump
  hasErrors : o.hasErrors = other.hasErrors

/-- The diagnostics without the note about the limit. -/
def reported (o : Output) : List Diagnostic :=
  o.diagnostics.filter fun d => d.code != .tooManyErrors

end Output

theorem Account.hasErrors_output (a : Account) (options : Options) :
    (a.output options).hasErrors = a.offered.any isError :=
  any_isError_flushed_offered options.policy a.offered

section

variable {mode : RegistryMode} {policy other : Policy} {dump : Bool}

theorem Account.agrees_output (a : Account) :
    (a.output ⟨mode, policy, dump⟩).Agrees (a.output ⟨mode, other, dump⟩) where
  file := rfl
  methods := rfl
  typeDump := rfl
  hasErrors := by rw [hasErrors_output, hasErrors_output]

theorem Account.reported_sublist (a : Account) :
    (a.output ⟨mode, policy, dump⟩).reported.Sublist
      (a.output ⟨mode, .unlimited, dump⟩).diagnostics :=
  flushed_offered_sublist policy a.offered

theorem agrees_outputs (accounts : List Account) :
    List.Forall₂ Output.Agrees
      (accounts.map (Account.output · ⟨mode, policy, dump⟩))
      (accounts.map (Account.output · ⟨mode, other, dump⟩)) := by
  rw [List.forall₂_map_left_iff, List.forall₂_map_right_iff, List.forall₂_same]
  exact fun a _ => a.agrees_output

theorem reported_outputs_sublist (accounts : List Account) :
    List.Forall₂ (fun o full => o.reported.Sublist full.diagnostics)
      (accounts.map (Account.output · ⟨mode, policy, dump⟩))
      (accounts.map (Account.output · ⟨mode, .unlimited, dump⟩)) := by
  rw [List.forall₂_map_left_iff, List.forall₂_map_right_iff, List.forall₂_same]
  exact fun a _ => a.reported_sublist

end

theorem exists_accountBatch (mode : RegistryMode) (docs : List Document) :
    ∃ accounts, accountBatch mode docs = .ok accounts := by
  obtain ⟨outputs, done, _⟩ := exists_batch ⟨mode, .standard, false⟩ docs
  rw [compileBatch_eq] at done
  obtain ⟨accounts, counted, _⟩ := map_eq_ok_iff.mp done
  exact ⟨accounts, counted⟩

theorem exists_ledger (requests : List Request) :
    ∃ l, Ledger.new.run requests = .ok l := by
  let options : Options := ⟨.shared, .standard, false⟩
  obtain ⟨s, done, _⟩ := (Session.sound_new options).run requests
  have viewed := Ledger.new.run_session options requests
  obtain ⟨l, counted, _⟩ := map_eq_ok_iff.mp (viewed.symm.trans done)
  exact ⟨l, counted⟩

/-- Whatever is refused or dropped, the same is made of the documents, in a
batch as in a session; and what is reported besides the note about the limit is
reported without a limit too, in the same order. -/
theorem policy_decides_only_what_is_reported (mode : RegistryMode) (dump : Bool)
    (policy other : Policy) (docs : List Document) (requests : List Request) :
    (∃ outputs others full,
      compileBatch ⟨mode, policy, dump⟩ docs = .ok outputs ∧
      compileBatch ⟨mode, other, dump⟩ docs = .ok others ∧
      compileBatch ⟨mode, .unlimited, dump⟩ docs = .ok full ∧
      List.Forall₂ Output.Agrees outputs others ∧ List.Forall₂
        (fun o all => o.reported.Sublist all.diagnostics) outputs full) ∧
    ∃ s t u, (Session.new ⟨mode, policy, dump⟩).run requests = .ok s ∧
      (Session.new ⟨mode, other, dump⟩).run requests = .ok t ∧
      (Session.new ⟨mode, .unlimited, dump⟩).run requests = .ok u ∧
      s.compiler.registry = t.compiler.registry ∧
      List.Forall₂ Output.Agrees s.outputs t.outputs ∧
      List.Forall₂ (fun o all => o.reported.Sublist all.diagnostics) s.outputs
        u.outputs := by
  constructor
  · obtain ⟨accounts, counted⟩ := exists_accountBatch mode docs
    have outputs (p : Policy) : compileBatch ⟨mode, p, dump⟩ docs =
        .ok (accounts.map (Account.output · ⟨mode, p, dump⟩)) := by
      rw [compileBatch_eq, counted]
      rfl
    exact ⟨_, _, _, outputs policy, outputs other, outputs .unlimited,
      agrees_outputs accounts, reported_outputs_sublist accounts⟩
  · obtain ⟨l, counted⟩ := exists_ledger requests
    have run (p : Policy) : (Session.new ⟨mode, p, dump⟩).run requests =
        .ok (l.session ⟨mode, p, dump⟩) := by
      refine (Ledger.new.run_session ⟨mode, p, dump⟩ requests).trans ?_
      rw [counted]
      rfl
    exact ⟨_, _, _, run policy, run other, run .unlimited, rfl,
      agrees_outputs l.accounts, reported_outputs_sublist l.accounts⟩

end BinderIdl.Compiler
