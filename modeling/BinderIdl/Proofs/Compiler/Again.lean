import BinderIdl.Proofs.Compiler.Account
import BinderIdl.Proofs.Document.Again

namespace BinderIdl.Compiler

open Document BinderIdl.Types

theorem account_again {r : Registry} {doc : Document} {before : List Diagnostic}
    {a : Account} (accounted : account (doc.declare r).1 doc before = .ok a) :
    a.registry = (doc.resolve (doc.declare r).1).registry ∧
      account a.registry doc before = .ok a := by
  obtain ⟨_, _, _, rfl⟩ := account_eq_ok accounted
  refine ⟨rfl, ?_⟩
  have resolved := resolve_again doc r
  rw [← accounted]
  unfold account
  rw [resolved]

/-- A compiler that has just compiled a document compiles it to the same output
once more, with the same diagnostics and the same dump, and stays as it is. -/
theorem recompilation_changes_nothing {c : Compiler}
    (reachable : c.registry.Reachable) (doc : Document) :
    ∃ output next, c.compile doc = .ok (output, next) ∧
      next.compile doc = .ok (output, next) := by
  obtain ⟨output, next, compiled, _⟩ := exists_compiled reachable doc
  refine ⟨output, next, compiled, ?_⟩
  rw [compile_eq] at compiled ⊢
  obtain ⟨a, accounted, done⟩ := map_eq_ok_iff.mp compiled
  cases done
  obtain ⟨registry, again⟩ := account_again accounted
  have grew : (doc.declare c.registry).1.types <+: a.registry.types :=
    registry ▸ (resolve_orderly doc _).grows.types_grow
  dsimp only
  rw [declare_again doc grew, again]
  rfl

/-- It declares a name of `echo` anew, and needs instances and a type
that is nowhere. -/
def muddle : Document where
  package := "a.b"
  file := "Muddle.aidl"
  items := [.parcelable "Echo" 1, .interface ⟨"Muddle", 2, false,
    [⟨"sort", 3, false, ⟨"Map<String,Muddle>", false, 3⟩, []⟩,
      ⟨"lose", 4, true, ⟨"Nowhere", false, 4⟩,
        [⟨.input, ⟨"List<Echo>", false, 4⟩, "echoes", 4⟩]⟩]⟩]

theorem recompilation_changes_nothing_muddle :
    let r := (echo.resolve (echo.declare .standard).1).registry
    (muddle.declare r).2.length = 1 ∧
    (muddle.resolve (muddle.declare r).1).registry.size = r.size + 3 ∧
    ∃ output next, Compiler.compile ⟨⟨.shared, .unlimited, true⟩, r⟩ muddle =
      .ok (output, next) ∧
        next.compile muddle = .ok (output, next) := by
  refine ⟨by decide +kernel, by decide +kernel, ?_⟩
  apply recompilation_changes_nothing
  exact (declareItems_grows echo .standard echo.items).trans
    (resolve_orderly echo _).grows

end BinderIdl.Compiler
