import BinderIdl.Parcel.Error

/-! Emitters: code that is produced step by step, together with the
class-loader local of the body that it belongs to. What was emitted before a
failure stands. -/

namespace BinderIdl.Parcel

open Java BinderIdl.Types

variable {α β : Type}

structure Emission (α : Type) where
  code : Block
  /-- The class-loader local, once something has declared it. -/
  loader : Option Variable
  outcome : Except MarshalError α

/-- Takes the class-loader local of the body so far. -/
def Emitter (α : Type) : Type := Option Variable → Emission α

namespace Emitter

protected def pure (a : α) : Emitter α := fun loader => ⟨[], loader, .ok a⟩

protected def bind (first : Emitter α) (next : α → Emitter β) :
    Emitter β := fun loader =>
  let before := first loader
  match before.outcome with
  | .error error => ⟨before.code, before.loader, .error error⟩
  | .ok a =>
      let after := next a before.loader
      ⟨before.code ++ after.code, after.loader, after.outcome⟩

instance : Monad Emitter where
  pure := Emitter.pure
  bind := Emitter.bind

instance : LawfulMonad Emitter := LawfulMonad.mk' Emitter
  (fun first => by
    funext loader
    change Emitter.bind first Emitter.pure loader = first loader
    unfold Emitter.bind
    rcases first loader with ⟨code, last, outcome⟩
    cases outcome <;> simp [Emitter.pure])
  (fun _ _ => by
    funext loader
    simp [Bind.bind, Pure.pure, Emitter.bind, Emitter.pure])
  (fun first second third => by
    funext loader
    simp only [Bind.bind, Emitter.bind]
    cases h : (first loader).outcome with
    | error error => rfl
    | ok a =>
        simp only []
        cases (second a (first loader).loader).outcome <;> simp)

def fail (error : MarshalError) :
    Emitter α := fun loader => ⟨[], loader, .error error⟩

def ofExcept : Except MarshalError α → Emitter α
  | .ok a => pure a
  | .error error => fail error

def emitAll (code : Block) :
    Emitter Unit := fun loader => ⟨code, loader, .ok ()⟩

/-- Emits code that was produced as a whole. -/
def ofCode : Except MarshalError Block → Emitter Unit
  | .ok code => emitAll code
  | .error error => fail error

def emit (stmt : Stmt) : Emitter Unit := emitAll [stmt]

/-- Runs an emitter for a block of its own. If it fails the block is lost, but a
class loader that it declared still counts as declared. -/
def nested (body : Emitter Unit) : Emitter Block := fun loader =>
  let inner := body loader
  ⟨[], inner.loader, inner.outcome.map fun _ => inner.code⟩

/-- The code of a body that starts without a class loader. -/
def code (body : Emitter Unit) : Except MarshalError Block :=
  (body none).outcome.map fun _ => (body none).code

theorem run_pure (a : α) (loader : Option Variable) :
    (pure a : Emitter α) loader = ⟨[], loader, .ok a⟩ := rfl

theorem run_bind_ok {first : Emitter α} {next : α → Emitter β}
    {loader : Option Variable} {a : α} (h : (first loader).outcome = .ok a) :
    (first >>= next) loader =
      ⟨(first loader).code ++ (next a (first loader).loader).code,
        (next a (first loader).loader).loader,
        (next a (first loader).loader).outcome⟩ := by
  change Emitter.bind first next loader = _
  simp [Emitter.bind, h]

theorem run_bind_error {first : Emitter α} {next : α → Emitter β}
    {loader : Option Variable} {error : MarshalError}
    (h : (first loader).outcome = .error error) :
    (first >>= next) loader =
      ⟨(first loader).code, (first loader).loader, .error error⟩ := by
  change Emitter.bind first next loader = _
  simp [Emitter.bind, h]

theorem run_emit (stmt : Stmt) (loader : Option Variable) :
    emit stmt loader = ⟨[stmt], loader, .ok ()⟩ := rfl

def loaderName : String := "cl"

def loaderValue : Expr := .call (.literal "this.getClass()") "getClassLoader" []

/-- The class-loader local, which the first use declares. -/
def acquire (r : Registry) : Emitter Variable := fun loader =>
  match loader with
  | some v => ⟨[], some v, .ok v⟩
  | none =>
      match r.require .classLoader with
      | .error error => ⟨[], none, .error error⟩
      | .ok d =>
          let v := d.valueVariable loaderName
          ⟨[.declare v loaderValue], some v, .ok v⟩

/-- Declares the class loader ahead of a loop, so that the loop only
refers to it. -/
def acquireIf (r : Registry) (needed : Bool) : Emitter Unit :=
  if needed then do
    let _ ← acquire r
  else pure ()

end Emitter

end BinderIdl.Parcel
