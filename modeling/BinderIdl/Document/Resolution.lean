import BinderIdl.Document.Basic
import BinderIdl.Types.Lookup

/-! Resolution: the written types of a document become handles. A method
with a type that cannot be resolved is reported, once for each such type,
and left out. -/

namespace BinderIdl.Document

open BinderIdl.Types

structure ResolvedType where
  handle : Handle
  isArray : Bool
deriving DecidableEq

def ResolvedType.isVoid (t : ResolvedType) :
    Bool := t.handle == .void && !t.isArray

structure ResolvedParameter where
  name : String
  direction : Direction
  type : ResolvedType
  line : Nat
deriving DecidableEq

structure ResolvedMethod where
  name : String
  line : Nat
  /-- The method or its interface is declared oneway. -/
  oneway : Bool
  returnType : ResolvedType
  parameters : List ResolvedParameter
deriving DecidableEq

structure ResolvedInterface where
  handle : Handle
  line : Nat
  methods : List ResolvedMethod
deriving DecidableEq

/-- What resolution makes of a part of a document: the registry with the
instances that it needed, the reports, and the resolved part if nothing
in it failed. -/
structure Resolved (α : Type) where
  registry : Registry
  reports : List Diagnostic
  result : α

def resolveType (doc : Document) (r : Registry) (type : TypeText) :
    Resolved (Option ResolvedType) :=
  match r.resolve type.name with
  | .ok (h, grown) => ⟨grown, [], some ⟨h, type.isArray⟩⟩
  | .error error => ⟨r, [error.report (doc.site type.line)], none⟩

def resolveParameter (doc : Document) (r : Registry) (p : Parameter) :
    Resolved (Option ResolvedParameter) :=
  let type := resolveType doc r p.type
  { type with result :=
    type.result.map fun t => ⟨p.name, p.direction, t, p.line⟩ }

/-- Resolves every parameter, also behind one that fails. -/
def resolveParameters (doc : Document) (r : Registry) :
    List Parameter → Resolved (Option (List ResolvedParameter))
  | [] => ⟨r, [], some []⟩
  | p :: rest =>
      let first := resolveParameter doc r p
      let others := resolveParameters doc first.registry rest
      { registry := others.registry
        reports := first.reports ++ others.reports
        result := do return (← first.result) :: (← others.result) }

def resolveMethod (doc : Document) (owner : Interface) (r : Registry)
    (m : Method) :
    Resolved (Option ResolvedMethod) :=
  let returned := resolveType doc r m.returnType
  let parameters := resolveParameters doc returned.registry m.parameters
  { registry := parameters.registry
    reports := returned.reports ++ parameters.reports
    result := do
      let returnType ← returned.result
      let resolved ← parameters.result
      return ⟨m.name, m.line, m.oneway || owner.oneway, returnType, resolved⟩ }

def resolveMethods (doc : Document) (owner : Interface) (r : Registry) :
    List Method → Resolved (List ResolvedMethod)
  | [] => ⟨r, [], []⟩
  | m :: rest =>
      let first := resolveMethod doc owner r m
      let others := resolveMethods doc owner first.registry rest
      ⟨others.registry, first.reports ++ others.reports,
        first.result.toList ++ others.result⟩

/-- The handle of an interface whose declaration the registry has accepted: the
name is an interface there, and declared at this very site. -/
def acceptedHandle? (doc : Document) (r : Registry) (i : Interface) :
    Option Handle := do
  let h ← r.find? doc.package i.name
  let d ← r.get? h
  if d.kind = .interface ∧ d.site = some (doc.site i.line) then some h else none

def resolveInterfaces (doc : Document) (r : Registry) :
    List Interface → Resolved (List ResolvedInterface)
  | [] => ⟨r, [], []⟩
  | i :: rest =>
      match acceptedHandle? doc r i with
      | none => resolveInterfaces doc r rest
      | some h =>
          let methods := resolveMethods doc i r i.methods
          let others := resolveInterfaces doc methods.registry rest
          { registry := others.registry
            reports := methods.reports ++ others.reports
            result := ⟨h, i.line, methods.result⟩ :: others.result }

def resolve (doc : Document) (r : Registry) :
    Resolved (List ResolvedInterface) :=
  resolveInterfaces doc r doc.interfaces

end BinderIdl.Document
