import BinderIdl.Compiler.Options
import BinderIdl.Compiler.Output
import BinderIdl.Document.Declaration
import BinderIdl.Document.Legality
import BinderIdl.Types.BuiltIn

namespace BinderIdl

open Diagnostic Document Source BinderIdl.Types

/-- A compiler and the registry that its documents share. -/
structure Compiler where
  options : Compiler.Options
  registry : Registry

namespace Compiler

def new (options : Options) : Compiler := ⟨options, .standard⟩

/-- Declares the types of a document. The queue holds what was
wrong with them. -/
def declare (c : Compiler) (doc : Document) : Queue × Compiler :=
  let (registry, reports) := doc.declare c.registry
  ((Queue.empty c.options.policy).addAll reports, { c with registry :=
    registry })

structure Generation where
  methods : List Method.Generated
  reports : List Diagnostic

/-- Generates methods in their order. A failure is reported at the line of the
method, except for a handle that the registry does not hold: that ends the
compilation. -/
def generateMethods (r : Registry) (doc : Document) (i : ResolvedInterface) :
    List ResolvedMethod → Except Handle Generation
  | [] => .ok ⟨[], []⟩
  | m :: rest =>
      match Method.generate r i m with
      | .ok method => do
          let others ← generateMethods r doc i rest
          return ⟨method :: others.methods, others.reports⟩
      | .error (.marshalling error) => do
          let others ← generateMethods r doc i rest
          return ⟨others.methods,
            error.report (doc.site m.line) :: others.reports⟩
      | .error (.dangling h) => .error h

def generateInterfaces (r : Registry) (doc : Document) :
    List ResolvedInterface → Except Handle Generation
  | [] => .ok ⟨[], []⟩
  | i :: rest => do
      let first ← generateMethods r doc i i.methods
      let others ← generateInterfaces r doc rest
      return ⟨first.methods ++ others.methods, first.reports ++ others.reports⟩

/-- Nothing is generated for a document in which errors were found. -/
def generateUnless (errors : Bool) (r : Registry) (doc : Document)
    (interfaces : List ResolvedInterface) : Except Handle Generation :=
  if errors then .ok ⟨[], []⟩ else generateInterfaces r doc interfaces

/-- Resolves, checks and generates a declared document. The error is a handle
that the registry does not hold. -/
def finish (c : Compiler) (doc : Document) (queue : Queue) :
    Except Handle (Output × Compiler) :=
  let resolved := doc.resolve c.registry
  let review := checkInterfaces doc resolved.registry resolved.result
  match review.findings.dangling with
  | some h => .error h
  | none => do
      let checked :=
        (queue.addAll resolved.reports).addAll review.findings.complaints
      let generation ← generateUnless checked.hasErrors resolved.registry doc
          review.kept
      let (diagnostics, _) := (checked.addAll generation.reports).flush
      return ({ file := doc.file
                methods := generation.methods
                diagnostics := diagnostics
                typeDump :=
                  if c.options.dumpTypes then some resolved.registry.dump
                    else none},
        { c with registry := resolved.registry })

def compile (c : Compiler) (doc : Document) :
    Except Handle (Output × Compiler) :=
  let (queue, declared) := c.declare doc
  declared.finish doc queue

def declareAll (c : Compiler) :
    List Document → List (Document × Queue) × Compiler
  | [] => ([], c)
  | doc :: rest =>
      let (queue, declared) := c.declare doc
      let (others, final) := declared.declareAll rest
      ((doc, queue) :: others, final)

def finishAll (c : Compiler) :
    List (Document × Queue) → Except Handle (List Output)
  | [] => .ok []
  | (doc, queue) :: rest => do
      let (output, next) ← c.finish doc queue
      let others ← next.finishAll rest
      return output :: others

def compileShared (options : Options) (docs : List Document) :
    Except Handle (List Output) :=
  let (declared, compiler) := (new options).declareAll docs
  compiler.finishAll declared

def compilePerFile (options : Options) (docs : List Document) :
    Except Handle (List Output) :=
  docs.mapM fun doc => ((new options).compile doc).map Prod.fst

/-- One output for each document, in their order. -/
def compileBatch (options : Options) (docs : List Document) :
    Except Handle (List Output) :=
  match options.registryMode with
  | .shared => compileShared options docs
  | .perFile => compilePerFile options docs

end Compiler

end BinderIdl
