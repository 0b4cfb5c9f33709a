import BinderIdl.Diagnostic.Queue

namespace BinderIdl.Compiler

/-- How the documents of a batch see each other. -/
inductive RegistryMode where
  /-- All on one registry. Each document is declared before any is finished, so
  that they may refer to each other in any order. -/
  | shared
  /-- Each on a registry of its own. -/
  | perFile
deriving DecidableEq

structure Options where
  registryMode : RegistryMode
  policy : Diagnostic.Policy
  dumpTypes : Bool
deriving DecidableEq

end BinderIdl.Compiler
