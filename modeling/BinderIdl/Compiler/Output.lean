import BinderIdl.Diagnostic.Basic
import BinderIdl.Method.Generated

namespace BinderIdl.Compiler

structure Output where
  file : String
  methods : List Method.Generated
  diagnostics : List Diagnostic
  /-- The registry after the document, if the options ask for it. -/
  typeDump : Option String

namespace Output

def hasErrors (o : Output) : Bool := o.diagnostics.any Diagnostic.isError

def render (o : Output) :
    String := String.join (o.methods.map Method.Generated.render)

end Output

end BinderIdl.Compiler
