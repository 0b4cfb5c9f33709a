import BinderIdl.Java.Printer
import BinderIdl.Method.Proxy
import BinderIdl.Method.Stub

namespace BinderIdl.Method

open Document Java BinderIdl.Types Parcel

structure Generated where
  /-- The qualified name of the interface. -/
  interface : String
  name : String
  proxy : Block
  stub : Block

namespace Generated

def renderSide (m : Generated) (side : String) (block : Block) : String :=
  "// " ++ m.interface ++ "." ++ m.name ++ " (" ++ side ++ ")\n" ++
    Block.print 0 block

/-- Both sides as source text, each below a line that names it. -/
def render (m : Generated) : String :=
  m.renderSide "proxy" m.proxy ++ m.renderSide "stub" m.stub

end Generated

def ofMarshalling : Except MarshalError α → Except GenerationError α :=
  Except.mapError GenerationError.marshalling

/-- Generates a method of an interface: the caller's side first,
then the other. -/
def generate (r : Registry) (i : ResolvedInterface) (m : ResolvedMethod) :
    Except GenerationError Generated := do
  let owner ← (r.get? i.handle).elim (.error (.dangling i.handle)) .ok
  let signature ← Signature.ofResolved r m
  let proxy ← ofMarshalling (proxy r signature)
  let stub ← ofMarshalling (stub r signature)
  return ⟨owner.qualifiedName, m.name, proxy, stub⟩

end BinderIdl.Method
