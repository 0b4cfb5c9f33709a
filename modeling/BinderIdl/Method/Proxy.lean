import BinderIdl.Method.Signature

namespace BinderIdl.Method

open Java BinderIdl.Types Parcel Emitter

/-- What a parameter puts into the request. Of an array that only comes back,
the length is sent for the other side to allocate. -/
def sendParameter (r : Registry) (data : Variable) (p : Parameter) :
    Emitter Unit :=
  let value := p.type.variableNamed p.name
  if p.direction.isIn then p.type.write r value data .none
  else if p.type.isArray then
    emit (writeSized value data (.field value.ref "length") [])
  else pure ()

def transactFlags (oneway : Bool) : Expr :=
  if oneway then .literal "android.os.IBinder.FLAG_ONEWAY" else .int 0

def transact (s : Signature) (data reply : Variable) : Expr :=
  .call (.literal "mRemote") "transact"
    [.literal ("Stub.TRANSACTION_" ++ s.name), data.ref, reply.ref,
      transactFlags s.oneway]

def receiveResult (r : Registry) (reply : Variable) :
    Option ValueType → Emitter Unit
  | none => pure ()
  | some t => t.create r (t.variableNamed resultName) reply

def receiveParameter (r : Registry) (reply : Variable) (p : Parameter) :
    Emitter Unit :=
  p.type.read r (p.type.variableNamed p.name) reply

def proxyBody (r : Registry) (s : Signature) (data reply : Variable) :
    Emitter Unit := do
  emit (.expr (data.call "writeInterfaceToken" [.literal "DESCRIPTOR"]))
  s.parameters.forM (sendParameter r data)
  emit (.expr (transact s data reply))
  if s.oneway then pure ()
  else do
    emit (.expr (reply.call "readException" []))
    receiveResult r reply s.result
    s.outParameters.forM (receiveParameter r reply)

def proxy (r : Registry) (s : Signature) : Except MarshalError Block := do
  let data ← parcelVariable r "_data"
  let reply ← parcelVariable r "_reply"
  (proxyBody r s data reply).code

end BinderIdl.Method
