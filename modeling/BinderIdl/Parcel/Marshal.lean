import BinderIdl.Parcel.Read
import BinderIdl.Parcel.Write

namespace BinderIdl.Parcel

open Java BinderIdl.Types

/-- The code of one operation. Only writing looks at the flags. -/
def Operation.emit (operation : Operation) (r : Registry) (d : Descriptor)
    (value parcel : Variable) (flags : WriteFlags) : Emitter Unit :=
  match operation with
  | .write => .ofCode (Parcel.write r d value parcel flags)
  | .create => Parcel.create r d value parcel
  | .read => Parcel.read r d value parcel
  | .writeArray => .ofCode (Parcel.writeArray r d value parcel flags)
  | .createArray => Parcel.createArray r d value parcel
  | .readArray => Parcel.readArray r d value parcel

end BinderIdl.Parcel
