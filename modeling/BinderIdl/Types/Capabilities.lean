namespace BinderIdl.Types

structure Capabilities where
  bits : UInt8
deriving DecidableEq

namespace Capabilities

def none : Capabilities := ⟨0⟩

/-- Values can be written to a parcel. -/
def write : Capabilities := ⟨1⟩

/-- Values can be written to a parcel, and existing values filled from one. -/
def writeAndOut : Capabilities := ⟨3⟩

def canWrite (c : Capabilities) : Bool := c.bits &&& 1 != 0

def canBeOut (c : Capabilities) : Bool := c.bits &&& 2 != 0

theorem canWrite_none : none.canWrite = false := by decide

theorem canWrite_write : write.canWrite = true := by decide

theorem canWrite_writeAndOut : writeAndOut.canWrite = true := by decide

theorem canBeOut_none : none.canBeOut = false := by decide

theorem canBeOut_write : write.canBeOut = false := by decide

theorem canBeOut_writeAndOut : writeAndOut.canBeOut = true := by decide

end Capabilities

structure WriteFlags where
  bits : UInt32
deriving DecidableEq

namespace WriteFlags

def none : WriteFlags := ⟨0⟩

/-- The value is on its way back to the caller. -/
def returnValue : WriteFlags := ⟨1⟩

def isReturnValue (flags : WriteFlags) : Bool := flags.bits &&& 1 != 0

end WriteFlags

end BinderIdl.Types
