import ScriptDrive.Bytes

/-!
# Control requests

A control transfer opens with eight bytes.  `Setup.asks` says what they ask for; what the device
cannot answer falls into a few classes of its own, since it makes a difference how it is turned down.
-/

set_option autoImplicit false

namespace ScriptDrive

structure Setup where
  requestType : UInt8
  request : UInt8
  value : UInt16
  /-- The interface, for a class request. -/
  index : UInt16
  /-- Bytes of the data stage, or the most the host takes. -/
  length : UInt16
  deriving DecidableEq

inductive DescriptorName where
  | device
  | configuration
  | languages
  | vendor
  | product
  | unknown
  deriving DecidableEq

inductive ControlRequest where
  | setAddress (address : UInt8)
  | setConfiguration
  /-- A standard request without an answer that the device does not know. -/
  | otherCommand
  | getDescriptor (name : DescriptorName)
  /-- A standard request for an answer that the device does not know. -/
  | otherQuery
  | disk (code : UInt8)
  | setLineCoding
  | getLineCoding
  | setControlLineState
  /-- Anything else: an unknown class request, or a vendor request. -/
  | foreign
  deriving DecidableEq

def diskInterface : UInt8 := 2

namespace Setup

def ofBytes (bytes : Octets 8) : Setup where
  requestType := bytes.byteAt 0 (by decide)
  request := bytes.byteAt 1 (by decide)
  value := littleWord16 bytes.bytes 2
  index := littleWord16 bytes.bytes 4
  length := littleWord16 bytes.bytes 6

def toHost (setup : Setup) : Bool :=
  setup.requestType &&& 0x80 != 0

/-- The kind of request: standard, class, vendor, or reserved. -/
def kind (setup : Setup) : Nat :=
  setup.requestType.toNat / 32 % 4

def descriptorName (setup : Setup) : DescriptorName :=
  match setup.value.toNat / 256, setup.value.toNat % 256 with
  | 1, _ => .device
  | 2, _ => .configuration
  | 3, 0 => .languages
  | 3, 1 => .vendor
  | 3, 2 => .product
  | _, _ => .unknown

def standardRequest (setup : Setup) : ControlRequest :=
  match setup.toHost, setup.request.toNat with
  | false, 0x05 => .setAddress setup.value.toUInt8
  | false, 0x09 => .setConfiguration
  | false, _ => .otherCommand
  | true, 0x06 => .getDescriptor setup.descriptorName
  | true, _ => .otherQuery

def classRequest (setup : Setup) : ControlRequest :=
  if setup.index.toUInt8 = diskInterface then
    .disk setup.request
  else
    match setup.request.toNat with
    | 0x20 => .setLineCoding
    | 0x21 => .getLineCoding
    | 0x22 => .setControlLineState
    | _ => .foreign

def asks (setup : Setup) : ControlRequest :=
  match setup.kind with
  | 0 => setup.standardRequest
  | 1 => setup.classRequest
  | _ => .foreign

end Setup

end ScriptDrive
