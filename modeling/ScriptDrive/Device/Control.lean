import ScriptDrive.Device.State
import ScriptDrive.Usb.Descriptor

/-!
# Answering control requests

The answer to a packet on the control endpoint that opens a transfer: data, an acknowledgement, a
refusal, or room for the data the host wants to send.  Whatever was left of the transfer before is
dropped first.
-/

set_option autoImplicit false

namespace ScriptDrive

def writeRegister (register : Register) (value : UInt32) : Exchange Controller Unit :=
  Exchange.modifyLink fun controller => controller.write (.register register value)

def raisePin (pin : Nat) : Exchange Controller Unit :=
  writeRegister .pinRaise (bit pin)

def lowerPin (pin : Nat) : Exchange Controller Unit :=
  writeRegister .pinLower (bit pin)

/-- Hands a packet to an endpoint towards the host, whoever holds its buffer. -/
def armIn (endpoint : InEndpoint) (bytes : List UInt8) : Exchange Controller Unit := do
  let packet ← Packet.ofBytes bytes
  Exchange.modifyLink fun controller => controller.armIn endpoint packet

def armOut (endpoint : OutEndpoint) (length : Nat) : Exchange Controller Unit := do
  if maxPacket < length then
    Exchange.halt .packetTooLong
  Exchange.modifyLink fun controller => controller.armOut endpoint length

def acknowledge : Exchange Controller Unit :=
  armIn .control []

def refuse : Exchange Controller Unit :=
  Exchange.modifyLink Controller.stallControl

namespace Device

def sendNext (device : Device) : Exchange Controller (Device × Bool) := do
  match device.stage.next? with
  | some (packet, stage) =>
    armIn .control packet.bytes
    return ({ device with stage := stage }, true)
  | none => return (device, false)

def openStage (device : Device) (data : List UInt8) (requested : Nat) :
    Exchange Controller Device := do
  let (next, sent) ← sendNext { device with stage := .opening data requested }
  if !sent then
    armIn .control []
  return next

def sendDescriptor (device : Device) (name : DescriptorName) (requested : Nat) :
    Exchange Controller Device := do
  match name with
  | .device => device.openStage Descriptor.device requested
  | .configuration => device.openStage Descriptor.configuration requested
  | .languages =>
    armIn .control (Descriptor.languages.take requested)
    return device
  | .vendor =>
    armIn .control ((Descriptor.ofText device.drive.identity.vendor.bytes).take requested)
    return device
  | .product =>
    armIn .control ((Descriptor.ofText device.drive.identity.product.bytes).take requested)
    return device
  | .unknown =>
    refuse
    return device

def answerDisk (device : Device) (code : UInt8) (requested : Nat) :
    Exchange Controller Device := do
  let (drive, answer) ← device.drive.classRequest code
  match answer with
  | .data byte => armIn .control ([byte].take requested)
  | .acknowledge => acknowledge
  | .unsupported => refuse
  return { device with drive := drive }

def answer (device : Device) (setup : Setup) : Exchange Controller Device := do
  let requested := setup.length.toNat
  match setup.asks with
  | .setAddress address =>
    acknowledge
    return { device with newAddress := some address }
  | .setConfiguration =>
    acknowledge
    return { device with configured := true }
  | .otherCommand =>
    -- A host that gets no answer at all would wait for one.
    acknowledge
    return device
  | .getDescriptor name => device.sendDescriptor name requested
  | .otherQuery => return device
  | .disk code => device.answerDisk code requested
  | .setLineCoding =>
    armOut .control maxPacket
    return { device with lineCodingDue := true }
  | .getLineCoding =>
    armIn .control (device.lineCoding.bytes.take requested)
    return device
  | .setControlLineState =>
    acknowledge
    return device
  | .foreign =>
    refuse
    return device

/-- Handles a packet that opens a control transfer.  Its data and its status both begin with the odd
kind of packet. -/
def onSetup (device : Device) (bytes : Octets 8) : Exchange Controller Device := do
  raisePin device.board.lampPin
  raisePin setupPin
  writeRegister .serialStatus (bit 17)
  Exchange.modifyLink fun controller =>
    (controller.setNext (.toHost .control) true).setNext (.fromHost .control) true
  let fresh := { device with stage := {}, lineCodingDue := false }
  let answered ← fresh.answer (.ofBytes bytes)
  lowerPin setupPin
  return answered

end Device

end ScriptDrive
