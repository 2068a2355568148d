import ScriptDrive.Device.Control

/-!
# A turn of the main loop

The device looks at the controller and handles whatever is there, always in the same order: a control
request, the buffers that came back, a bus reset.  Then it starts up if it has just been configured,
moves the drive along, echoes console input, and announces a file that was moved or resized.
-/

set_option autoImplicit false

namespace ScriptDrive.Device

def onControlCollected (device : Device) : Exchange Controller Device := do
  match device.newAddress with
  | some address =>
    writeRegister .deviceAddress (UInt32.ofNat (address.toNat % 128))
    return { device with newAddress := none }
  | none =>
    let (next, sent) ← device.sendNext
    if !sent then
      -- The data stage is over; the host's status comes next.
      armOut .control 0
    return next

def onControlPacket (device : Device) (packet : List UInt8) : Exchange Controller Device := do
  if device.lineCodingDue then
    acknowledge
    return {
      device with
      lineCodingDue := false
      lineCoding := (Octets.ofList? 7 (packet.take 7)).getD device.lineCoding }
  else
    return device

def serve (device : Device) (endpoint : Endpoint) : Exchange Controller Device := do
  raisePin (servicePin endpoint)
  let controller ← Exchange.link
  -- A buffer that came back is the device's own until it is armed again.
  if controller.holds endpoint then
    Exchange.halt .bufferHeld
  let packet := controller.received endpoint
  let served ← match endpoint with
    | .toHost .control => device.onControlCollected
    | .fromHost .control => device.onControlPacket packet
    | .fromHost other => do
      let drive ← device.drive.onPacket other.number packet
      armOut other maxPacket
      pure { device with drive := drive }
    | .toHost other => do
      let drive ← device.drive.onCollected other.number
      pure { device with drive := drive }
  lowerPin (servicePin endpoint)
  return served

def serveAll (device : Device) : List Nat → Exchange Controller Device
  | [] => return device
  | index :: rest => do
    let next ← match Endpoint.ofIndex? index with
      | some endpoint => device.serve endpoint
      | none => pure device
    next.serveAll rest

def statusPlaces (returned : List Returned) : List Nat :=
  (List.range 32).filter fun index => returned.any fun buffer => buffer.index == index

def statusWord (places : List Nat) : UInt32 :=
  places.foldl (fun word place => word ||| bit place) 0

def onReturned (device : Device) (places : List Nat) : Exchange Controller Device := do
  raisePin device.board.lampPin
  raisePin bufferPin
  let served ← device.serveAll places
  writeRegister .bufferStatus (statusWord places)
  lowerPin bufferPin
  return served

def disarmAll (endpoints : List Endpoint) : Exchange Controller Unit :=
  Exchange.modifyLink fun controller => endpoints.foldl Controller.disarm controller

def onBusReset (device : Device) : Exchange Controller Device := do
  raisePin device.board.lampPin
  raisePin resetPin
  writeRegister .serialStatus (bit 19)
  let drive ← device.drive.reset
  disarmAll Endpoint.bulk
  writeRegister .deviceAddress 0
  lowerPin resetPin
  return {
    device with
    drive := drive
    newAddress := none
    configured := false
    started := false
    stage := {}
    lineCodingDue := false }

def start (device : Device) : Exchange Controller Device := do
  if device.configured && !device.started then
    armOut .console maxPacket
    armOut .disk maxPacket
    return { device with started := true }
  else
    return device

/-- Sends console input back to where it came from, all of it in one packet. -/
def echo (input : List UInt8) : Exchange Controller Unit := do
  if !input.isEmpty then
    let packet ← Packet.ofBytes input
    let _ ← sendPolling boardEndpoints.consoleIn packet.bytes consoleTries

def announce (drive : Drive boardCapacity) : Exchange Controller Unit := do
  drive.print "\r\nmain.py: "
  drive.print (toString drive.file.size.toNat)
  drive.print " bytes\r\n"

def run (device : Device) : Exchange Controller Device := do
  if device.started then
    let (polled, input) ← device.drive.poll
    echo input.flatten
    let (drive, changed) := polled.takeChanged
    if changed then
      announce drive
    return { device with drive := drive }
  else
    return device

def stepIf {α : Type} (device : Device) (step : Device → α → Exchange Controller Device) :
    Option α → Exchange Controller Device
  | some occasion => step device occasion
  | none => return device

def handle (device : Device) (presented : Presented) : Exchange Controller Device := do
  let places := statusPlaces presented.returned
  let answered ← device.stepIf onSetup presented.setup
  let served ← if places.isEmpty then pure answered else answered.onReturned places
  let settled ← if presented.busReset then served.onBusReset else pure served
  let started ← settled.start
  let done ← started.run
  lowerPin device.board.lampPin
  return done

/-- One turn of the main loop: the controller hands its buffers back, and the device handles what it
finds. -/
def turn (device : Device) (presented : Presented) : Exchange Controller Device := do
  Exchange.modifyLink fun controller => presented.returned.foldl Controller.handBack controller
  device.handle presented

end ScriptDrive.Device
