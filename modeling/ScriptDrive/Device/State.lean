import ScriptDrive.Controller.Buffers
import ScriptDrive.Drive
import ScriptDrive.Usb.Setup

/-!
# The state of the device

What the device remembers between two turns of its main loop: the drive, the address and configuration
the host gave it, and what is left of a control transfer.
-/

set_option autoImplicit false

namespace ScriptDrive

def boardCapacity : Nat := 2048

def firstScript : List UInt8 :=
  ascii ("from machine import Pin\nfrom time import sleep\nled = Pin(25, Pin.OUT)\nwhile True:\n" ++
    "    led.on()\n    sleep(.3)\n    led.off()\n    sleep(.3)\n")

def boardIdentity : Identity := { contents := firstScript }

structure DataStage where
  rest : List UInt8 := []
  /-- The data ends on a full packet short of what the host asked for, so that an empty packet has to
  follow. -/
  emptyDue : Bool := false
  deriving DecidableEq

namespace DataStage

def opening (data : List UInt8) (requested : Nat) : DataStage :=
  let cut := data.take requested
  { rest := cut, emptyDue := cut.length < requested && cut.length % maxPacket == 0 }

def next? (stage : DataStage) : Option (Packet × DataStage) :=
  if stage.rest.isEmpty then
    if stage.emptyDue then some (.empty, { stage with emptyDue := false }) else none
  else
    some (.front stage.rest, { stage with rest := stage.rest.drop maxPacket })

end DataStage

/-- Serial settings: the rate, then stop bits, parity and data bits. -/
abbrev LineCoding : Type := Octets 7

/-- 115200 bits per second, one stop bit, no parity, eight data bits. -/
def defaultLineCoding : LineCoding :=
  ⟨littleEndian 4 115200 ++ [0, 0, 8], by decide⟩

/-- What the device remembers between two turns. -/
structure Device where
  board : Board
  drive : Drive boardCapacity
  /-- The address to take once the host has collected the acknowledgement of it. -/
  newAddress : Option UInt8 := none
  configured : Bool := false
  /-- The endpoints that take from the host have been armed since the device was configured. -/
  started : Bool := false
  stage : DataStage := {}
  /-- The next packet on the control endpoint brings serial settings. -/
  lineCodingDue : Bool := false
  lineCoding : LineCoding := defaultLineCoding
  deriving DecidableEq

/-- What the device sees of the controller when a turn begins. -/
structure Presented where
  setup : Option (Octets 8) := none
  returned : List Returned := []
  busReset : Bool := false
  deriving DecidableEq

namespace Device

def powerUp (board : Board) : Except Fault Device := do
  let drive ← Drive.powerUp boardIdentity (show boardCapacity ≤ clusterSize by decide)
  return { board := board, drive := drive }

end Device

end ScriptDrive
