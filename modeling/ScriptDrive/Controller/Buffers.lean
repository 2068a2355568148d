import ScriptDrive.Controller.BringUp
import ScriptDrive.Exchange

/-!
# The controller and its packet buffers

For each endpoint the controller keeps a control word and the device the kind of its next packet; the
packets lie in buffers of 64 bytes.  A buffer belongs to the controller from the moment it is armed until
the controller hands it back.  `Controller` also remembers every register write made so far, in order.

To the rest of the device the controller is a `Link`: it takes a packet for an endpoint whose buffer it
does not hold.
-/

set_option autoImplicit false

namespace ScriptDrive

structure Slot where
  control : BufferControl := {}
  /-- The next packet is of the odd kind, DATA1. -/
  nextData1 : Bool := false
  deriving DecidableEq

structure Controller where
  slot : Endpoint → Slot
  /-- The packet buffer that begins at a place of the controller's memory. -/
  memory : Nat → Octets 64
  writes : List Write

structure Returned where
  /-- The endpoint address: its number, with the top bit set towards the host. -/
  address : UInt8
  data : List UInt8 := []
  length : Nat := 0
  /-- The controller keeps the buffer all the same. -/
  stuck : Bool := false
  deriving DecidableEq

def Returned.index (returned : Returned) : Nat :=
  2 * (returned.address.toNat % 16) + if returned.address < 0x80 then 1 else 0

namespace Controller

def powerUp (writes : List Write) : Controller where
  slot _ := {}
  memory _ := .zeros 64
  writes := writes

def write (controller : Controller) (made : Write) : Controller :=
  { controller with writes := controller.writes ++ [made] }

def setSlot (controller : Controller) (endpoint : Endpoint) (slot : Slot) : Controller :=
  { controller with
    slot := fun other => if other = endpoint then slot else controller.slot other }

def setNext (controller : Controller) (endpoint : Endpoint) (data1 : Bool) : Controller :=
  controller.setSlot endpoint { controller.slot endpoint with nextData1 := data1 }

def setControl (controller : Controller) (endpoint : Endpoint) (control : BufferControl)
    (packet : Option Packet) : Controller :=
  (controller.setSlot endpoint { controller.slot endpoint with control := control }).write
    (.buffer endpoint control packet)

def fill (controller : Controller) (endpoint : Endpoint) (bytes : List UInt8) : Controller :=
  let old := controller.memory endpoint.bufferOffset
  let new : Octets 64 :=
    ⟨bytes.take 64 ++ old.bytes.drop (bytes.take 64).length, by
      simp only [List.length_append, List.length_take, List.length_drop, old.length_bytes]
      omega⟩
  { controller with
    memory := fun place => if place = endpoint.bufferOffset then new else controller.memory place }

def armIn (controller : Controller) (endpoint : InEndpoint) (packet : Packet) : Controller :=
  let data1 := (controller.slot (.toHost endpoint)).nextData1
  let control : BufferControl :=
    { full := true, data1 := data1, available := true, length := packet.bytes.length }
  ((controller.fill (.toHost endpoint) packet.bytes).setControl (.toHost endpoint) control
    (some packet)).setNext (.toHost endpoint) !data1

def armOut (controller : Controller) (endpoint : OutEndpoint) (length : Nat) : Controller :=
  let data1 := (controller.slot (.fromHost endpoint)).nextData1
  let control : BufferControl := { data1 := data1, available := true, length := length }
  (controller.setControl (.fromHost endpoint) control none).setNext (.fromHost endpoint) !data1

def stallControl (controller : Controller) : Controller :=
  let refused : BufferControl := { stall := true }
  ((controller.write (.register .stallArm 3)).setControl (.toHost .control) refused none).setControl
    (.fromHost .control) refused none

def disarm (controller : Controller) (endpoint : Endpoint) : Controller :=
  (controller.setNext endpoint false).setControl endpoint {} none

def holds (controller : Controller) (endpoint : Endpoint) : Bool :=
  (controller.slot endpoint).control.available

def received (controller : Controller) (endpoint : Endpoint) : List UInt8 :=
  (controller.memory endpoint.bufferOffset).bytes.take
    (min (controller.slot endpoint).control.length maxPacket)

/-- Offers bytes to the endpoint with a number.  They are refused when there is none, and while the
controller holds the buffer.  A buffer has room for one packet, and the controller takes no more. -/
def offer (number : UInt8) (bytes : List UInt8) (controller : Controller) :
    Option Busy × Controller :=
  match InEndpoint.ofNumber? number with
  | none => (some ⟨number⟩, controller)
  | some endpoint =>
    if controller.holds (.toHost endpoint) then
      (some ⟨number⟩, controller)
    else
      (none, controller.armIn endpoint (.front bytes))

instance : Link Controller where
  offer := offer

/-- The controller hands a buffer back.  From the host, it comes with what the host sent. -/
def handBack (controller : Controller) (returned : Returned) : Controller :=
  match Endpoint.ofIndex? returned.index with
  | none => controller
  | some endpoint =>
    let slot := controller.slot endpoint
    let available := slot.control.available && returned.stuck
    match endpoint with
    | .toHost _ =>
      controller.setSlot endpoint { slot with control := { slot.control with available := available } }
    | .fromHost _ =>
      (controller.fill endpoint returned.data).setSlot endpoint {
        slot with
        control := { slot.control with available := available, length := returned.length % 1 <<< 10 } }

@[simp] theorem slot_setSlot_same (controller : Controller) (endpoint : Endpoint) (slot : Slot) :
    (controller.setSlot endpoint slot).slot endpoint = slot := by
  simp [setSlot]

theorem slot_setSlot_of_ne (controller : Controller) {endpoint other : Endpoint} (slot : Slot)
    (different : other ≠ endpoint) :
    (controller.setSlot endpoint slot).slot other = controller.slot other := by
  simp [setSlot, different]

@[simp] theorem slot_write (controller : Controller) (made : Write) :
    (controller.write made).slot = controller.slot := rfl

@[simp] theorem slot_fill (controller : Controller) (endpoint : Endpoint) (bytes : List UInt8) :
    (controller.fill endpoint bytes).slot = controller.slot := rfl

end Controller

end ScriptDrive
