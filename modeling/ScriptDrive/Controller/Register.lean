import ScriptDrive.Controller.Endpoint
import ScriptDrive.Link

/-!
# Registers and writes to them

The registers of the board that the device writes, under their names in the chip's manual; the control
word of an endpoint's buffer, field by field; and a write, which is what an onlooker at the registers
sees.
-/

set_option autoImplicit false

namespace ScriptDrive

inductive Pll where
  | system
  | usb
  deriving DecidableEq

inductive Register where
  | resets
  /-- What a pin is connected to. -/
  | pinControl (pin : Nat)
  | pinEnable
  | pinRaise
  | pinLower
  | crystalControl
  | ringControl
  | referenceClock
  | systemClock
  | peripheralClock
  | usbClock
  | pllStatus (pll : Pll)
  | pllFeedback (pll : Pll)
  | pllPower (pll : Pll)
  | pllDividers (pll : Pll)
  | usbMuxing
  | usbPower
  | mainControl
  | serialControl
  | serialStatus
  | interruptEnable
  | bufferStatus
  | deviceAddress
  | stallArm
  | setupLow
  | setupHigh
  | endpointControl (index : Nat)
  | bufferControl (index : Nat)
  deriving DecidableEq

def Pll.name : Pll → String
  | .system => "PLL_SYS"
  | .usb => "PLL_USB"

def Register.name : Register → String
  | resets => "RESET"
  | pinControl pin => s!"GPIO{pin}_CTRL"
  | pinEnable => "GPIO_OE_SET"
  | pinRaise => "GPIO_OUT_SET"
  | pinLower => "GPIO_OUT_CLR"
  | crystalControl => "XOSC_CTRL"
  | ringControl => "ROSC_CTRL"
  | referenceClock => "CLK_REF_CTRL"
  | systemClock => "CLK_SYS_CTRL"
  | peripheralClock => "CLK_PERI_CTRL"
  | usbClock => "CLK_USB_CTRL"
  | pllStatus pll => pll.name ++ "_CS"
  | pllFeedback pll => pll.name ++ "_FBDIV_INT"
  | pllPower pll => pll.name ++ "_PWR"
  | pllDividers pll => pll.name ++ "_PRIM"
  | usbMuxing => "USB_MUXING"
  | usbPower => "USB_PWR"
  | mainControl => "MAIN_CTRL"
  | serialControl => "SIE_CTRL"
  | serialStatus => "SIE_STATUS"
  | interruptEnable => "INTE"
  | bufferStatus => "BUFF_STATUS"
  | deviceAddress => "ADDR_ENDP"
  | stallArm => "EP_STALL_ARM"
  | setupLow => "SETUP_PACKET_LOW"
  | setupHigh => "SETUP_PACKET_HIGH"
  | endpointControl index => s!"EP_CONTROL[{index}]"
  | bufferControl index => s!"EP_BUFFER_CONTROL[{index}]"

def bit (position : Nat) : UInt32 :=
  UInt32.ofNat (1 <<< position)

structure BufferControl where
  full : Bool := false
  /-- The packet is of the odd kind, DATA1. -/
  data1 : Bool := false
  stall : Bool := false
  available : Bool := false
  length : Nat := 0
  deriving DecidableEq

namespace BufferControl

def word (control : BufferControl) : UInt32 :=
  UInt32.ofNat (control.full.toNat <<< 15 + control.data1.toNat <<< 13 +
    control.stall.toNat <<< 11 + control.available.toNat <<< 10 + control.length % 1 <<< 10)

end BufferControl

inductive Write where
  | register (register : Register) (value : UInt32)
  | buffer (endpoint : Endpoint) (control : BufferControl) (packet : Option Packet)
  deriving DecidableEq

namespace Write

def target : Write → Register
  | register target _ => target
  | buffer endpoint _ _ => .bufferControl endpoint.index

def value : Write → UInt32
  | register _ value => value
  | buffer _ control _ => control.word

def packet? : Write → Option Packet
  | register .. => none
  | buffer _ _ packet => packet

end Write

end ScriptDrive
