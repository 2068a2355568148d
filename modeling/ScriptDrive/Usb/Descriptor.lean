import ScriptDrive.Controller.Endpoint
import ScriptDrive.Link
import ScriptDrive.Usb.Setup

/-!
# Descriptors

What the device tells a host about itself: one device with a serial console, made of two interfaces, and
a mass storage interface.  Each descriptor is a run of bytes that begins with its own length and type.
-/

set_option autoImplicit false

namespace ScriptDrive.Descriptor

def consoleControlInterface : UInt8 := 0

def consoleDataInterface : UInt8 := 1

def framed (type : UInt8) (body : List UInt8) : List UInt8 :=
  UInt8.ofNat (body.length + 2) :: type :: body

def interface (number endpoints function subclass protocol : UInt8) : List UInt8 :=
  framed 0x04 [number, 0, endpoints, function, subclass, protocol, 0]

def endpoint (endpoint : Endpoint) (interval : UInt8) : List UInt8 :=
  framed 0x05 ([endpoint.address, endpoint.transferType] ++ littleEndian 2 maxPacket ++ [interval])

def consoleClass (body : List UInt8) : List UInt8 :=
  framed 0x24 body

/-- The description of the device: USB 2.0, functions grouped by association, vendor 0, product 1,
release 1.00, texts 1 and 2 for its vendor and product, one configuration. -/
def device : List UInt8 :=
  framed 0x01 (littleEndian 2 0x0200 ++ [0xEF, 0x02, 0x01, UInt8.ofNat maxPacket] ++
    littleEndian 2 0 ++ littleEndian 2 1 ++ littleEndian 2 0x0100 ++ [1, 2, 0, 1])

def interfaces : List UInt8 :=
  -- The first two interfaces make up one function, a modem without commands.
  framed 0x0B [consoleControlInterface, 2, 0x02, 0x02, 0x00, 0] ++
  interface consoleControlInterface 1 0x02 0x02 0x00 ++
  consoleClass (0x00 :: littleEndian 2 0x0110) ++
  consoleClass [0x01, 0x00, consoleDataInterface] ++
  consoleClass [0x02, 0x02] ++
  consoleClass [0x06, consoleControlInterface, consoleDataInterface] ++
  endpoint (.toHost .notify) 16 ++
  interface consoleDataInterface 2 0x0A 0x00 0x00 ++
  endpoint (.fromHost .console) 0 ++
  endpoint (.toHost .console) 0 ++
  -- Transparent SCSI commands over bulk-only transport.
  interface diskInterface 2 0x08 0x06 0x50 ++
  endpoint (.toHost .disk) 0 ++
  endpoint (.fromHost .disk) 0

/-- The description of the one configuration with all that belongs to it: three interfaces, powered by
the bus with at most 100 mA. -/
def configuration : List UInt8 :=
  framed 0x02 (littleEndian 2 (9 + interfaces.length) ++ [3, 1, 0, 0x80, 50]) ++ interfaces

/-- The list of languages, which is English of the United States. -/
def languages : List UInt8 :=
  framed 0x03 (littleEndian 2 0x0409)

def trimmed (text : List UInt8) : List UInt8 :=
  (text.reverse.dropWhile (· == 0x20)).reverse

/-- The description of a text padded with spaces, in characters of two bytes, cut to one packet. -/
def ofText (text : List UInt8) : List UInt8 :=
  framed 0x03 ((trimmed text).take 31 |>.flatMap fun character => [character, 0])

theorem length_device : device.length = 18 := by
  decide

theorem length_configuration : configuration.length = 98 := by
  decide

end ScriptDrive.Descriptor
