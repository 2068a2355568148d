import ScriptDrive.Controller.Register

/-!
# Bring-up

What the device does to the registers of its board before it looks for work: the pins that show its
activity, the clocks, and the USB controller with its endpoints.  Each access either stores a value or
changes some bits of the value that is there.
-/

set_option autoImplicit false

namespace ScriptDrive

inductive Board where
  | pico
  | feather
  deriving DecidableEq

def Board.lampPin : Board → Nat
  | .pico => 25
  | .feather => 13

def setupPin : Nat := 0

def bufferPin : Nat := 1

def resetPin : Nat := 2

/-- The pins raised while the control endpoint, the console or the disk is served. -/
def servicePins : List Nat := [3, 4, 5]

def servicePin (endpoint : Endpoint) : Nat :=
  match endpoint with
  | .toHost .control | .fromHost .control => 3
  | .toHost .notify | .toHost .console | .fromHost .console => 4
  | .toHost .disk | .fromHost .disk => 5

inductive Access where
  | store (register : Register) (value : UInt32)
  | change (register : Register) (clear set : UInt32)
  deriving DecidableEq

namespace Access

def register : Access → Register
  | store register _ => register
  | change register _ _ => register

def newValue (old : UInt32) : Access → UInt32
  | store _ value => value
  | change _ clear set => (old &&& ~~~clear) ||| set

end Access

def performAll (contents : Register → UInt32) : List Access → List Write
  | [] => []
  | access :: rest =>
    let value := access.newValue (contents access.register)
    let after := fun register => if register = access.register then value else contents register
    .register access.register value :: performAll after rest

def pinAccesses (board : Board) : List Access :=
  .change .resets (bit 5) 0 ::
    (board.lampPin :: setupPin :: bufferPin :: resetPin :: servicePins).flatMap fun pin =>
      [.store (.pinControl pin) 5, .store .pinEnable (bit pin)]

def pllAccesses (pll : Pll) (resetBit feedback firstDivider secondDivider : Nat) : List Access :=
  [.change .resets (bit resetBit) 0,
    .store (.pllStatus pll) 1,
    .store (.pllFeedback pll) (UInt32.ofNat feedback),
    -- The multiplier and its oscillator are on, its divider still off.
    .store (.pllPower pll) (bit 3 ||| bit 2),
    .store (.pllDividers pll) (UInt32.ofNat (firstDivider <<< 16 + secondDivider <<< 12)),
    .change (.pllPower pll) (bit 3) 0]

/-- Moves the chip from its ring oscillator to the crystal of 12 MHz, runs the core at
12 · 132 / (6 · 2) = 132 MHz, and gives the USB controller its 12 · 100 / (5 · 5) = 48 MHz. -/
def clockAccesses : List Access :=
  [.store .crystalControl 0xFABAA0,
    .store .referenceClock 2,
    .store .ringControl 0xD1EFA4] ++
  pllAccesses .system 12 132 6 2 ++
  [.store .systemClock 0,
    .change .systemClock 0 (bit 0),
    .store .peripheralClock (bit 11)] ++
  pllAccesses .usb 13 100 5 5 ++
  [.store .usbClock (bit 11)]

def endpointWord (endpoint : Endpoint) : UInt32 :=
  bit 31 ||| bit 29 |||
    UInt32.ofNat (endpoint.transferType.toNat <<< 26 + endpoint.bufferOffset)

/-- Resets the USB controller into device mode and sets up its endpoints.  The control endpoint needs no
control word, so the table of them starts behind it. -/
def usbAccesses : List Access :=
  [.change .resets 0 (bit 24),
    .change .resets (bit 24) 0,
    .store .setupLow 0,
    .store .setupHigh 0] ++
  (List.range 30).map (fun index => .store (.endpointControl index) 0) ++
  (List.range 32).map (fun index => .store (.bufferControl index) 0) ++
  [.store .usbMuxing (bit 0 ||| bit 3),
    -- Not every board can sense the bus voltage, so it is taken to be there.
    .store .usbPower (bit 2 ||| bit 3),
    .store .mainControl (bit 0),
    .store .serialControl (bit 29),
    .store .interruptEnable (bit 4 ||| bit 12 ||| bit 16)] ++
  Endpoint.bulk.map fun endpoint =>
    .store (.endpointControl (endpoint.index - 2)) (endpointWord endpoint)

def attachAccesses : List Access :=
  [.change .serialControl 0 (bit 16)]

def bringUpAccesses (board : Board) : List Access :=
  pinAccesses board ++ clockAccesses ++ usbAccesses ++ attachAccesses

def bringUpWrites (board : Board) (resets : UInt32) : List Write :=
  performAll (fun register => if register = .resets then resets else 0) (bringUpAccesses board)

end ScriptDrive
