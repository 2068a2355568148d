import ScriptDrive.Bytes

/-!
# SCSI commands

A command block of 16 bytes starts with an operation code.  Reads and writes also carry a first block
and a count of blocks, both big-endian; every other command depends on its operation code alone.
-/

set_option autoImplicit false

namespace ScriptDrive.Scsi

inductive Opcode where
  | testUnitReady
  | requestSense
  | inquiry
  | modeSense6
  | preventAllowMediumRemoval
  | readCapacity10
  | read10
  | write10
  | modeSense10
  deriving DecidableEq

def Opcode.ofCode? : Nat → Option Opcode
  | 0x00 => some .testUnitReady
  | 0x03 => some .requestSense
  | 0x12 => some .inquiry
  | 0x1A => some .modeSense6
  | 0x1E => some .preventAllowMediumRemoval
  | 0x25 => some .readCapacity10
  | 0x28 => some .read10
  | 0x2A => some .write10
  | 0x5A => some .modeSense10
  | _ => none

inductive Command where
  | testUnitReady
  | preventAllowMediumRemoval
  | requestSense
  | inquiry
  | readCapacity10
  | modeSense6
  | modeSense10
  | read10 (lba : UInt32) (blocks : UInt16)
  | write10 (lba : UInt32) (blocks : UInt16)
  | unknown (opcode : UInt8)
  deriving DecidableEq

inductive DataPhase where
  | none
  /-- One answer of at most `length` bytes goes to the host. -/
  | fixed (length : Nat)
  /-- Blocks of the volume go to the host. -/
  | stream
  /-- Blocks come from the host. -/
  | receive
  deriving DecidableEq

namespace Command

def parse (block : Octets 16) : Command :=
  let opcode := block.byteAt 0 (by decide)
  let lba := bigWord32 block.bytes 2
  let blocks := bigWord16 block.bytes 7
  match Opcode.ofCode? opcode.toNat with
  | some .testUnitReady => .testUnitReady
  | some .requestSense => .requestSense
  | some .inquiry => .inquiry
  | some .modeSense6 => .modeSense6
  | some .preventAllowMediumRemoval => .preventAllowMediumRemoval
  | some .readCapacity10 => .readCapacity10
  | some .read10 => .read10 lba blocks
  | some .write10 => .write10 lba blocks
  | some .modeSense10 => .modeSense10
  | none => .unknown opcode

def dataPhase : Command → DataPhase
  | .requestSense => .fixed 18
  | .inquiry => .fixed 36
  | .readCapacity10 => .fixed 8
  | .modeSense6 => .fixed 4
  | .modeSense10 => .fixed 8
  | .read10 _ _ => .stream
  | .write10 _ _ => .receive
  | .testUnitReady | .preventAllowMediumRemoval | .unknown _ => .none

def blockText (name : String) (lba : UInt32) (blocks : UInt16) : String :=
  name ++ " \x7b lba: " ++ toString lba.toNat ++ ", blocks: " ++ toString blocks.toNat ++ " \x7d"

def text : Command → String
  | .testUnitReady => "TestUnitReady"
  | .preventAllowMediumRemoval => "PreventAllowMediumRemoval"
  | .requestSense => "RequestSense"
  | .inquiry => "Inquiry"
  | .readCapacity10 => "ReadCapacity10"
  | .modeSense6 => "ModeSense6"
  | .modeSense10 => "ModeSense10"
  | .read10 lba blocks => blockText "Read10" lba blocks
  | .write10 lba blocks => blockText "Write10" lba blocks
  | .unknown opcode => "Unknown \x7b opcode: " ++ toString opcode.toNat ++ " \x7d"

end Command

end ScriptDrive.Scsi
