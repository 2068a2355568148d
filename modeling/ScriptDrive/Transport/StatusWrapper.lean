import ScriptDrive.Transport.CommandWrapper

/-!
# Status wrappers

A bulk-only command is answered by a packet of 13 bytes: a signature, the tag of the command, the
number of bytes that did not move, and the outcome.
-/

set_option autoImplicit false

namespace ScriptDrive

inductive CommandOutcome where
  | passed
  | failed
  /-- The host and the command block disagreed on the data phase. -/
  | phaseError
  deriving DecidableEq

namespace CommandOutcome

def code : CommandOutcome → UInt8
  | .passed => 0
  | .failed => 1
  | .phaseError => 2

theorem code_injective {left right : CommandOutcome} (same : left.code = right.code) :
    left = right := by
  cases left <;> cases right <;> simp_all [code]

end CommandOutcome

structure StatusWrapper where
  tag : UInt32 := 0
  /-- The bytes the host asked to move less the bytes that moved. -/
  residue : UInt32 := 0
  outcome : CommandOutcome := .passed
  deriving DecidableEq

namespace StatusWrapper

def size : Nat := 13

/-- The letters `USBS`, read as a little-endian word. -/
def signature : UInt32 := 0x53425355

/-- The status a command starts with: passed, with nothing left over. -/
def forCommand (command : CommandWrapper) : StatusWrapper :=
  { tag := command.tag }

def encode (status : StatusWrapper) : List UInt8 :=
  littleEndian 4 signature.toNat ++ littleEndian 4 status.tag.toNat ++
    littleEndian 4 status.residue.toNat ++ [status.outcome.code]

@[simp] theorem length_encode (status : StatusWrapper) : status.encode.length = size := by
  simp [encode, size]

end StatusWrapper

end ScriptDrive
