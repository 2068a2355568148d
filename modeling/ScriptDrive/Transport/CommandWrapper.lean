import ScriptDrive.Bytes

/-!
# Command wrappers

A bulk-only command arrives in one packet of 31 bytes: a signature, a tag that the answer carries back,
the number of bytes the host is ready to move, and a command block of 16 bytes.  Only the length and
the signature are checked, the length first.
-/

set_option autoImplicit false

namespace ScriptDrive

structure CommandWrapper where
  tag : UInt32
  /-- How many bytes the host expects to move. -/
  requested : UInt32
  flags : UInt8
  lun : UInt8
  /-- How much of the command block the host calls valid. -/
  blockLength : UInt8
  block : Octets 16
  deriving DecidableEq

namespace CommandWrapper

def size : Nat := 31

/-- The letters `USBC`, read as a little-endian word. -/
def signature : UInt32 := 0x43425355

inductive DecodeError where
  | length (bytes : Nat)
  | signature (found : UInt32)
  deriving DecidableEq

def DecodeError.message : DecodeError → String
  | .length bytes => s!"CBW must be 31 bytes, got {bytes}"
  | .signature found => "bad CBW signature 0x" ++ hexadecimal 8 found.toNat

def decode (packet : List UInt8) : Except DecodeError CommandWrapper :=
  if sized : packet.length = size then
    if littleWord32 packet 0 = signature then
      .ok {
        tag := littleWord32 packet 4
        requested := littleWord32 packet 8
        flags := packet.get ⟨12, by rw [sized]; decide⟩
        lun := packet.get ⟨13, by rw [sized]; decide⟩
        blockLength := packet.get ⟨14, by rw [sized]; decide⟩
        block := Octets.part packet 15 16 (by rw [sized]; decide) }
    else
      .error (.signature (littleWord32 packet 0))
  else
    .error (.length packet.length)

def encode (wrapper : CommandWrapper) : List UInt8 :=
  littleEndian 4 signature.toNat ++ littleEndian 4 wrapper.tag.toNat ++
    littleEndian 4 wrapper.requested.toNat ++
    [wrapper.flags, wrapper.lun, wrapper.blockLength] ++ wrapper.block.bytes

def isDataIn (wrapper : CommandWrapper) : Bool :=
  wrapper.flags &&& 0x80 != 0

@[simp] theorem length_encode (wrapper : CommandWrapper) : wrapper.encode.length = size := by
  simp [encode, size, wrapper.block.length_bytes]

theorem decode_eq_length_error_iff {packet : List UInt8} {bytes : Nat} :
    decode packet = .error (.length bytes) ↔ packet.length ≠ size ∧ bytes = packet.length := by
  unfold decode
  split
  · split <;> simp_all
  · simp_all [eq_comm]

end CommandWrapper

end ScriptDrive
