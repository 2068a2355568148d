import ScriptDrive.Geometry
import ScriptDrive.Scsi.Command
import ScriptDrive.Transport.CommandWrapper

/-!
# Packets a host sends

A command wrapper is read back as it was written, and so is the block of a command that moves blocks.
With the two, `reading` and `writing` give the packets of a host that reads or writes a run of blocks.
-/

set_option autoImplicit false

namespace ScriptDrive

open Scsi (Command)

namespace CommandWrapper

theorem drop_encode (wrapper : CommandWrapper) :
    wrapper.encode.drop 4 = littleEndian 4 wrapper.tag.toNat ++
      (littleEndian 4 wrapper.requested.toNat ++
        ([wrapper.flags, wrapper.lun, wrapper.blockLength] ++ wrapper.block.bytes)) := by
  simp only [encode, List.append_assoc]
  exact List.drop_left' (length_littleEndian 4 _)

theorem drop_encode_requested (wrapper : CommandWrapper) :
    wrapper.encode.drop 8 = littleEndian 4 wrapper.requested.toNat ++
      ([wrapper.flags, wrapper.lun, wrapper.blockLength] ++ wrapper.block.bytes) := by
  have split : wrapper.encode.drop 8 = (wrapper.encode.drop 4).drop 4 := by
    rw [List.drop_drop]
  rw [split, drop_encode]
  exact List.drop_left' (length_littleEndian 4 _)

theorem drop_encode_flags (wrapper : CommandWrapper) :
    wrapper.encode.drop 12 =
      [wrapper.flags, wrapper.lun, wrapper.blockLength] ++ wrapper.block.bytes := by
  have split : wrapper.encode.drop 12 = (wrapper.encode.drop 8).drop 4 := by
    rw [List.drop_drop]
  rw [split, drop_encode_requested]
  exact List.drop_left' (length_littleEndian 4 _)

/-- Every wrapper is read back from its packet. -/
theorem decode_encode (wrapper : CommandWrapper) : decode wrapper.encode = .ok wrapper := by
  have signed : littleWord32 wrapper.encode 0 = signature := by
    refine littleWord32_of_drop (wrapper.encode.drop 4) ?_
    rw [drop_encode]
    simp only [encode, List.append_assoc, List.drop_zero]
  have tag : littleWord32 wrapper.encode 4 = wrapper.tag :=
    littleWord32_of_drop _ wrapper.drop_encode
  have requested : littleWord32 wrapper.encode 8 = wrapper.requested :=
    littleWord32_of_drop _ wrapper.drop_encode_requested
  have block : Octets.part wrapper.encode 15 16 (by rw [length_encode]; decide) =
      wrapper.block := by
    have split : wrapper.encode.drop 15 = (wrapper.encode.drop 12).drop 3 := by
      rw [List.drop_drop]
    apply Octets.ext
    simp only [Octets.part, split, drop_encode_flags]
    exact List.take_of_length_le (Nat.le_of_eq wrapper.block.length_bytes)
  unfold decode
  rw [dif_pos wrapper.length_encode, if_pos signed, tag, requested]
  -- The three single bytes stand at fixed places, so they are found by computing.
  congr 2

def carrying (tag requested : UInt32) (flags : UInt8) (block : Octets 16) : CommandWrapper where
  tag := tag
  requested := requested
  flags := flags
  lun := 0
  blockLength := 10
  block := block

end CommandWrapper

namespace Scsi

def runBlock (code : UInt8) (lba : UInt32) (blocks : UInt16) : Octets 16 where
  bytes := [code, 0] ++ bigEndian 4 lba.toNat ++ [0] ++ bigEndian 2 blocks.toNat ++
    List.replicate 7 0
  length_bytes := by simp

theorem bigWord32_runBlock (code : UInt8) (lba : UInt32) (blocks : UInt16) :
    bigWord32 (runBlock code lba blocks).bytes 2 = lba := by
  have found : (runBlock code lba blocks).bytes.drop 2 =
      bigEndian 4 lba.toNat ++ ([0] ++ (bigEndian 2 blocks.toNat ++ List.replicate 7 0)) := by
    simp [runBlock]
  rw [bigWord32, found, List.take_left' (length_bigEndian 4 _), bigEndianValue_bigEndian]
  exact UInt32.toNat_inj.mp (by simp)

theorem bigWord16_runBlock (code : UInt8) (lba : UInt32) (blocks : UInt16) :
    bigWord16 (runBlock code lba blocks).bytes 7 = blocks := by
  have front : ([code, 0] ++ bigEndian 4 lba.toNat ++ [0]).length = 7 := by simp
  have found : (runBlock code lba blocks).bytes.drop 7 =
      bigEndian 2 blocks.toNat ++ List.replicate 7 0 := by
    simp only [runBlock, List.append_assoc] at front ⊢
    simp only [← List.append_assoc] at front ⊢
    rw [List.append_assoc _ (bigEndian 2 _)]
    exact List.drop_left' front
  rw [bigWord16, found, List.take_left' (length_bigEndian 2 _), bigEndianValue_bigEndian]
  exact UInt16.toNat_inj.mp (by simp)

theorem parse_runBlock_reading (lba : UInt32) (blocks : UInt16) :
    Command.parse (runBlock 0x28 lba blocks) = .read10 lba blocks := by
  unfold Command.parse
  rw [bigWord32_runBlock, bigWord16_runBlock]
  rfl

end Scsi

namespace CommandWrapper

def reading (tag lba : UInt32) (blocks : UInt16) : CommandWrapper :=
  carrying tag (UInt32.ofNat (sectorSize * blocks.toNat)) 0x80 (Scsi.runBlock 0x28 lba blocks)

def writing (tag lba : UInt32) (blocks : UInt16) : CommandWrapper :=
  carrying tag (UInt32.ofNat (sectorSize * blocks.toNat)) 0 (Scsi.runBlock 0x2A lba blocks)

theorem requested_of_blocks (blocks : UInt16) :
    (UInt32.ofNat (sectorSize * blocks.toNat)).toNat = sectorSize * blocks.toNat := by
  have small := blocks.toNat_lt
  exact UInt32.toNat_ofNat_of_lt' (by simp only [sectorSize, UInt32.size]; omega)

end CommandWrapper

end ScriptDrive
