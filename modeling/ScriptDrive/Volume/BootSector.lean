import ScriptDrive.Geometry
import ScriptDrive.Identity

/-!
# The boot sector

The 62 bytes at the front of the volume that tell a host its geometry and its name, and the two bytes
that close the sector.
-/

set_option autoImplicit false

namespace ScriptDrive.BootSector

def closingOffset : Nat := 510

def closing : List UInt8 := [0x55, 0xAA]

/-- The parameter block of a drive, from the jump at its front to the name of the file system. -/
def parameters (identity : Identity) : List UInt8 :=
  [0xEB, 0x3C, 0x90] ++ identity.formatter.bytes ++
    littleEndian 2 sectorSize ++ [UInt8.ofNat sectorsPerCluster] ++
    littleEndian 2 reservedSectors ++ [UInt8.ofNat tableCopies] ++
    littleEndian 2 rootEntries ++ littleEndian 2 totalSectors ++ [mediaDescriptor] ++
    littleEndian 2 sectorsPerTable ++
    -- 63 sectors in a track, 255 heads, nothing hidden; the wide sector count is not used.
    littleEndian 2 63 ++ littleEndian 2 255 ++ littleEndian 4 0 ++ littleEndian 4 0 ++
    -- The first fixed drive; serial, label and file system follow.
    [0x80, 0, 0x29] ++ littleEndian 4 identity.volumeSerial.toNat ++
    identity.volumeLabel.bytes ++ ascii "FAT16   "

@[simp] theorem length_parameters (identity : Identity) : (parameters identity).length = 62 := by
  have system : (ascii "FAT16   ").length = 8 := by decide
  unfold parameters
  repeat rw [List.length_append]
  repeat rw [length_littleEndian]
  rw [identity.formatter.length_bytes, identity.volumeLabel.length_bytes, system]
  rfl

end ScriptDrive.BootSector
