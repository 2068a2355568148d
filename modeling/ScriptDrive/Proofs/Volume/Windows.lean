import ScriptDrive.Proofs.Volume.Image

/-!
# Cutting a sector into windows

`sectorBytes` says by the number of a sector which 512 bytes it shows, without the regions that a read
looks up, and `image_eq_sectorBytes` says that the image of a sector is just these bytes.  A host may ask
for a sector in parts of any size: `readParts` reads it into buffers that stand one behind the other, and
`readParts_eq`, by induction on the buffers, says that they hold the sector in the end.
-/

set_option autoImplicit false

namespace ScriptDrive.Volume

variable {capacity : Nat}

/-- The bytes of a sector, by its number.  In the data region they are the memory, with zeros past its
end. -/
def sectorBytes (identity : Identity) (file : TrackedFile) (ram : RamDisk capacity)
    (sector : Nat) : List UInt8 :=
  if sector = 0 then
    BootSector.parameters identity ++ List.replicate 448 0 ++ [0x55, 0xAA]
  else if sector = tableStart ∨ sector = tableStart + sectorsPerTable then
    [0xF8, 0xFF, 0xFF, 0xFF, 0xFF, 0xFF] ++ List.replicate 506 0
  else if sector = rootStart then
    (DirEntry.ofFile identity.fileName file).encode ++ List.replicate 480 0
  else if dataStart ≤ sector ∧ sector < totalSectors then
    (List.range 512).map fun byte => ram.bytes.getD (512 * (sector - dataStart) + byte) 0
  else
    List.replicate 512 0

/-- Fills buffers one behind the other with what a host finds in a sector from `offset` on. -/
def readParts (identity : Identity) (file : TrackedFile) (ram : RamDisk capacity) (sector : Nat) :
    Nat → List (List UInt8) → Except Fault (List UInt8)
  | _, [] => .ok []
  | offset, buffer :: rest => do
    let part ← readInto identity file ram sector offset buffer
    let later ← readParts identity file ram sector (offset + buffer.length) rest
    return part ++ later

section Windows

variable (identity : Identity) (file : TrackedFile) (ram : RamDisk capacity)

theorem image_table {sector copy : Nat} (found : Region.of sector = .table copy 0) :
    image identity file ram sector =
      [0xF8, 0xFF, 0xFF, 0xFF, 0xFF, 0xFF] ++ List.replicate 506 0 := by
  simp only [image, found]
  rfl

/-- A sector of the data region is a part of the memory, followed by zeros. -/
theorem image_data {sector : Nat} (behind : dataStart ≤ sector) (inside : sector < totalSectors) :
    image identity file ram sector =
      (List.range 512).map fun byte => ram.bytes.getD (512 * (sector - dataStart) + byte) 0 := by
  have front : dataStart * 512 ≤ 512 * sector := by
    rw [Nat.mul_comm]
    exact Nat.mul_le_mul_left 512 behind
  have back : 512 * sector + 512 ≤ totalSectors * 512 := by
    rw [← Nat.mul_succ, Nat.mul_comm]
    exact Nat.mul_le_mul_right 512 inside
  have place : 512 * sector - dataStart * 512 = 512 * (sector - dataStart) := by
    rw [Nat.mul_comm dataStart, Nat.mul_sub]
  rw [image_eq_stretch, ← place]
  exact stretch_data identity file ram _ _ front back

theorem image_eq_sectorBytes (sector : Nat) :
    image identity file ram sector = sectorBytes identity file ram sector := by
  unfold sectorBytes
  split
  case isTrue boot =>
    simp only [image, Region.of_eq_boot_iff.mpr boot, List.rightpad, BootSector.length_parameters]
    rfl
  split
  case isTrue table =>
    rcases table with first | second
    · have found : Region.of sector = .table 0 0 :=
        Region.of_eq_table_iff.mpr ⟨first, by decide, by decide⟩
      exact image_table identity file ram found
    · have found : Region.of sector = .table 1 0 :=
        Region.of_eq_table_iff.mpr ⟨by rw [second]; rfl, by decide, by decide⟩
      exact image_table identity file ram found
  split
  case isTrue root =>
    have found : Region.of sector = .rootDir 0 :=
      Region.of_eq_rootDir_iff.mpr ⟨root, by decide⟩
    simp only [image, found, List.rightpad, DirEntry.length_encode]
    rfl
  split
  case isTrue data => exact image_data identity file ram data.1 data.2
  case isFalse notBoot notTable notRoot notData =>
    -- The regions that are left show nothing: what is behind the front of a table or of the root
    -- directory, and what is past the volume.
    unfold image
    rcases found : Region.of sector with _ | ⟨copy, _ | index⟩ | ⟨_ | index⟩ | index | _
    · exact absurd (Region.of_eq_boot_iff.mp found) notBoot
    · obtain ⟨place, few, _⟩ := Region.of_eq_table_iff.mp found
      grind [tableCopies, sectorsPerTable]
    · rfl
    · exact absurd (Region.of_eq_rootDir_iff.mp found).1 notRoot
    · rfl
    · obtain ⟨place, inside⟩ := Region.of_eq_data_iff.mp found
      exact absurd ⟨by omega, inside⟩ notData
    · rfl

theorem readParts_eq {sector offset : Nat} {buffers : List (List UInt8)}
    (inside : offset + buffers.flatten.length ≤ sectorSize) :
    readParts identity file ram sector offset buffers =
      .ok (((image identity file ram sector).drop offset).take buffers.flatten.length) := by
  induction buffers generalizing offset with
  | nil => rfl
  | cons buffer rest restInduction =>
    rw [List.flatten_cons, List.length_append] at inside ⊢
    simp only [readParts, readInto_eq_window identity file ram
      (show offset + buffer.length ≤ sectorSize by omega), bind, Except.bind]
    rw [restInduction (by omega), List.take_add, List.drop_drop]
    rfl

/-- Every window of the volume is a part of one image: reading into any buffer that stays inside a sector
gives the bytes of that sector from the offset on, whatever the buffer held before, and a sector read in
parts, however it is cut, is the sector. -/
theorem windows_of_one_image (sector : Nat) :
    (∀ (offset : Nat) (buffer : List UInt8), offset + buffer.length ≤ sectorSize →
      readInto identity file ram sector offset buffer =
        .ok (((sectorBytes identity file ram sector).drop offset).take buffer.length)) ∧
      ∀ buffers : List (List UInt8), buffers.flatten.length = sectorSize →
        readParts identity file ram sector 0 buffers =
          .ok (sectorBytes identity file ram sector) := by
  rw [← image_eq_sectorBytes]
  constructor
  · intro offset buffer inside
    exact readInto_eq_window identity file ram inside
  · intro buffers whole
    rw [readParts_eq identity file ram (by omega), whole, List.drop_zero,
      List.take_of_length_le (Nat.le_of_eq (length_image ..))]

end Windows

/-- The boot sector cut in two just before its closing mark, and a window in which a memory of 600 bytes
ends. -/
theorem windows_of_one_image_at_edges :
    ∃ (file : TrackedFile) (ram : RamDisk 600), ram.bytes = List.replicate 600 7 ∧
      readInto {} file ram 0 509 [1, 2, 3] = .ok [0, 0x55, 0xAA] ∧
      readParts {} file ram 0 0 [List.replicate 509 1, [1, 2, 3]] =
        .ok (sectorBytes {} file ram 0) ∧
      readInto {} file ram 66 86 [1, 2, 3, 4] = .ok [7, 7, 0, 0] := by
  let ram : RamDisk 600 := ⟨List.replicate 600 7, List.length_replicate .., by decide⟩
  obtain ⟨windows, parts⟩ := windows_of_one_image {} {} ram 0
  obtain ⟨inMemory, _⟩ := windows_of_one_image {} {} ram 66
  refine ⟨{}, ram, rfl, ?_, ?_, ?_⟩
  · exact (windows 509 [1, 2, 3] (by decide)).trans (congrArg Except.ok (by decide +kernel))
  · exact parts [List.replicate 509 1, [1, 2, 3]] (by decide +kernel)
  · exact (inMemory 86 [1, 2, 3, 4] (by decide)).trans (congrArg Except.ok (by decide +kernel))

end ScriptDrive.Volume
