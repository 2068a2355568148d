import ScriptDrive.Proofs.Volume.Directory
import ScriptDrive.Proofs.Volume.Image
import ScriptDrive.Proofs.Volume.Walk

/-!
# Writing back what the volume shows

What a sector up to the end of the first data cluster shows can be written back to it without a trace.
`walk_image` goes through the parts of the volume: in front of the root directory nothing is kept, the
directory shows the one entry that the file already agrees with, and the first cluster shows the memory
itself.  `walk_images` puts sectors one behind the other.
-/

set_option autoImplicit false

namespace ScriptDrive.Volume

variable {capacity : Nat}

/-- Bytes laid over themselves change nothing, whatever is laid beyond the end. -/
theorem overwrite_same {memory bytes : List UInt8} {start : Nat}
    (same : ∀ index, index < bytes.length → start + index < memory.length →
      bytes[index]? = memory[start + index]?) : overwrite memory start bytes = memory := by
  apply List.ext_getElem?
  intro place
  rw [getElem?_overwrite]
  split
  · rename_i inside
    obtain ⟨behind, before, held⟩ := inside
    have byte := same (place - start) (by omega) (by omega)
    rw [Nat.add_sub_cancel' behind] at byte
    exact byte
  · rfl

section WriteBack

variable (identity : Identity) {file : TrackedFile} (ram : RamDisk capacity)

/-- The entry that the volume shows leaves a file as it is whose length it gives in full. -/
theorem snoop_shown (name : Octets 11) {room : Nat} (small : room < 1 <<< 32)
    (fits : file.size.toNat ≤ room) (homed : file.cluster = firstDataCluster) (count : Nat) :
    (snoop name room file
      (slots ((DirEntry.ofFile name file.rehome).encode ++ List.replicate count 0))).1 = file := by
  have length : min file.size (UInt32.ofNat room) = file.size := by
    have le : file.size ≤ UInt32.ofNat room := by
      rw [UInt32.le_iff_toNat_le, UInt32.toNat_ofNat_of_lt' small]
      exact fits
    exact if_pos le
  rw [snoop_eq_foldl, placings_entry]
  split
  · have placed : firstDataCluster = file.cluster := homed.symm
    simp only [List.foldl_cons, List.foldl_nil, DirEntry.ofFile, TrackedFile.cluster_rehome,
      TrackedFile.size_rehome, length, placed, TrackedFile.relocate_same]
  · rfl

theorem walk_directory_image {sector index : Nat} (found : Region.of sector = .rootDir index)
    (fits : file.size.toNat ≤ capacity)
    (homed : sector = rootStart → file.cluster = firstDataCluster) :
    Walker.walk identity.fileName ⟨sectorSize * sector, [], file, ram.bytes⟩
        (image identity file.rehome ram sector) =
      ⟨sectorSize * sector + sectorSize, [], file, ram.bytes⟩ := by
  obtain ⟨sectorIs, inDirectory⟩ := Region.of_eq_rootDir_iff.mp found
  have size := length_image identity file.rehome ram sector
  have unmoved : (snoop identity.fileName capacity file
      (slots (image identity file.rehome ram sector))).1 = file := by
    cases index with
    | zero =>
      have entry : image identity file.rehome ram sector =
          (DirEntry.ofFile identity.fileName file.rehome).encode.rightpad sectorSize 0 := by
        simp only [image, found]
      rw [entry, List.rightpad]
      exact snoop_shown identity.fileName (Nat.lt_of_le_of_lt ram.capacity_le_4096 (by decide)) fits
        (homed sectorIs) _
    | succ index =>
      have blank : image identity file.rehome ram sector = List.replicate sectorSize 0 := by
        simp only [image, found]
      rw [blank, snoop_eq_foldl, placings_zeros]
      rfl
  have width : sectorSize = 512 := rfl
  obtain ⟨slot, walked, none⟩ := Walker.walk_directory identity.fileName
    ⟨sectorSize * sector, [], file, ram.bytes⟩ (image identity file.rehome ram sector)
    (by rw [width, sectorIs, show rootStart = 33 from rfl]; dsimp only; omega)
    (by
      rw [size, width, sectorIs, show rootStart = 33 from rfl, show dataStart = 65 from rfl]
      rw [show rootSectors = 32 from rfl] at inDirectory
      dsimp only
      omega) rfl
  rw [walked, none (by rw [size]; rfl), ram.length_bytes, unmoved, size]

theorem walk_data_image {sector index : Nat} (found : Region.of sector = .data index)
    (first : index < sectorsPerCluster) :
    Walker.walk identity.fileName ⟨sectorSize * sector, [], file, ram.bytes⟩
        (image identity file.rehome ram sector) =
      ⟨sectorSize * sector + sectorSize, [], file, ram.bytes⟩ := by
  obtain ⟨sectorIs, onVolume⟩ := Region.of_eq_data_iff.mp found
  have size := length_image identity file.rehome ram sector
  have atSector : sectorSize * sector / sectorSize = sector := Nat.mul_div_cancel_left _ (by decide)
  have atFront : sectorSize * sector % sectorSize = 0 := Nat.mul_mod_right ..
  have offset : offsetInCluster index = index * sectorSize := by
    rw [offsetInCluster, Nat.mod_eq_of_lt first]
  have same : overwrite ram.bytes (index * sectorSize) (image identity file.rehome ram sector) =
      ram.bytes := by
    apply overwrite_same
    intro place inside held
    rw [size] at inside
    simp only [image, found, List.rightpad]
    rw [List.getElem?_append_left (by rw [List.length_take, List.length_drop]; omega),
      List.getElem?_take, if_pos inside, List.getElem?_drop]
  have walked := walk_data_sector identity.fileName file ram.bytes
    (image identity file.rehome ram sector) (by rw [atSector]; exact sectorIs)
    (by rw [atSector]; exact onVolume) (by rw [atFront, size]; exact Nat.le_of_eq (Nat.zero_add _))
  rw [walked, atFront, Nat.add_zero, offset, same, size, ite_self]

/-- A sector written back as it is shown, while the file is where the directory shows it. -/
theorem walk_image (sector : Nat) (front : sector < dataStart + sectorsPerCluster)
    (fits : file.size.toNat ≤ capacity)
    (homed : sector = rootStart → file.cluster = firstDataCluster) :
    Walker.walk identity.fileName ⟨sectorSize * sector, [], file, ram.bytes⟩
        (image identity file.rehome ram sector) =
      ⟨sectorSize * sector + sectorSize, [], file, ram.bytes⟩ := by
  have size := length_image identity file.rehome ram sector
  have width : sectorSize = 512 := rfl
  have elsewhere (apart : sector < rootStart) :
      Walker.walk identity.fileName ⟨sectorSize * sector, [], file, ram.bytes⟩
          (image identity file.rehome ram sector) =
        ⟨sectorSize * sector + sectorSize, [], file, ram.bytes⟩ := by
    rw [Walker.walk_elsewhere _ _ _ (.inl (by rw [size, width]; dsimp only; omega)), size]
  cases found : Region.of sector with
  | boot =>
    apply elsewhere
    rw [Region.of_eq_boot_iff.mp found]
    decide
  | table copy index =>
    apply elsewhere
    have position := Region.of_eq_table_iff.mp found
    simp only [tableStart, reservedSectors, sectorsPerTable, tableCopies] at position
    rw [show rootStart = 33 from rfl]
    omega
  | rootDir index => exact walk_directory_image identity ram found fits homed
  | data index =>
    have sectorIs := (Region.of_eq_data_iff.mp found).1
    exact walk_data_image identity ram found (by omega)
  | beyond =>
    have past := Region.of_eq_beyond_iff.mp found
    rw [show totalSectors = 16384 from rfl] at past
    rw [show dataStart = 65 from rfl, show sectorsPerCluster = 8 from rfl] at front
    omega

/-- Sectors written back as they are shown, the front of the directory among them only if the file is
where the directory shows it. -/
theorem walk_images {first count : Nat} (front : first + count ≤ dataStart + sectorsPerCluster)
    (fits : file.size.toNat ≤ capacity)
    (homed : first ≤ rootStart ∧ rootStart < first + count → file.cluster = firstDataCluster) :
    Walker.walk identity.fileName ⟨sectorSize * first, [], file, ram.bytes⟩
        (images identity file.rehome ram first count) =
      ⟨sectorSize * (first + count), [], file, ram.bytes⟩ := by
  induction count with
  | zero => rfl
  | succ count countInduction =>
    have before := countInduction (by omega) (fun covered => homed (by omega))
    have last := walk_image identity ram (first + count) (by omega) fits
      (fun atFront => homed (by omega))
    rw [images_succ, Walker.walk_append, before, last]
    rfl

end WriteBack

end ScriptDrive.Volume
