import ScriptDrive.Fault

/-!
# The geometry of the volume

A FAT16 volume of 8 MiB in sectors of 512 bytes: one boot sector, two copies of the allocation table,
the root directory, and the data region in clusters of eight sectors.  `Region.of` sorts a sector into
its part of the volume, and the statements about it say which sectors make up each part.

Reads and writes look a sector up with `Region.locate`, and its cluster with `clusterHolding` and
`offsetWithinCluster`, where every step is checked.  `Region.locate_eq` and the statements after it say
that no check fails for any sector, so that what is found is what the definitions without checks give.
-/

set_option autoImplicit false

namespace ScriptDrive

def sectorSize : Nat := 512

def sectorsPerCluster : Nat := 8

def clusterSize : Nat := sectorsPerCluster * sectorSize

def reservedSectors : Nat := 1

def tableCopies : Nat := 2

def sectorsPerTable : Nat := 16

def rootEntries : Nat := 512

def dirEntrySize : Nat := 32

def totalSectors : Nat := 0x4000

def mediaDescriptor : UInt8 := 0xF8

def firstDataCluster : UInt16 := 2

def tableStart : Nat := reservedSectors

def rootStart : Nat := tableStart + tableCopies * sectorsPerTable

def rootSectors : Nat := rootEntries * dirEntrySize / sectorSize

def dataStart : Nat := rootStart + rootSectors

inductive Region where
  | boot
  /-- Sector `index` of a copy of the allocation table. -/
  | table (copy index : Nat)
  | rootDir (index : Nat)
  | data (index : Nat)
  /-- Past the last sector of the volume. -/
  | beyond
  deriving DecidableEq, Repr

namespace Region

def of (sector : Nat) : Region :=
  if sector < tableStart then
    .boot
  else if sector < rootStart then
    .table ((sector - tableStart) / sectorsPerTable) ((sector - tableStart) % sectorsPerTable)
  else if sector < dataStart then
    .rootDir (sector - rootStart)
  else if sector < totalSectors then
    .data (sector - dataStart)
  else
    .beyond

/-- The part of the volume a sector lies in, with its distance from the front of that part checked. -/
def locate (sector : Nat) : Except Fault Region := do
  if sector < tableStart then
    return .boot
  else if sector < rootStart then
    let behind ← Word.sub sector tableStart
    return .table (behind / sectorsPerTable) (behind % sectorsPerTable)
  else if sector < dataStart then
    return .rootDir (← Word.sub sector rootStart)
  else if sector < totalSectors then
    return .data (← Word.sub sector dataStart)
  else
    return .beyond

theorem locate_eq (sector : Nat) : locate sector = .ok (of sector) := by
  unfold locate of
  split
  · rfl
  · rename_i behindBoot
    rw [Word.sub_of_le (Nat.le_of_not_lt behindBoot)]
    split
    · rfl
    · rename_i behindTables
      rw [Word.sub_of_le (Nat.le_of_not_lt behindTables)]
      split
      · rfl
      · rename_i behindRoot
        rw [Word.sub_of_le (Nat.le_of_not_lt behindRoot)]
        split <;> rfl

theorem of_eq_boot_iff {sector : Nat} : of sector = .boot ↔ sector = 0 := by
  grind [of, tableStart, reservedSectors]

theorem of_eq_table_iff {sector copy index : Nat} :
    of sector = .table copy index ↔
      sector = tableStart + copy * sectorsPerTable + index ∧ copy < tableCopies ∧
        index < sectorsPerTable := by
  grind [of, tableStart, rootStart, reservedSectors, tableCopies, sectorsPerTable]

theorem of_eq_rootDir_iff {sector index : Nat} :
    of sector = .rootDir index ↔ sector = rootStart + index ∧ index < rootSectors := by
  grind [of, tableStart, rootStart, dataStart]

theorem of_eq_data_iff {sector index : Nat} :
    of sector = .data index ↔ sector = dataStart + index ∧ sector < totalSectors := by
  grind [of, tableStart, rootStart, dataStart]

theorem of_eq_beyond_iff {sector : Nat} : of sector = .beyond ↔ totalSectors ≤ sector := by
  grind [of, tableStart, rootStart, dataStart, rootSectors, reservedSectors, tableCopies,
    sectorsPerTable, rootEntries, dirEntrySize, sectorSize, totalSectors]

/-- Sectors past the volume all look alike, also those whose numbers are too wide for a word. -/
theorem of_min_word (sector : Nat) : of (min sector (1 <<< 32 - 1)) = of sector := by
  by_cases narrow : sector ≤ 1 <<< 32 - 1
  · rw [Nat.min_eq_left narrow]
  · have far : of sector = .beyond := of_eq_beyond_iff.mpr (by simp only [totalSectors]; omega)
    have last : of (1 <<< 32 - 1) = .beyond := of_eq_beyond_iff.mpr (by decide)
    rw [Nat.min_eq_right (by omega), last, far]

end Region

def clusterOf (dataIndex : Nat) : Nat :=
  firstDataCluster.toNat + dataIndex / sectorsPerCluster

/-- Where a sector of the data region begins inside its cluster, in bytes. -/
def offsetInCluster (dataIndex : Nat) : Nat :=
  dataIndex % sectorsPerCluster * sectorSize

def clusterHolding (dataIndex : Nat) : Except Fault Nat :=
  Word.add 32 firstDataCluster.toNat (dataIndex / sectorsPerCluster)

def offsetWithinCluster (dataIndex : Nat) : Except Fault Nat :=
  Word.mul 64 (dataIndex % sectorsPerCluster) sectorSize

theorem clusterHolding_eq {dataIndex : Nat} (word : dataIndex < 1 <<< 32) :
    clusterHolding dataIndex = .ok (clusterOf dataIndex) := by
  have first : firstDataCluster.toNat = 2 := rfl
  exact Word.add_of_lt (by rw [first, sectorsPerCluster]; omega)

theorem offsetWithinCluster_eq (dataIndex : Nat) :
    offsetWithinCluster dataIndex = .ok (offsetInCluster dataIndex) :=
  Word.mul_of_lt (by rw [sectorsPerCluster, sectorSize]; omega)

theorem offsetInCluster_add_sectorSize_le (dataIndex : Nat) :
    offsetInCluster dataIndex + sectorSize ≤ clusterSize := by
  have below : dataIndex % 8 < 8 := Nat.mod_lt _ (by decide)
  simp only [offsetInCluster, clusterSize, sectorsPerCluster, sectorSize]
  omega

end ScriptDrive
