import ScriptDrive.RamDisk
import ScriptDrive.Volume.DirEntry

/-!
# What a host writes

There is no directory and no allocation table to keep, so nothing a host writes to them is stored.
Directory writes are searched for the entry of the file, which tells where the host put it and how long
it is now.  Data writes reach the memory when they fall on the file's first cluster or a later one; by
its offset inside the cluster each byte finds its place.  All other writes are accepted and dropped.
-/

set_option autoImplicit false

namespace ScriptDrive.Volume

variable {capacity : Nat}

structure Written (capacity : Nat) where
  outcome : WriteOutcome
  file : TrackedFile
  ram : RamDisk capacity
  notes : List Note

/-- The whole directory slots in a run of bytes; a rest shorter than a slot is left out. -/
def slots (data : List UInt8) : List (Octets 32) :=
  if whole : dirEntrySize ≤ data.length then
    Octets.part data 0 32 whole :: slots (data.drop 32)
  else
    []
termination_by data.length
decreasing_by
  simp only [dirEntrySize] at whole
  simp only [List.length_drop]
  omega

theorem slots_of_lt {data : List UInt8} (short : data.length < dirEntrySize) : slots data = [] := by
  rw [slots, dif_neg (Nat.not_le_of_lt short)]

theorem slots_of_le {data : List UInt8} (whole : dirEntrySize ≤ data.length) :
    slots data = Octets.part data 0 32 whole :: slots (data.drop 32) := by
  rw [slots, dif_pos whole]

def snoopSlot (name : Octets 11) (capacity : Nat) (file : TrackedFile) (slot : Octets 32) :
    TrackedFile × List Note :=
  let entry := DirEntry.ofSlot slot
  if entry.isNamed name then
    if entry.cluster = 0 then
      -- The file is being made anew; the entry with its cluster comes later.
      (file, [.entryWithoutCluster])
    else
      let size := min entry.size (UInt32.ofNat capacity)
      (file.relocate entry.cluster size, file.relocationNotes entry.cluster size)
  else
    (file, [])

def snoop (name : Octets 11) (capacity : Nat) (file : TrackedFile) :
    List (Octets 32) → TrackedFile × List Note
  | [] => (file, [])
  | slot :: rest =>
    let (next, notes) := snoopSlot name capacity file slot
    let (last, later) := snoop name capacity next rest
    (last, notes ++ later)

/-- Deals with data the host writes to a sector from `offset` on. -/
def write (name : Octets 11) (file : TrackedFile) (ram : RamDisk capacity)
    (sector offset : Nat) (data : List UInt8) : Except Fault (Written capacity) := do
  match ← Region.locate sector with
  | .rootDir _ =>
    let (next, notes) := snoop name capacity file (slots data)
    return ⟨.snooped, next, ram, notes⟩
  | .data index =>
    let cluster ← clusterHolding index
    if cluster < file.cluster.toNat then
      return ⟨.discarded, file, ram, [.writeBeforeFile cluster file.cluster]⟩
    let start ← offsetWithinCluster index
    let place ← Word.add 64 start offset
    let (kept, stored) ← ram.write place data
    let notes := if stored < data.length then [.writePastEnd stored data.length place] else []
    return ⟨.stored, file, kept, notes⟩
  | .boot | .table .. | .beyond => return ⟨.discarded, file, ram, []⟩

/-! ## By the part of the volume -/

section Regions

variable {name : Octets 11} {file : TrackedFile} {ram : RamDisk capacity} {sector offset : Nat}
  {data : List UInt8}

theorem write_rootDir {index : Nat} (found : Region.of sector = .rootDir index) :
    write name file ram sector offset data =
      .ok ⟨.snooped, (snoop name capacity file (slots data)).1, ram,
        (snoop name capacity file (slots data)).2⟩ := by
  simp only [write, Region.locate_eq, found, bind, Except.bind, pure, Except.pure]

theorem write_elsewhere (noDirectory : ∀ index, Region.of sector ≠ .rootDir index)
    (noData : ∀ index, Region.of sector ≠ .data index) :
    write name file ram sector offset data = .ok ⟨.discarded, file, ram, []⟩ := by
  simp only [write, Region.locate_eq, bind, Except.bind]
  cases found : Region.of sector with
  | rootDir index => exact absurd found (noDirectory index)
  | data index => exact absurd found (noData index)
  | boot | table | beyond => rfl

/-- The numbers of the data region are small enough for every step that finds the cluster. -/
theorem write_data {index : Nat} (found : Region.of sector = .data index) :
    write name file ram sector offset data =
      if clusterOf index < file.cluster.toNat then
        .ok ⟨.discarded, file, ram, [.writeBeforeFile (clusterOf index) file.cluster]⟩
      else do
        let place ← Word.add 64 (offsetInCluster index) offset
        let (kept, stored) ← ram.write place data
        return ⟨.stored, file, kept,
          if stored < data.length then [.writePastEnd stored data.length place] else []⟩ := by
  obtain ⟨position, inside⟩ := Region.of_eq_data_iff.mp found
  have word : index < 1 <<< 32 := by
    rw [totalSectors] at inside
    omega
  simp only [write, Region.locate_eq, found, clusterHolding_eq word, offsetWithinCluster_eq, bind,
    Except.bind, pure, Except.pure]

end Regions

end ScriptDrive.Volume
