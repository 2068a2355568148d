import ScriptDrive.Bytes
import ScriptDrive.Geometry

/-!
# The memory behind the file

A fixed run of bytes, at most one cluster long, that the host reads and writes at any offset.  What a
read asks for past the end is zero, and what a write brings past the end is dropped.

Every access is checked.  `load_eq`, `readInto_eq` and `write_eq` say that no check ever fails and what
each access does.
-/

set_option autoImplicit false

namespace ScriptDrive

@[ext] structure RamDisk (capacity : Nat) where
  bytes : List UInt8
  length_bytes : bytes.length = capacity
  capacity_le : capacity ≤ clusterSize

namespace RamDisk

variable {capacity : Nat}

instance : DecidableEq (RamDisk capacity) := fun _ _ =>
  decidable_of_decidable_of_iff RamDisk.ext_iff.symm

theorem length_zeros (capacity : Nat) : (List.replicate capacity (0 : UInt8)).length = capacity :=
  List.length_replicate ..

def blank (fits : capacity ≤ clusterSize) : RamDisk capacity :=
  ⟨List.replicate capacity 0, length_zeros capacity, fits⟩

theorem capacity_le_4096 (disk : RamDisk capacity) : capacity ≤ 4096 :=
  disk.capacity_le

def replace (disk : RamDisk capacity) (offset : Nat) (piece : List UInt8) :
    Except Fault (RamDisk capacity) :=
  if inside : offset + piece.length ≤ capacity then
    .ok {
      disk with
      bytes := disk.bytes.take offset ++ piece ++ disk.bytes.drop (offset + piece.length)
      length_bytes := by
        simp only [List.length_append, List.length_take, List.length_drop, disk.length_bytes]
        omega }
  else
    .error .outOfRange

/-- Fills the memory with `contents` and zeros.  Also gives how many bytes were kept. -/
def load (disk : RamDisk capacity) (contents : List UInt8) :
    Except Fault (RamDisk capacity × Nat) := do
  let kept := min contents.length capacity
  let front ← slice contents 0 kept
  let filled ← disk.replace 0 front
  let cleared ← filled.replace kept (List.replicate (capacity - kept) 0)
  return (cleared, kept)

/-- Fills `buffer` with the bytes from `offset` on, and with zeros for those past the end. -/
def readInto (disk : RamDisk capacity) (offset : Nat) (buffer : List UInt8) :
    Except Fault (List UInt8) := do
  let zeros := cleared buffer
  if capacity ≤ offset then
    return zeros
  let room ← Word.sub capacity offset
  let held := min zeros.length room
  let stop ← Word.add 64 offset held
  let front ← slice disk.bytes offset stop
  splice zeros 0 held front

def read (disk : RamDisk capacity) (offset count : Nat) : Except Fault (List UInt8) :=
  disk.readInto offset (List.replicate count 0)

/-- Puts `data` at `offset`, without what falls past the end.  Also gives how many bytes were stored. -/
def write (disk : RamDisk capacity) (offset : Nat) (data : List UInt8) :
    Except Fault (RamDisk capacity × Nat) := do
  if capacity ≤ offset then
    return (disk, 0)
  let room ← Word.sub capacity offset
  let stored := min data.length room
  let _ ← Word.add 64 offset stored
  let front ← slice data 0 stored
  let written ← disk.replace offset front
  return (written, stored)

theorem replace_of_le (disk : RamDisk capacity) {offset : Nat} {piece : List UInt8}
    (inside : offset + piece.length ≤ capacity) :
    ∃ written, disk.replace offset piece = .ok written ∧
      written.bytes = disk.bytes.take offset ++ piece ++ disk.bytes.drop (offset + piece.length) := by
  simp [replace, inside]

theorem load_eq (disk : RamDisk capacity) (contents : List UInt8) :
    ∃ loaded, disk.load contents = .ok (loaded, min contents.length capacity) ∧
      loaded.bytes =
        contents.take capacity ++ List.replicate (capacity - contents.length) 0 := by
  have frontTaken : slice contents 0 (min contents.length capacity) =
      .ok (contents.take (min contents.length capacity)) :=
    slice_front (Nat.min_le_left _ _)
  have frontLength : (contents.take (min contents.length capacity)).length =
      min contents.length capacity :=
    List.length_take_of_le (Nat.min_le_left _ _)
  have frontFits : 0 + (contents.take (min contents.length capacity)).length ≤ capacity := by
    rw [frontLength]
    omega
  have restFits : min contents.length capacity +
      (List.replicate (capacity - min contents.length capacity) (0 : UInt8)).length ≤ capacity := by
    rw [List.length_replicate]
    omega
  obtain ⟨filled, filledIs, filledBytes⟩ := disk.replace_of_le frontFits
  obtain ⟨cleared, clearedIs, clearedBytes⟩ := filled.replace_of_le restFits
  refine ⟨cleared, ?_, ?_⟩
  · simp only [load, frontTaken, filledIs, clearedIs, bind, Except.bind, pure, Except.pure]
  · have front : filled.bytes.take (min contents.length capacity) = contents.take capacity := by
      rw [filledBytes, List.take_zero, List.nil_append, List.take_left' frontLength,
        List.take_eq_take_iff]
      omega
    have back : filled.bytes.drop (min contents.length capacity +
        (List.replicate (capacity - min contents.length capacity) (0 : UInt8)).length) = [] := by
      apply List.drop_eq_nil_of_le
      rw [filled.length_bytes, List.length_replicate]
      omega
    have short : capacity - min contents.length capacity = capacity - contents.length := by
      omega
    rw [clearedBytes, front, back, short, List.append_nil]

theorem readInto_eq (disk : RamDisk capacity) (offset : Nat) (buffer : List UInt8) :
    disk.readInto offset buffer =
      .ok ((disk.bytes.drop offset).take buffer.length ++
        List.replicate (buffer.length - (capacity - offset)) 0) := by
  have lengths := disk.length_bytes
  have small := disk.capacity_le_4096
  simp only [readInto, cleared_eq, List.length_replicate]
  generalize buffer.length = count
  by_cases past : capacity ≤ offset
  · have none : disk.bytes.drop offset = [] := List.drop_eq_nil_of_le (by omega)
    simp [past, none, pure, Except.pure]
  · have room : Word.sub capacity offset = .ok (capacity - offset) :=
      Word.sub_of_le (by omega)
    have stop : Word.add 64 offset (min count (capacity - offset)) =
        .ok (offset + min count (capacity - offset)) :=
      Word.add_of_lt (by omega)
    have taken : slice disk.bytes offset (offset + min count (capacity - offset)) =
        .ok ((disk.bytes.drop offset).take (min count (capacity - offset))) := by
      rw [slice_of_le (by omega) (by omega)]
      simp
    have frontLength : ((disk.bytes.drop offset).take (min count (capacity - offset))).length =
        min count (capacity - offset) := by
      rw [List.length_take_of_le]
      rw [List.length_drop]
      omega
    have frontFits : min count (capacity - offset) ≤ (List.replicate count (0 : UInt8)).length := by
      rw [List.length_replicate]
      omega
    have placed := splice_of_le (Nat.zero_le _) frontFits frontLength
    have same : (disk.bytes.drop offset).take (min count (capacity - offset)) =
        (disk.bytes.drop offset).take count := by
      rw [List.take_eq_take_iff, List.length_drop]
      omega
    have back : (List.replicate count (0 : UInt8)).drop (min count (capacity - offset)) =
        List.replicate (count - (capacity - offset)) 0 := by
      rw [List.drop_replicate]
      congr 1
      omega
    rw [back, List.take_zero, List.nil_append, same] at placed
    simp only [past, if_false, room, stop, taken, placed, same, bind, Except.bind]

theorem read_eq (disk : RamDisk capacity) (offset count : Nat) :
    disk.read offset count =
      .ok ((disk.bytes.drop offset).take count ++
        List.replicate (count - (capacity - offset)) 0) := by
  rw [read, readInto_eq, List.length_replicate]

theorem write_eq (disk : RamDisk capacity) (offset : Nat) (data : List UInt8) :
    ∃ written, disk.write offset data =
        .ok (written, min data.length (capacity - offset)) ∧
      written.bytes = disk.bytes.take offset ++ data.take (capacity - offset) ++
        disk.bytes.drop (offset + data.length) := by
  have lengths := disk.length_bytes
  have small := disk.capacity_le_4096
  by_cases past : capacity ≤ offset
  · have none : capacity - offset = 0 := by omega
    refine ⟨disk, ?_, ?_⟩
    · simp [write, past, none, pure, Except.pure]
    · rw [none, List.take_of_length_le (by omega), List.drop_eq_nil_of_le (by omega)]
      simp
  · have room : Word.sub capacity offset = .ok (capacity - offset) :=
      Word.sub_of_le (by omega)
    have stop : Word.add 64 offset (min data.length (capacity - offset)) =
        .ok (offset + min data.length (capacity - offset)) :=
      Word.add_of_lt (by omega)
    have taken : slice data 0 (min data.length (capacity - offset)) =
        .ok (data.take (min data.length (capacity - offset))) :=
      slice_front (Nat.min_le_left _ _)
    have frontFits : offset + (data.take (min data.length (capacity - offset))).length ≤
        capacity := by
      simp only [List.length_take]
      omega
    obtain ⟨written, writtenIs, writtenBytes⟩ := disk.replace_of_le frontFits
    refine ⟨written, ?_, ?_⟩
    · simp only [write, past, if_false, room, stop, taken, writtenIs, bind, Except.bind, pure,
        Except.pure]
    · rw [writtenBytes]
      have same : data.take (min data.length (capacity - offset)) =
          data.take (capacity - offset) := by
        rw [List.take_eq_take_iff]
        omega
      rw [same]
      by_cases short : data.length ≤ capacity - offset
      · rw [List.take_of_length_le short]
      · have first : disk.bytes.drop (offset + (data.take (capacity - offset)).length) = [] :=
          List.drop_eq_nil_of_le (by simp only [List.length_take]; omega)
        have second : disk.bytes.drop (offset + data.length) = [] :=
          List.drop_eq_nil_of_le (by omega)
        rw [first, second]

end RamDisk

end ScriptDrive
