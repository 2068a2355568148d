import ScriptDrive.Volume.HostWrite

/-!
# Written data, byte by byte

`Walker` is a host write without packets, sectors or pieces: it takes one byte after the other, each at
the next place of the volume.  In the root directory it gathers slots and reads each one that is whole;
in the data region it stores a byte at its place in the cluster, unless the cluster lies in front of the
file.  `walk_directory`, `walk_cluster` and `walk_elsewhere` say what it does with a run of bytes, and
`write_walks` that a piece in one sector is dealt with in the same way.  Where the bytes do not matter,
`becomes_write` says what a piece can make of the file.
-/

set_option autoImplicit false

namespace ScriptDrive.Volume

variable {capacity : Nat}

/-- What has come of the bytes of a host write so far. -/
structure Walker where
  /-- The byte of the volume that is written next. -/
  place : Nat
  /-- The bytes of a directory slot that is not whole yet. -/
  slot : List UInt8
  file : TrackedFile
  memory : List UInt8
  deriving DecidableEq

/-- The memory with bytes laid over it from `start` on, as far as they fit. -/
def overwrite (memory : List UInt8) (start : Nat) (bytes : List UInt8) : List UInt8 :=
  memory.take start ++ bytes.take (memory.length - start) ++ memory.drop (start + bytes.length)

@[simp] theorem overwrite_nil (memory : List UInt8) (start : Nat) :
    overwrite memory start [] = memory := by
  simp [overwrite]

theorem getElem?_overwrite (memory : List UInt8) (start : Nat) (bytes : List UInt8) (place : Nat) :
    (overwrite memory start bytes)[place]? =
      if start ≤ place ∧ place < start + bytes.length ∧ place < memory.length then
        bytes[place - start]?
      else
        memory[place]? := by
  simp only [overwrite, List.getElem?_append, List.getElem?_take, List.getElem?_drop,
    List.length_append, List.length_take]
  grind

theorem overwrite_cons (memory : List UInt8) (start : Nat) (byte : UInt8) (rest : List UInt8) :
    overwrite memory start (byte :: rest) = overwrite (memory.set start byte) (start + 1) rest := by
  apply List.ext_getElem?
  intro place
  rw [getElem?_overwrite, getElem?_overwrite]
  simp only [List.length_cons, List.length_set, List.getElem?_set]
  grind

/-- A write to the memory lays its data over what was there. -/
theorem write_overwrites (ram : RamDisk capacity) (offset : Nat) (data : List UInt8) :
    ∃ written, ram.write offset data = .ok (written, min data.length (capacity - offset)) ∧
      written.bytes = overwrite ram.bytes offset data := by
  obtain ⟨written, writtenIs, bytes⟩ := ram.write_eq offset data
  refine ⟨written, writtenIs, ?_⟩
  rw [bytes, overwrite, ram.length_bytes]

namespace Walker

def readSlot (name : Octets 11) (room : Nat) (file : TrackedFile) (slot : List UInt8) : TrackedFile :=
  let cluster := littleWord16 slot 26
  let size := min (littleWord32 slot 28) (UInt32.ofNat room)
  if sameLetters (slot.take 11) name.bytes ∧ slot.head? ≠ some 0xE5 ∧ cluster ≠ 0 then
    { cluster := cluster
      size := size
      dirty := file.dirty || (cluster != file.cluster || size != file.size) }
  else
    file

def step (name : Octets 11) (walker : Walker) (byte : UInt8) : Walker :=
  let next := { walker with place := walker.place + 1 }
  if rootStart * sectorSize ≤ walker.place ∧ walker.place < dataStart * sectorSize then
    let slot := walker.slot ++ [byte]
    if slot.length = dirEntrySize then
      { next with slot := [], file := readSlot name walker.memory.length walker.file slot }
    else
      { next with slot := slot }
  else if dataStart * sectorSize ≤ walker.place ∧ walker.place < totalSectors * sectorSize then
    let inRegion := walker.place - dataStart * sectorSize
    if walker.file.cluster.toNat ≤ firstDataCluster.toNat + inRegion / clusterSize then
      { next with memory := walker.memory.set (inRegion % clusterSize) byte }
    else
      next
  else
    next

def walk (name : Octets 11) (walker : Walker) (bytes : List UInt8) : Walker :=
  bytes.foldl (step name) walker

@[simp] theorem walk_nil (name : Octets 11) (walker : Walker) : walker.walk name [] = walker := rfl

theorem walk_cons (name : Octets 11) (walker : Walker) (byte : UInt8) (rest : List UInt8) :
    walker.walk name (byte :: rest) = (walker.step name byte).walk name rest := rfl

theorem walk_append (name : Octets 11) (walker : Walker) (first second : List UInt8) :
    walker.walk name (first ++ second) = (walker.walk name first).walk name second :=
  List.foldl_append

section Walk

variable (name : Octets 11) (walker : Walker)

/-! ## In the root directory -/

theorem step_directory {byte : UInt8} (below : rootStart * sectorSize ≤ walker.place)
    (above : walker.place < dataStart * sectorSize) :
    walker.step name byte =
      if walker.slot.length + 1 = dirEntrySize then
        { walker with
          place := walker.place + 1
          slot := []
          file := readSlot name walker.memory.length walker.file (walker.slot ++ [byte]) }
      else
        { walker with place := walker.place + 1, slot := walker.slot ++ [byte] } := by
  simp only [step, below, above, and_self, if_true, List.length_append, List.length_singleton]

theorem walk_part (bytes : List UInt8) (below : rootStart * sectorSize ≤ walker.place)
    (above : walker.place + bytes.length ≤ dataStart * sectorSize)
    (short : walker.slot.length + bytes.length < dirEntrySize) :
    walker.walk name bytes =
      { walker with place := walker.place + bytes.length, slot := walker.slot ++ bytes } := by
  induction bytes generalizing walker with
  | nil => simp
  | cons byte rest restInduction =>
    simp only [List.length_cons] at above short
    rw [walk_cons, step_directory name walker below (by omega), if_neg (by omega), restInduction]
    · simp only [List.append_assoc, List.cons_append, List.nil_append, List.length_cons,
        Nat.add_assoc, Nat.add_comm 1]
    · exact Nat.le_succ_of_le below
    · dsimp only
      omega
    · simp only [List.length_append, List.length_singleton]
      omega

theorem walk_slot (bytes : List UInt8) (below : rootStart * sectorSize ≤ walker.place)
    (above : walker.place + bytes.length ≤ dataStart * sectorSize) (fresh : walker.slot = [])
    (whole : bytes.length = dirEntrySize) :
    walker.walk name bytes =
      { walker with
        place := walker.place + bytes.length
        file := readSlot name walker.memory.length walker.file bytes } := by
  have width : dirEntrySize = 32 := rfl
  rcases List.eq_nil_or_concat bytes with rfl | ⟨front, last, rfl⟩
  · cases whole
  · simp only [List.concat_eq_append, List.length_append, List.length_singleton] at above whole ⊢
    rw [walk_append, walk_part name walker front below (by omega)
        (by rw [fresh, List.length_nil]; omega), walk_cons, walk_nil,
      step_directory name _ (by dsimp only; omega) (by dsimp only; omega),
      if_pos (by simp only [fresh, List.nil_append]; omega)]
    simp only [fresh, List.nil_append, Nat.add_assoc]

theorem readSlot_eq_snoopSlot (room : Nat) (file : TrackedFile) (slot : Octets 32) :
    readSlot name room file slot.bytes = (snoopSlot name room file slot).1 := by
  obtain ⟨_ | ⟨byte, rest⟩, size⟩ := slot
  · cases size
  · have named : (DirEntry.ofSlot ⟨byte :: rest, size⟩).isNamed name =
        (byte != 0xE5 && sameLetters ((byte :: rest).take 11) name.bytes) := rfl
    have cluster : (DirEntry.ofSlot ⟨byte :: rest, size⟩).cluster =
        littleWord16 (byte :: rest) 26 := rfl
    have length : (DirEntry.ofSlot ⟨byte :: rest, size⟩).size =
        littleWord32 (byte :: rest) 28 := rfl
    simp only [snoopSlot, readSlot, named, cluster, length, List.head?_cons, ne_eq,
      Option.some.injEq, Bool.and_eq_true, bne_iff_ne]
    by_cases letters : sameLetters ((byte :: rest).take 11) name.bytes = true
    · by_cases deleted : byte = 0xE5
      · simp only [deleted, not_true_eq_false, false_and, and_false, if_false]
      · by_cases unplaced : littleWord16 (byte :: rest) 26 = 0
        · simp only [letters, deleted, unplaced, not_true_eq_false, not_false_eq_true, and_false,
            and_self, if_false, if_true]
        · simp only [letters, deleted, unplaced, not_false_eq_true, and_self, if_true, if_false,
            TrackedFile.relocate]
    · simp only [letters, Bool.false_eq_true, false_and, and_false, if_false]

/-- A run of bytes in the root directory: its whole slots are read in order. -/
theorem walk_directory (bytes : List UInt8) (below : rootStart * sectorSize ≤ walker.place)
    (above : walker.place + bytes.length ≤ dataStart * sectorSize) (fresh : walker.slot = []) :
    ∃ slot, walker.walk name bytes =
        { walker with
          place := walker.place + bytes.length
          slot := slot
          file := (snoop name walker.memory.length walker.file (slots bytes)).1 } ∧
      (bytes.length % dirEntrySize = 0 → slot = []) := by
  have width : dirEntrySize = 32 := rfl
  fun_induction slots bytes generalizing walker with
  | case1 bytes whole restInduction =>
    have first : (bytes.take 32).length = dirEntrySize := List.length_take_of_le whole
    have rest : (bytes.drop 32).length = bytes.length - 32 := List.length_drop
    have walked := walk_slot name walker (bytes.take 32) below (by omega) fresh first
    obtain ⟨slot, walkedRest, none⟩ := restInduction (walker.walk name (bytes.take 32))
      (by rw [walked]; dsimp only; omega) (by rw [walked]; dsimp only; omega) (by rw [walked]; exact fresh)
    refine ⟨slot, ?_, ?_⟩
    · have parts : walker.walk name bytes =
          (walker.walk name (bytes.take 32)).walk name (bytes.drop 32) := by
        rw [← walk_append, List.take_append_drop]
      have read : readSlot name walker.memory.length walker.file (bytes.take 32) =
          (snoopSlot name walker.memory.length walker.file
            (Octets.part bytes 0 32 (by simpa [dirEntrySize] using whole))).1 :=
        readSlot_eq_snoopSlot name _ _ (Octets.part bytes 0 32 _)
      have total : (bytes.take 32).length + (bytes.drop 32).length = bytes.length := by omega
      rw [parts, walkedRest, walked]
      simp only [snoop, read, Nat.add_assoc, total]
    · intro multiple
      rw [width] at multiple
      exact none (by rw [width]; omega)
  | case2 bytes short =>
    refine ⟨bytes, ?_, ?_⟩
    · rw [walk_part name walker bytes below above (by rw [fresh, List.length_nil]; omega), fresh]
      rfl
    · intro multiple
      rw [width] at multiple
      exact List.length_eq_zero_iff.mp (by omega)

/-! ## In the data region -/

theorem step_data {byte : UInt8} (below : dataStart * sectorSize ≤ walker.place)
    (above : walker.place < totalSectors * sectorSize) :
    walker.step name byte =
      if walker.file.cluster.toNat ≤
          firstDataCluster.toNat + (walker.place - dataStart * sectorSize) / clusterSize then
        { walker with
          place := walker.place + 1
          memory := walker.memory.set ((walker.place - dataStart * sectorSize) % clusterSize) byte }
      else
        { walker with place := walker.place + 1 } := by
  have behind : ¬ (rootStart * sectorSize ≤ walker.place ∧
      walker.place < dataStart * sectorSize) := by omega
  simp only [step, behind, below, above, and_self, if_false, if_true]

/-- A run of bytes inside one cluster: it is laid over the memory, unless the cluster is in front of the
file. -/
theorem walk_cluster (bytes : List UInt8) (below : dataStart * sectorSize ≤ walker.place)
    (above : walker.place + bytes.length ≤ totalSectors * sectorSize)
    (inside : (walker.place - dataStart * sectorSize) % clusterSize + bytes.length ≤ clusterSize) :
    walker.walk name bytes =
      if walker.file.cluster.toNat ≤
          firstDataCluster.toNat + (walker.place - dataStart * sectorSize) / clusterSize then
        { walker with
          place := walker.place + bytes.length
          memory := overwrite walker.memory
            ((walker.place - dataStart * sectorSize) % clusterSize) bytes }
      else
        { walker with place := walker.place + bytes.length } := by
  induction bytes generalizing walker with
  | nil => simp
  | cons byte rest restInduction =>
    have width : clusterSize = 4096 := rfl
    simp only [List.length_cons] at above inside
    rw [walk_cons, step_data name walker below (by omega)]
    by_cases last : rest = []
    · subst last
      simp only [walk_nil, List.length_singleton, overwrite_cons, overwrite_nil]
    · have more : 0 < rest.length := List.length_pos_iff.mpr last
      have sameCluster : (walker.place + 1 - dataStart * sectorSize) / clusterSize =
          (walker.place - dataStart * sectorSize) / clusterSize := by
        rw [width] at inside ⊢
        omega
      have nextPlace : (walker.place + 1 - dataStart * sectorSize) % clusterSize =
          (walker.place - dataStart * sectorSize) % clusterSize + 1 := by
        rw [width] at inside ⊢
        omega
      split
      · rename_i reached
        have walked := restInduction
          { walker with
            place := walker.place + 1
            memory := walker.memory.set ((walker.place - dataStart * sectorSize) % clusterSize) byte }
          (by dsimp only; omega) (by dsimp only; omega) (by dsimp only; rw [nextPlace]; omega)
        rw [walked]
        dsimp only
        rw [sameCluster, if_pos reached, nextPlace, ← overwrite_cons, Nat.add_assoc,
          Nat.add_comm 1]
        rfl
      · rename_i notReached
        have walked := restInduction { walker with place := walker.place + 1 }
          (by dsimp only; omega) (by dsimp only; omega) (by dsimp only; rw [nextPlace]; omega)
        rw [walked]
        dsimp only
        rw [sameCluster, if_neg notReached, Nat.add_assoc, Nat.add_comm 1]
        rfl

/-! ## Elsewhere -/

theorem walk_elsewhere (bytes : List UInt8)
    (apart : walker.place + bytes.length ≤ rootStart * sectorSize ∨
      totalSectors * sectorSize ≤ walker.place) :
    walker.walk name bytes = { walker with place := walker.place + bytes.length } := by
  induction bytes generalizing walker with
  | nil => rfl
  | cons byte rest restInduction =>
    have order : rootStart * sectorSize ≤ dataStart * sectorSize ∧
        dataStart * sectorSize ≤ totalSectors * sectorSize := by decide
    simp only [List.length_cons] at apart
    have stepped : walker.step name byte = { walker with place := walker.place + 1 } := by
      have noDirectory : ¬ (rootStart * sectorSize ≤ walker.place ∧
          walker.place < dataStart * sectorSize) := by omega
      have noData : ¬ (dataStart * sectorSize ≤ walker.place ∧
          walker.place < totalSectors * sectorSize) := by omega
      simp only [step, noDirectory, noData, if_false]
    have walked := restInduction { walker with place := walker.place + 1 } (by dsimp only; omega)
    rw [walk_cons, stepped, walked]
    simp only [List.length_cons, Nat.add_assoc, Nat.add_comm 1]

end Walk

end Walker

/-! ## A piece in one sector -/

/-- What writes to the directory can make of the file, when the memory holds so many bytes. -/
inductive Becomes (room : Nat) (file : TrackedFile) : TrackedFile → Prop
  | same : Becomes room file file
  | moved {next : TrackedFile} {cluster : UInt16} {size : UInt32} (before : Becomes room file next)
      (placed : cluster ≠ 0) (short : size.toNat ≤ room) :
      Becomes room file (next.relocate cluster size)

section Becomes

variable {room : Nat} {first second third : TrackedFile}

theorem Becomes.trans (before : Becomes room first second) (after : Becomes room second third) :
    Becomes room first third := by
  induction after with
  | same => exact before
  | moved _ placed short becomes => exact .moved becomes placed short

theorem Becomes.fits (becomes : Becomes room first second) (fits : first.Fits room) :
    second.Fits room := by
  cases becomes with
  | same => exact fits
  | moved _ placed short => exact ⟨short, placed⟩

/-- The mark of a changed file stays until it is taken away. -/
theorem Becomes.dirty (becomes : Becomes room first second) (marked : first.dirty = true) :
    second.dirty = true := by
  induction becomes with
  | same => exact marked
  | moved _ _ _ markedBefore => simp only [TrackedFile.relocate, markedBefore, Bool.true_or]

end Becomes

theorem becomes_snoopSlot (name : Octets 11) {room : Nat} (file : TrackedFile) (slot : Octets 32)
    (small : room < 1 <<< 32) : Becomes room file (snoopSlot name room file slot).1 := by
  simp only [snoopSlot]
  split
  · split
    · exact .same
    · rename_i placed
      have roomIs : (UInt32.ofNat room).toNat = room := UInt32.toNat_ofNat_of_lt' small
      have least : min (DirEntry.ofSlot slot).size (UInt32.ofNat room) ≤ UInt32.ofNat room :=
        Std.min_le_right
      rw [UInt32.le_iff_toNat_le, roomIs] at least
      exact .moved .same placed least
  · exact .same

theorem becomes_snoop (name : Octets 11) {room : Nat} (file : TrackedFile) (slots : List (Octets 32))
    (small : room < 1 <<< 32) : Becomes room file (snoop name room file slots).1 := by
  induction slots generalizing file with
  | nil => exact .same
  | cons slot rest restInduction =>
    exact (becomes_snoopSlot name file slot small).trans (restInduction _)

theorem becomes_write {name : Octets 11} {file : TrackedFile} {ram : RamDisk capacity}
    {sector offset : Nat} {data : List UInt8} {written : Written capacity}
    (writtenIs : write name file ram sector offset data = .ok written) :
    Becomes capacity file written.file := by
  have small := ram.capacity_le_4096
  cases found : Region.of sector with
  | rootDir index =>
    rw [write_rootDir found] at writtenIs
    cases writtenIs
    exact becomes_snoop name file _ (by omega)
  | data index =>
    rw [write_data found] at writtenIs
    split at writtenIs
    · cases writtenIs
      exact .same
    · cases placed : Word.add 64 (offsetInCluster index) offset with
      | error fault => rw [placed] at writtenIs; cases writtenIs
      | ok place =>
        obtain ⟨kept, keptIs, -⟩ := ram.write_eq place data
        simp only [placed, keptIs, bind, Except.bind, pure, Except.pure] at writtenIs
        cases writtenIs
        exact .same
  | boot | table | beyond =>
    rw [write_elsewhere (by simp [found]) (by simp [found])] at writtenIs
    cases writtenIs
    exact .same

/-- The cluster of a place in the data region, and where the place lies in it. -/
theorem cluster_of_place {place index : Nat} (inSector : place / sectorSize = dataStart + index) :
    clusterOf index = firstDataCluster.toNat + (place - dataStart * sectorSize) / clusterSize ∧
      offsetInCluster index + place % sectorSize =
        (place - dataStart * sectorSize) % clusterSize := by
  simp only [clusterOf, offsetInCluster, show sectorSize = 512 from rfl,
    show dataStart = 65 from rfl, show clusterSize = 4096 from rfl,
    show sectorsPerCluster = 8 from rfl] at inSector ⊢
  omega

/-- A run of bytes in one sector of the data region. -/
theorem walk_data_sector (name : Octets 11) (file : TrackedFile) (memory : List UInt8)
    {place index : Nat} (piece : List UInt8) (inSector : place / sectorSize = dataStart + index)
    (onVolume : place / sectorSize < totalSectors)
    (inside : place % sectorSize + piece.length ≤ sectorSize) :
    Walker.walk name ⟨place, [], file, memory⟩ piece =
      if file.cluster.toNat ≤ clusterOf index then
        ⟨place + piece.length, [], file,
          overwrite memory (offsetInCluster index + place % sectorSize) piece⟩
      else
        ⟨place + piece.length, [], file, memory⟩ := by
  have dataIs : dataStart * sectorSize = 65 * 512 := rfl
  have totalIs : totalSectors * sectorSize = 16384 * 512 := rfl
  have width : sectorSize = 512 := rfl
  obtain ⟨clusterIs, offsetIs⟩ := cluster_of_place inSector
  have within := offsetInCluster_add_sectorSize_le index
  rw [width] at inside
  simp only [width, show dataStart = 65 from rfl] at inSector
  simp only [width, show totalSectors = 16384 from rfl] at onVolume
  have walked := Walker.walk_cluster name ⟨place, [], file, memory⟩ piece
    (by dsimp only; omega) (by dsimp only; omega)
    (by rw [← offsetIs, width]; rw [width] at within; omega)
  dsimp only at walked
  rw [← clusterIs, ← offsetIs] at walked
  exact walked

theorem write_walks (name : Octets 11) (file : TrackedFile) (ram : RamDisk capacity) (place : Nat)
    (piece : List UInt8) (inside : place % sectorSize + piece.length ≤ sectorSize) :
    ∃ written slot, write name file ram (min (place / sectorSize) (1 <<< 32 - 1)) (place % sectorSize)
          piece = .ok written ∧
      Walker.walk name ⟨place, [], file, ram.bytes⟩ piece =
        ⟨place + piece.length, slot, written.file, written.ram.bytes⟩ ∧
      (piece.length % dirEntrySize = 0 → slot = []) := by
  have rootIs : rootStart * sectorSize = 33 * 512 := rfl
  have dataIs : dataStart * sectorSize = 65 * 512 := rfl
  have totalIs : totalSectors * sectorSize = 16384 * 512 := rfl
  have width : sectorSize = 512 := rfl
  have small : place % sectorSize + piece.length ≤ 512 := inside
  rw [width] at small
  have wide := Region.of_min_word (place / sectorSize)
  generalize min (place / sectorSize) (1 <<< 32 - 1) = sector at wide ⊢
  rcases found : Region.of (place / sectorSize) with _ | ⟨copy, index⟩ | index | index | _
  all_goals rw [found] at wide
  case boot =>
    have position := Region.of_eq_boot_iff.mp found
    rw [width] at position
    exact ⟨_, [], write_elsewhere (by simp [wide]) (by simp [wide]),
      Walker.walk_elsewhere name _ piece (.inl (by dsimp only; omega)), fun _ => rfl⟩
  case table =>
    have position := Region.of_eq_table_iff.mp found
    simp only [width, tableStart, reservedSectors, sectorsPerTable, tableCopies] at position
    exact ⟨_, [], write_elsewhere (by simp [wide]) (by simp [wide]),
      Walker.walk_elsewhere name _ piece (.inl (by dsimp only; omega)), fun _ => rfl⟩
  case beyond =>
    have position := Region.of_eq_beyond_iff.mp found
    simp only [width, totalSectors] at position
    exact ⟨_, [], write_elsewhere (by simp [wide]) (by simp [wide]),
      Walker.walk_elsewhere name _ piece (.inr (by dsimp only; omega)), fun _ => rfl⟩
  case rootDir =>
    have position := Region.of_eq_rootDir_iff.mp found
    simp only [width, show rootStart = 33 from rfl, show rootSectors = 32 from rfl] at position
    obtain ⟨slot, walked, none⟩ := Walker.walk_directory name
      ⟨place, [], file, ram.bytes⟩ piece (by dsimp only; omega)
      (by dsimp only; omega) rfl
    refine ⟨_, slot, write_rootDir wide, ?_, none⟩
    rw [walked, ram.length_bytes]
  case data =>
    have position := Region.of_eq_data_iff.mp found
    have walked := walk_data_sector name file ram.bytes piece position.1 position.2 inside
    by_cases before : clusterOf index < file.cluster.toNat
    · rw [if_neg (by omega)] at walked
      exact ⟨⟨.discarded, file, ram, [.writeBeforeFile (clusterOf index) file.cluster]⟩, [],
        by rw [write_data wide, if_pos before], walked, fun _ => rfl⟩
    · rw [if_pos (by omega)] at walked
      have narrow : offsetInCluster index + place % sectorSize < 1 <<< 64 := by
        simp only [offsetInCluster, width, show sectorsPerCluster = 8 from rfl]
        omega
      obtain ⟨kept, keptIs, laid⟩ :=
        write_overwrites ram (offsetInCluster index + place % sectorSize) piece
      rw [← laid] at walked
      obtain ⟨notes, storedIs⟩ : ∃ notes,
          write name file ram sector (place % sectorSize) piece =
            .ok ⟨.stored, file, kept, notes⟩ := by
        rw [write_data wide, if_neg before, Word.add_of_lt narrow]
        simp only [keptIs, bind, Except.bind, pure, Except.pure]
        exact ⟨_, rfl⟩
      exact ⟨_, [], storedIs, walked, fun _ => rfl⟩

end ScriptDrive.Volume
