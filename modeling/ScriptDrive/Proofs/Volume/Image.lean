import ScriptDrive.Volume.Window

/-!
# Sectors as a whole

`image` gives the 512 bytes of a sector at once, and `readInto_eq_window` says that a window on a sector
is a part of its image, wherever it begins and ends.  `stretch` is the same for bytes counted from the
front of the volume, so that a run of pieces can be put together without regard to sectors.
-/

set_option autoImplicit false

namespace ScriptDrive.Volume

variable {capacity : Nat}

def image (identity : Identity) (file : TrackedFile) (ram : RamDisk capacity) (sector : Nat) :
    List UInt8 :=
  match Region.of sector with
  | .boot =>
    (BootSector.parameters identity).rightpad BootSector.closingOffset 0 ++ BootSector.closing
  | .table _ 0 => tableHead.rightpad sectorSize 0
  | .rootDir 0 => (DirEntry.ofFile identity.fileName file).encode.rightpad sectorSize 0
  | .data index => ((ram.bytes.drop (index * sectorSize)).take sectorSize).rightpad sectorSize 0
  | .table .. | .rootDir _ | .beyond => List.replicate sectorSize 0

def images (identity : Identity) (file : TrackedFile) (ram : RamDisk capacity)
    (first count : Nat) : List UInt8 :=
  (List.range count).flatMap fun index => image identity file ram (first + index)

def stretch (identity : Identity) (file : TrackedFile) (ram : RamDisk capacity)
    (start count : Nat) : List UInt8 :=
  (List.range count).map fun index =>
    (image identity file ram ((start + index) / sectorSize)).getD ((start + index) % sectorSize) 0

section Image

variable (identity : Identity) (file : TrackedFile) (ram : RamDisk capacity)

@[simp] theorem length_image (sector : Nat) :
    (image identity file ram sector).length = sectorSize := by
  unfold image
  split
  · rw [List.length_append, List.length_rightpad, BootSector.length_parameters]
    rfl
  · rw [List.length_rightpad]
    rfl
  · rw [List.length_rightpad, DirEntry.length_encode]
    rfl
  · rw [List.length_rightpad, List.length_take]
    omega
  · exact List.length_replicate ..
  · exact List.length_replicate ..
  · exact List.length_replicate ..

/-- Laying `source` over a window gives the window on the bytes with `source` laid over them. -/
theorem overlay_window {base source : List UInt8} {offset count start : Nat}
    (fits : start + source.length ≤ base.length) (inside : offset + count ≤ base.length)
    (small : base.length < 1 <<< 64) :
    overlay ((base.drop offset).take count) offset source start =
      .ok (((base.take start ++ source ++ base.drop (start + source.length)).drop offset).take
        count) := by
  have windowLength : ((base.drop offset).take count).length = count := by
    simp only [List.length_take, List.length_drop]
    omega
  have windowEnd : Word.add 64 offset count = .ok (offset + count) := Word.add_of_lt (by omega)
  have sourceEnd : Word.add 64 start source.length = .ok (start + source.length) :=
    Word.add_of_lt (by omega)
  simp only [overlay, windowLength, windowEnd, sourceEnd, bind, Except.bind]
  split
  · rw [Word.sub_of_le (by omega), Word.sub_of_le (by omega), Word.sub_of_le (by omega),
      Word.sub_of_le (by omega)]
    dsimp only
    rw [slice_of_le (by omega) (by omega)]
    dsimp only
    rw [splice_of_le (by omega) (by rw [windowLength]; omega)
      (by simp only [List.length_take, List.length_drop]; omega)]
    congr 1
    apply List.ext_getElem?
    intro position
    simp only [List.getElem?_append, List.getElem?_take, List.getElem?_drop, List.length_take,
      List.length_drop, List.length_append]
    grind
  · simp only [pure, Except.pure]
    congr 1
    apply List.ext_getElem?
    intro position
    simp only [List.getElem?_append, List.getElem?_take, List.getElem?_drop, List.length_take,
      List.length_append]
    grind

theorem window_of_zeros {offset count : Nat} (width : Nat) (inside : offset + count ≤ width) :
    List.replicate count (0 : UInt8) = ((List.replicate width (0 : UInt8)).drop offset).take count := by
  rw [List.drop_replicate, List.take_replicate]
  congr 1
  omega

theorem overlay_zeros {source : List UInt8} {offset count : Nat}
    (fits : source.length ≤ sectorSize) (inside : offset + count ≤ sectorSize) :
    overlay (List.replicate count 0) offset source 0 =
      .ok (((source.rightpad sectorSize 0).drop offset).take count) := by
  have size : (List.replicate sectorSize (0 : UInt8)).length = 512 := List.length_replicate ..
  simp only [sectorSize] at fits inside
  rw [window_of_zeros sectorSize inside,
    overlay_window (by omega) (by omega) (by omega)]
  rw [List.take_zero, List.nil_append, Nat.zero_add, List.drop_replicate]
  rfl

theorem overlay_boot {offset count : Nat} (inside : offset + count ≤ sectorSize) :
    ∃ opened,
      overlay (List.replicate count 0) offset (BootSector.parameters identity) 0 = .ok opened ∧
        overlay opened offset BootSector.closing BootSector.closingOffset =
          .ok ((((BootSector.parameters identity).rightpad BootSector.closingOffset 0 ++
            BootSector.closing).drop offset).take count) := by
  have parametersLength := BootSector.length_parameters identity
  have padded : ((BootSector.parameters identity).rightpad sectorSize 0).length = 512 := by
    rw [List.length_rightpad, parametersLength]
    rfl
  have closingLength : BootSector.closing.length = 2 := rfl
  have front : ((BootSector.parameters identity).rightpad sectorSize 0).take
      BootSector.closingOffset =
        (BootSector.parameters identity).rightpad BootSector.closingOffset 0 := by
    simp only [List.rightpad, sectorSize, BootSector.closingOffset, parametersLength,
      List.take_append, List.take_replicate]
    rw [List.take_of_length_le (by omega)]
    rfl
  have back : ((BootSector.parameters identity).rightpad sectorSize 0).drop
      (BootSector.closingOffset + BootSector.closing.length) = [] :=
    List.drop_eq_nil_of_le (by rw [padded]; decide)
  refine ⟨_, overlay_zeros (by rw [parametersLength]; decide) inside, ?_⟩
  rw [overlay_window (by rw [padded, closingLength]; decide) (by rw [padded]; exact inside)
    (by rw [padded]; decide), front, back, List.append_nil]

/-- A window on a sector is a part of its image, whatever the buffer held before. -/
theorem readInto_eq_window {sector offset : Nat} {buffer : List UInt8}
    (inside : offset + buffer.length ≤ sectorSize) :
    readInto identity file ram sector offset buffer =
      .ok (((image identity file ram sector).drop offset).take buffer.length) := by
  simp only [readInto, cleared_eq]
  generalize buffer.length = count at inside ⊢
  have stop : Word.add 64 offset count = .ok (offset + count) :=
    Word.add_of_lt (by simp only [sectorSize] at inside; omega)
  have narrow : ¬ sectorSize < offset + count := by omega
  have blank := window_of_zeros sectorSize inside
  simp only [image, stop, Region.locate_eq, bind, Except.bind, if_neg narrow]
  rcases found : Region.of sector with _ | ⟨copy, _ | index⟩ | ⟨_ | index⟩ | index | _
  · obtain ⟨opened, openedIs, closedIs⟩ := overlay_boot identity inside
    simp only [openedIs, closedIs]
  · exact overlay_zeros (by decide) inside
  · exact congrArg Except.ok blank
  · exact overlay_zeros (by rw [DirEntry.length_encode]; decide) inside
  · exact congrArg Except.ok blank
  · have onVolume := (Region.of_eq_data_iff.mp found).2
    have position := (Region.of_eq_data_iff.mp found).1
    have lengths := ram.length_bytes
    simp only [totalSectors, sectorSize] at onVolume inside
    have start : Word.mul 64 index sectorSize = .ok (index * sectorSize) :=
      Word.mul_of_lt (by simp only [sectorSize]; omega)
    have place : Word.add 64 (index * sectorSize) offset = .ok (index * sectorSize + offset) :=
      Word.add_of_lt (by simp only [sectorSize]; omega)
    simp only [start, place]
    rw [ram.readInto_eq, List.length_replicate]
    congr 1
    apply List.ext_getElem?
    intro byte
    simp only [List.rightpad, sectorSize, List.getElem?_append, List.getElem?_take,
      List.getElem?_drop, List.length_take, List.length_drop, List.getElem?_replicate]
    grind
  · exact congrArg Except.ok blank

theorem read_eq_window {sector offset count : Nat} (inside : offset + count ≤ sectorSize) :
    read identity file ram sector offset count =
      .ok (((image identity file ram sector).drop offset).take count) := by
  rw [read, readInto_eq_window identity file ram (by rw [List.length_replicate]; exact inside),
    List.length_replicate]

theorem images_succ (first count : Nat) :
    images identity file ram first (count + 1) =
      images identity file ram first count ++ image identity file ram (first + count) := by
  simp only [images, List.range_succ, List.flatMap_append, List.flatMap_singleton]

theorem length_images (first count : Nat) :
    (images identity file ram first count).length = sectorSize * count := by
  induction count with
  | zero => rfl
  | succ count countInduction =>
    rw [images_succ, List.length_append, countInduction, length_image]
    rfl

@[simp] theorem length_stretch (start count : Nat) :
    (stretch identity file ram start count).length = count := by
  simp [stretch]

@[simp] theorem stretch_zero (start : Nat) : stretch identity file ram start 0 = [] := rfl

theorem stretch_add (start first second : Nat) :
    stretch identity file ram start (first + second) =
      stretch identity file ram start first ++ stretch identity file ram (start + first) second := by
  simp only [stretch, List.range_add, List.map_append, List.map_map]
  congr 1
  apply List.map_congr_left
  intro index _
  simp only [Function.comp_apply, Nat.add_assoc]

/-- A stretch inside one sector is a part of the sector's image. -/
theorem stretch_eq_window (start count : Nat)
    (inside : start % sectorSize + count ≤ sectorSize) :
    stretch identity file ram start count =
      ((image identity file ram (start / sectorSize)).drop (start % sectorSize)).take count := by
  have size := length_image identity file ram (start / sectorSize)
  simp only [sectorSize] at inside size ⊢
  apply List.ext_getElem?
  intro index
  by_cases past : count ≤ index
  · rw [List.getElem?_eq_none (by simpa using past), List.getElem?_take, if_neg (by omega)]
  · have sector : (start + index) / 512 = start / 512 := by omega
    have within : (start + index) % 512 = start % 512 + index := by omega
    have present : start % 512 + index < (image identity file ram (start / 512)).length := by omega
    simp only [stretch, sectorSize, List.getElem?_map, List.getElem?_take, List.getElem?_drop]
    rw [List.getElem?_range (by omega), if_pos (by omega), Option.map_some, sector, within,
      List.getD_eq_getElem?_getD, List.getElem?_eq_getElem present, Option.getD_some]

theorem image_eq_stretch (sector : Nat) :
    image identity file ram sector = stretch identity file ram (sectorSize * sector) sectorSize := by
  have within : sectorSize * sector % sectorSize = 0 := Nat.mul_mod_right ..
  have found : sectorSize * sector / sectorSize = sector :=
    Nat.mul_div_cancel_left _ (by decide)
  rw [stretch_eq_window _ _ _ _ _ (by omega), within, found, List.drop_zero,
    List.take_of_length_le (by simp)]

theorem images_eq_stretch (first count : Nat) :
    images identity file ram first count =
      stretch identity file ram (sectorSize * first) (sectorSize * count) := by
  induction count with
  | zero => rfl
  | succ count countInduction =>
    rw [images_succ, countInduction, image_eq_stretch, Nat.mul_add, Nat.mul_succ, stretch_add]

theorem images_take {first count length : Nat} (short : length ≤ sectorSize * count) :
    (images identity file ram first count).take length =
      stretch identity file ram (sectorSize * first) length := by
  obtain ⟨rest, total⟩ := Nat.exists_eq_add_of_le short
  rw [images_eq_stretch, total, stretch_add, List.take_left' (length_stretch ..)]

/-- A stretch of the data region is a part of the memory, followed by zeros. -/
theorem stretch_data (start count : Nat) (below : dataStart * sectorSize ≤ start)
    (above : start + count ≤ totalSectors * sectorSize) :
    stretch identity file ram start count =
      (List.range count).map fun index =>
        ram.bytes.getD (start - dataStart * sectorSize + index) 0 := by
  apply List.map_congr_left
  intro index present
  rw [List.mem_range] at present
  have width : sectorSize = 512 := rfl
  have front : dataStart * sectorSize = 65 * 512 := rfl
  have total : totalSectors * sectorSize = 16384 * 512 := rfl
  have found : Region.of ((start + index) / sectorSize) =
      .data ((start + index) / sectorSize - dataStart) := by
    rw [Region.of_eq_data_iff, width, show dataStart = 65 from rfl,
      show totalSectors = 16384 from rfl]
    omega
  have place : ((start + index) / sectorSize - dataStart) * sectorSize +
      (start + index) % sectorSize = start - dataStart * sectorSize + index := by
    rw [front, width, show dataStart = 65 from rfl]
    omega
  have within : (start + index) % sectorSize < sectorSize := Nat.mod_lt _ (by decide)
  simp only [image, found, ← place, List.rightpad, List.getD_eq_getElem?_getD,
    List.getElem?_append, List.getElem?_take, List.getElem?_drop, List.getElem?_replicate,
    List.length_take, List.length_drop, within, if_true]
  generalize ((start + index) / sectorSize - dataStart) * sectorSize = first
  generalize (start + index) % sectorSize = inSector at within ⊢
  split
  · rfl
  · have past : ram.bytes.length ≤ first + inSector := by omega
    rw [List.getElem?_eq_none past]
    split <;> rfl

end Image

theorem image_min_word (identity : Identity) (file : TrackedFile) (ram : RamDisk capacity)
    (sector : Nat) :
    image identity file ram (min sector (1 <<< 32 - 1)) = image identity file ram sector := by
  unfold image
  rw [Region.of_min_word]

/-- Of the file only its cluster and its size are shown. -/
theorem image_congr (identity : Identity) {file other : TrackedFile} (ram : RamDisk capacity)
    (sector : Nat) (cluster : other.cluster = file.cluster) (size : other.size = file.size) :
    image identity other ram sector = image identity file ram sector := by
  have entry : DirEntry.ofFile identity.fileName other = DirEntry.ofFile identity.fileName file := by
    simp only [DirEntry.ofFile, cluster, size]
  unfold image
  rw [entry]

/-- Only the front of the first directory sector shows the file. -/
theorem image_window_same_file {identity : Identity} {ram : RamDisk capacity}
    {sector within count : Nat} (file other : TrackedFile)
    (hidden : Region.of sector = .rootDir 0 → dirEntrySize ≤ within) :
    ((image identity file ram sector).drop within).take count =
      ((image identity other ram sector).drop within).take count := by
  unfold image
  rcases found : Region.of sector with _ | ⟨copy, _ | index⟩ | ⟨_ | index⟩ | index | _
  case rootDir.zero =>
    have behind := hidden found
    have gone (shown : TrackedFile) :
        (DirEntry.ofFile identity.fileName shown).encode.drop within = [] :=
      List.drop_eq_nil_of_le (by rw [DirEntry.length_encode]; exact behind)
    simp only [List.rightpad, List.drop_append, gone, DirEntry.length_encode]
  all_goals rfl

end ScriptDrive.Volume
