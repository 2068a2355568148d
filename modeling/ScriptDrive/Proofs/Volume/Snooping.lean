import ScriptDrive.Proofs.Volume.Directory
import ScriptDrive.Identity

/-!
# What a directory write tells

A piece of directory is a row of slots, and what they tell about the file can be said of their bytes
alone: a slot counts when it is in use under the file's name and has a cluster, and the last slot that
counts decides where the file is.  `snoopSlot_tells` says this of one slot and `snooped_front` of the first
slots of a piece, by induction on their number: the file is always where the last slot taken put it, and
it is marked as soon as one of them put it elsewhere, even if a later one puts it back.
`snooped_directory` is the whole write.
-/

set_option autoImplicit false

namespace ScriptDrive.Volume

/-! ## What the bytes say -/

@[ext] structure Place where
  cluster : Nat
  size : Nat
  deriving DecidableEq

def Place.ofFile (file : TrackedFile) : Place :=
  ⟨file.cluster.toNat, file.size.toNat⟩

def Place.ofSlot (capacity : Nat) (slot : List UInt8) : Place where
  cluster := littleEndianValue ((slot.drop 26).take 2)
  size := min (littleEndianValue ((slot.drop 28).take 4)) capacity

def slotAt (data : List UInt8) (number : Nat) : List UInt8 :=
  (data.drop (dirEntrySize * number)).take dirEntrySize

/-- The slot tells where the file of a name is. -/
structure Taken (name : Octets 11) (slot : List UInt8) : Prop where
  inUse : slot.head? ≠ some 0xE5
  named : sameLetters (slot.take 11) name.bytes = true
  placed : littleEndianValue ((slot.drop 26).take 2) ≠ 0

instance (name : Octets 11) (slot : List UInt8) : Decidable (Taken name slot) :=
  decidable_of_iff
    (slot.head? ≠ some 0xE5 ∧ sameLetters (slot.take 11) name.bytes = true ∧
      littleEndianValue ((slot.drop 26).take 2) ≠ 0)
    (Iff.intro (fun taken => ⟨taken.1, taken.2.1, taken.2.2⟩)
      fun taken => ⟨taken.inUse, taken.named, taken.placed⟩)

section Telling

variable (name : Octets 11) (capacity : Nat) (file : TrackedFile) (data : List UInt8)

def taken (count : Nat) : List Nat :=
  (List.range count).filter fun number => Taken name (slotAt data number)

/-- Where the first `count` slots leave the file: where the last of them taken puts it, or where it was. -/
def placeAfter (count : Nat) : Place :=
  (taken name data count).getLast?.elim (Place.ofFile file) fun number =>
    Place.ofSlot capacity (slotAt data number)

/-- The slot puts the file elsewhere than the slots before it left it. -/
def Moves (number : Nat) : Prop :=
  Taken name (slotAt data number) ∧
    Place.ofSlot capacity (slotAt data number) ≠ placeAfter name capacity file data number

instance (number : Nat) : Decidable (Moves name capacity file data number) :=
  inferInstanceAs (Decidable (_ ∧ _))

theorem placeAfter_succ (count : Nat) :
    placeAfter name capacity file data (count + 1) =
      if Taken name (slotAt data count) then Place.ofSlot capacity (slotAt data count)
      else placeAfter name capacity file data count := by
  have more : taken name data (count + 1) =
      taken name data count ++ if Taken name (slotAt data count) then [count] else [] := by
    simp only [taken, List.range_succ, List.filter_append, List.filter_cons, List.filter_nil,
      decide_eq_true_eq]
  by_cases counts : Taken name (slotAt data count)
  · rw [if_pos counts, placeAfter, more, if_pos counts, List.getLast?_concat, Option.elim_some]
  · rw [if_neg counts, placeAfter, more, if_neg counts, List.append_nil, placeAfter]

end Telling

/-! ## One slot -/

section Slot

variable (name : Octets 11) {capacity : Nat} (file : TrackedFile) (slot : Octets 32)

theorem head?_slot :
    slot.bytes.head? = some ((DirEntry.ofSlot slot).name.byteAt 0 (by decide)) := by
  obtain ⟨bytes, length⟩ := slot
  cases bytes with
  | nil => cases length
  | cons first rest => rfl

theorem places_iff_taken : (DirEntry.ofSlot slot).places name = true ↔ Taken name slot.bytes := by
  have cluster : (DirEntry.ofSlot slot).cluster.toNat =
      littleEndianValue ((slot.bytes.drop 26).take 2) :=
    toNat_littleWord16 slot.bytes 26
  have placed : (DirEntry.ofSlot slot).cluster ≠ 0 ↔
      littleEndianValue ((slot.bytes.drop 26).take 2) ≠ 0 := by
    rw [← cluster, Ne, ← UInt16.toNat_inj, UInt16.toNat_zero]
  have inUse : (DirEntry.ofSlot slot).name.byteAt 0 (by decide) ≠ DirEntry.deletedMark ↔
      slot.bytes.head? ≠ some 0xE5 := by
    rw [head?_slot]
    exact not_congr Option.some_inj.symm
  have letters : (DirEntry.ofSlot slot).name.bytes = slot.bytes.take 11 := rfl
  simp only [DirEntry.places, DirEntry.isNamed, Bool.and_eq_true, bne_iff_ne, inUse, letters, placed]
  constructor
  · rintro ⟨⟨used, named⟩, somewhere⟩
    exact ⟨used, named, somewhere⟩
  · intro taken
    exact ⟨⟨taken.inUse, taken.named⟩, taken.placed⟩

theorem toNat_min (left right : UInt32) : (min left right).toNat = min left.toNat right.toNat := by
  have chosen : min left right = if left ≤ right then left else right := rfl
  by_cases least : left ≤ right
  · rw [chosen, if_pos least, Nat.min_eq_left (UInt32.le_iff_toNat_le.mp least)]
  · have greater : right.toNat ≤ left.toNat :=
      UInt32.le_iff_toNat_le.mp ((UInt32.le_total left right).resolve_left least)
    rw [chosen, if_neg least, Nat.min_eq_right greater]

theorem place_relocate (small : capacity ≤ 4096) :
    Place.ofFile (file.relocate (DirEntry.ofSlot slot).cluster
      (min (DirEntry.ofSlot slot).size (UInt32.ofNat capacity))) = Place.ofSlot capacity slot.bytes := by
  have room : (UInt32.ofNat capacity).toNat = capacity :=
    UInt32.toNat_ofNat_of_lt' (by simp only [UInt32.size]; omega)
  have size : (DirEntry.ofSlot slot).size.toNat = littleEndianValue ((slot.bytes.drop 28).take 4) :=
    toNat_littleWord32 slot.bytes 28
  apply Place.ext
  · exact toNat_littleWord16 slot.bytes 26
  · simp only [Place.ofFile, Place.ofSlot, TrackedFile.relocate, toNat_min, room, size]

theorem dirty_relocate (cluster : UInt16) (size : UInt32) :
    (file.relocate cluster size).dirty = true ↔
      file.dirty = true ∨ Place.ofFile (file.relocate cluster size) ≠ Place.ofFile file := by
  have moved : Place.ofFile (file.relocate cluster size) ≠ Place.ofFile file ↔
      cluster ≠ file.cluster ∨ size ≠ file.size := by
    rw [Ne, Place.ext_iff, Decidable.not_and_iff_or_not]
    simp only [Place.ofFile, TrackedFile.relocate, UInt16.toNat_inj, UInt32.toNat_inj, Ne]
  rw [moved]
  simp only [TrackedFile.relocate, Bool.or_eq_true, bne_iff_ne]

/-- What one slot does to the file. -/
theorem snoopSlot_tells (small : capacity ≤ 4096) :
    Place.ofFile (snoopSlot name capacity file slot).1 =
        (if Taken name slot.bytes then Place.ofSlot capacity slot.bytes else Place.ofFile file) ∧
      ((snoopSlot name capacity file slot).1.dirty = true ↔
        file.dirty = true ∨
          (Taken name slot.bytes ∧ Place.ofSlot capacity slot.bytes ≠ Place.ofFile file)) := by
  rw [snoopSlot_eq]
  by_cases counts : Taken name slot.bytes
  · rw [if_pos ((places_iff_taken name slot).mpr counts), if_pos counts, dirty_relocate,
      place_relocate file slot small]
    exact ⟨rfl, by simp only [counts, true_and]⟩
  · have passed : ¬ (DirEntry.ofSlot slot).places name = true := fun placed =>
      counts ((places_iff_taken name slot).mp placed)
    rw [if_neg passed, if_neg counts]
    exact ⟨rfl, by simp only [counts, false_and, or_false]⟩

end Slot

/-! ## One slot after the other -/

theorem bytes_slots (data : List UInt8) :
    (slots data).map Octets.bytes = (List.range (data.length / dirEntrySize)).map (slotAt data) := by
  have width : dirEntrySize = 32 := rfl
  fun_induction slots data with
  | case1 data whole restInduction =>
    have shift (number : Nat) : slotAt (data.drop 32) number = slotAt data (number + 1) := by
      rw [slotAt, slotAt, List.drop_drop, width, Nat.mul_succ, Nat.add_comm]
    have count : data.length / dirEntrySize = (data.drop 32).length / dirEntrySize + 1 := by
      rw [List.length_drop, width]
      omega
    have first : (Octets.part data 0 32 whole).bytes = slotAt data 0 := rfl
    rw [count, List.range_succ_eq_map, List.map_cons, List.map_cons, List.map_map, restInduction, first]
    congr 1
    exact List.map_congr_left fun number _ => shift number
  | case2 data short =>
    have none : data.length / dirEntrySize = 0 := Nat.div_eq_of_lt (Nat.lt_of_not_le short)
    rw [none]
    rfl

theorem length_slots (data : List UInt8) : (slots data).length = data.length / dirEntrySize := by
  have same := congrArg List.length (bytes_slots data)
  simpa only [List.length_map, List.length_range] using same

theorem bytes_slot {data : List UInt8} {number : Nat} (inside : number < (slots data).length) :
    (slots data)[number].bytes = slotAt data number := by
  have inRange : number < data.length / dirEntrySize := length_slots data ▸ inside
  have same := congrArg (fun all => all[number]?) (bytes_slots data)
  simpa only [List.getElem?_map, List.getElem?_eq_getElem inside, List.getElem?_range inRange,
    Option.map_some, Option.some_inj] using same

theorem snoop_append (name : Octets 11) (capacity : Nat) (file : TrackedFile)
    (front back : List (Octets 32)) :
    (snoop name capacity file (front ++ back)).1 =
      (snoop name capacity (snoop name capacity file front).1 back).1 := by
  induction front generalizing file with
  | nil => rfl
  | cons slot rest restInduction =>
    simp only [List.cons_append, snoop]
    exact restInduction (snoopSlot name capacity file slot).1

section Row

variable (name : Octets 11) {capacity : Nat} (file : TrackedFile) (data : List UInt8)

/-- The file as the first slots of a piece of directory leave it. -/
theorem snooped_front (small : capacity ≤ 4096) {count : Nat} (inside : count ≤ (slots data).length) :
    Place.ofFile (snoop name capacity file ((slots data).take count)).1 =
        placeAfter name capacity file data count ∧
      ((snoop name capacity file ((slots data).take count)).1.dirty = true ↔
        file.dirty = true ∨ ∃ number < count, Moves name capacity file data number) := by
  induction count with
  | zero =>
    refine ⟨rfl, ?_⟩
    simp only [List.take_zero, snoop, Nat.not_lt_zero, false_and, exists_false, or_false]
  | succ count countInduction =>
    obtain ⟨place, dirty⟩ := countInduction (Nat.le_of_succ_le inside)
    have next : (snoop name capacity file ((slots data).take (count + 1))).1 =
        (snoopSlot name capacity (snoop name capacity file ((slots data).take count)).1
          (slots data)[count]).1 := by
      rw [List.take_succ_eq_append_getElem inside, snoop_append]
      rfl
    obtain ⟨placeNext, dirtyNext⟩ := snoopSlot_tells name
      (snoop name capacity file ((slots data).take count)).1 (slots data)[count] small
    rw [bytes_slot, place] at placeNext dirtyNext
    rw [next, placeNext, dirtyNext, dirty, placeAfter_succ, or_assoc]
    refine ⟨rfl, or_congr_right ?_⟩
    constructor
    · rintro (⟨number, before, moves⟩ | moves)
      · exact ⟨number, Nat.lt_succ_of_lt before, moves⟩
      · exact ⟨count, Nat.lt_succ_self count, moves⟩
    · rintro ⟨number, before, moves⟩
      rcases Nat.lt_succ_iff_lt_or_eq.mp before with earlier | same
      · exact Or.inl ⟨number, earlier, moves⟩
      · rw [same] at moves
        exact Or.inr moves

/-- A write to the directory leaves the memory alone, wherever in the directory it goes.  The last slot
taken says where the file is, a rest shorter than a slot says nothing, and the mark is set by any slot
that moved the file on the way. -/
theorem snooped_directory (ram : RamDisk capacity) :
    ∃ written : Written capacity,
      (∀ index offset, index < rootSectors →
        write name file ram (rootStart + index) offset data = .ok written) ∧
      written.outcome = .snooped ∧ written.ram = ram ∧
      Place.ofFile written.file =
        placeAfter name capacity file data (data.length / dirEntrySize) ∧
      (written.file.dirty = true ↔
        file.dirty = true ∨
          ∃ number < data.length / dirEntrySize, Moves name capacity file data number) := by
  have all := snooped_front name file data ram.capacity_le_4096 (Nat.le_refl (slots data).length)
  rw [List.take_length, length_slots] at all
  exact ⟨⟨.snooped, (snoop name capacity file (slots data)).1, ram,
    (snoop name capacity file (slots data)).2⟩, fun index offset inside =>
      write_rootDir (Region.of_eq_rootDir_iff.mpr ⟨rfl, inside⟩), rfl, rfl, all⟩

/-- A deleted entry and one without a cluster say nothing, and neither does the cut one at the end.  Of
the two between them the first moves the file and cuts its size down, and the second, in small letters,
puts it back where it was: only the mark is left. -/
theorem snooped_directory_there_and_back :
    let identity : Identity := {}
    let entry (cluster : UInt16) (size : UInt32) : List UInt8 :=
      (DirEntry.ofFile identity.fileName { cluster := cluster, size := size }).encode
    let data := 0xE5 :: (entry 9 9).drop 1 ++ entry 0 0 ++ entry 6 100 ++
      ascii "main    py " ++ (entry 2 10).drop 11 ++ (entry 7 7).take 20
    let ram := RamDisk.blank (by decide : 60 ≤ clusterSize)
    ∃ written, write identity.fileName { size := 10 } ram (rootStart + 3) 64 data = .ok written ∧
      placeAfter identity.fileName 60 { size := 10 } data 3 = ⟨6, 60⟩ ∧
      Place.ofFile written.file = ⟨2, 10⟩ ∧ written.file.dirty = true := by
  intro identity entry data ram
  obtain ⟨written, same, -, -, place, dirty⟩ :=
    snooped_directory identity.fileName { size := 10 } data ram
  refine ⟨written, same 3 64 (by decide), by decide +kernel, place.trans (by decide +kernel),
    dirty.mpr (Or.inr ⟨2, by decide +kernel, by decide +kernel⟩)⟩

end Row

end ScriptDrive.Volume
