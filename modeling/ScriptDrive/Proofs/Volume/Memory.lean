import ScriptDrive.Proofs.Volume.Walk

/-!
# What the memory holds after loads and writes

The memory can be loaded anew and written to in any order, at any offset and with any data.  `Change` is
one such call; `Change.puts?` says which byte it puts at a place, if it comes there at all, and
`perform_puts` that this byte, or else the one from before, is what the memory then holds.  By induction on
the calls, `performAll_latest` says that in the end each place holds the byte that was put there last, and
`reads_latest_bytes` what a read then finds at any offset and in a buffer of any length.
-/

set_option autoImplicit false

namespace ScriptDrive.RamDisk

variable {capacity : Nat}

inductive Change where
  | load (contents : List UInt8)
  | write (offset : Nat) (data : List UInt8)
  deriving DecidableEq

namespace Change

/-- Whether a change comes to a place: data that are written only to as many places as there are bytes, and
contents that are loaded to every place, since zeros follow them. -/
def Covers (place : Nat) : Change → Prop
  | .load _ => True
  | .write offset data => offset ≤ place ∧ place < offset + data.length

def puts? (place : Nat) : Change → Option UInt8
  | .load contents => some (contents.getD place 0)
  | .write offset data => if offset ≤ place then data[place - offset]? else none

/-- How many of the bytes that a change brings have a place in the memory. -/
def kept (capacity : Nat) : Change → Nat
  | .load contents => min contents.length capacity
  | .write offset data => (List.range data.length).countP (offset + · < capacity)

theorem puts?_eq_none_iff {place : Nat} {change : Change} :
    change.puts? place = none ↔ ¬ change.Covers place := by
  cases change with
  | load contents => simp [puts?, Covers]
  | write offset data =>
    rw [puts?, Covers]
    split
    · rw [List.getElem?_eq_none_iff]
      omega
    · exact iff_of_true rfl (by omega)

end Change

def latest? (place : Nat) (changes : List Change) : Option UInt8 :=
  changes.reverse.findSome? (Change.puts? place)

def perform (disk : RamDisk capacity) : Change → Except Fault (RamDisk capacity × Nat)
  | .load contents => disk.load contents
  | .write offset data => disk.write offset data

def performAll (disk : RamDisk capacity) : List Change → Except Fault (RamDisk capacity × List Nat)
  | [] => .ok (disk, [])
  | change :: later => do
    let (next, count) ← disk.perform change
    let (last, counts) ← next.performAll later
    return (last, count :: counts)

/-! ## One change -/

theorem countP_add_lt (offset count capacity : Nat) :
    (List.range count).countP (offset + · < capacity) = min count (capacity - offset) := by
  induction count with
  | zero => rw [Nat.zero_min]; rfl
  | succ count countInduction =>
    rw [List.range_succ, List.countP_append, countInduction, List.countP_singleton]
    simp only [decide_eq_true_eq]
    split <;> omega

/-- A change succeeds, and each place holds the byte that it puts there or, if it does not come there, the
byte from before. -/
theorem perform_puts (disk : RamDisk capacity) (change : Change) :
    ∃ next, disk.perform change = .ok (next, change.kept capacity) ∧
      ∀ place < capacity, next.bytes[place]? = (change.puts? place).or disk.bytes[place]? := by
  cases change with
  | load contents =>
    obtain ⟨loaded, loadedIs, bytes⟩ := disk.load_eq contents
    refine ⟨loaded, loadedIs, fun place inside => ?_⟩
    rw [Change.puts?, Option.some_or, bytes, List.getD_eq_getElem?_getD, List.getElem?_append,
      List.length_take, List.getElem?_take, if_pos inside, List.getElem?_replicate]
    by_cases present : place < contents.length
    · rw [if_pos (by omega), List.getElem?_eq_getElem present, Option.getD_some]
    · rw [if_neg (by omega), if_pos (by omega), List.getElem?_eq_none (by omega), Option.getD_none]
  | write offset data =>
    obtain ⟨written, writtenIs, bytes⟩ := Volume.write_overwrites disk offset data
    refine ⟨written, ?_, fun place inside => ?_⟩
    · rw [Change.kept, countP_add_lt]
      exact writtenIs
    · rw [bytes, Volume.getElem?_overwrite, disk.length_bytes]
      by_cases covered : offset ≤ place ∧ place < offset + data.length
      · have present : place - offset < data.length := by omega
        rw [if_pos ⟨covered.1, covered.2, inside⟩, Change.puts?, if_pos covered.1,
          List.getElem?_eq_getElem present, Option.some_or]
      · have nothing : (Change.write offset data).puts? place = none :=
          Change.puts?_eq_none_iff.mpr covered
        rw [if_neg (by omega), nothing, Option.none_or]

/-- A change leaves alone every place that it does not come to. -/
theorem perform_keeps {disk next : RamDisk capacity} {change : Change} {count place : Nat}
    (performed : disk.perform change = .ok (next, count)) (elsewhere : ¬ change.Covers place) :
    next.bytes[place]? = disk.bytes[place]? := by
  obtain ⟨made, madeIs, puts⟩ := disk.perform_puts change
  rw [performed] at madeIs
  cases madeIs
  by_cases inside : place < capacity
  · rw [puts place inside, Change.puts?_eq_none_iff.mpr elsewhere, Option.none_or]
  · rw [List.getElem?_eq_none (by rw [next.length_bytes]; omega),
      List.getElem?_eq_none (by rw [disk.length_bytes]; omega)]

/-! ## Any number of changes -/

theorem latest?_cons (place : Nat) (change : Change) (later : List Change) :
    latest? place (change :: later) = (latest? place later).or (change.puts? place) := by
  rw [latest?, List.reverse_cons, List.findSome?_append, List.findSome?_singleton]
  rfl

theorem performAll_latest (disk : RamDisk capacity) (changes : List Change) :
    ∃ last, disk.performAll changes = .ok (last, changes.map (Change.kept capacity)) ∧
      ∀ place < capacity, last.bytes[place]? = (latest? place changes).or disk.bytes[place]? := by
  induction changes generalizing disk with
  | nil => exact ⟨disk, rfl, fun _ _ => rfl⟩
  | cons change later laterInduction =>
    obtain ⟨next, performed, puts⟩ := disk.perform_puts change
    obtain ⟨last, performedLater, putLast⟩ := laterInduction next
    refine ⟨last, ?_, fun place inside => ?_⟩
    · simp only [performAll, performed, performedLater, bind, Except.bind, pure, Except.pure,
        List.map_cons]
    · rw [putLast place inside, puts place inside, latest?_cons, Option.or_assoc]

/-! ## Reading -/

/-- Whatever the buffer held, it is filled with the bytes from the offset on, and with zeros for those past
the end. -/
theorem readInto_eq_bytes (disk : RamDisk capacity) (offset : Nat) (buffer : List UInt8) :
    disk.readInto offset buffer =
      .ok ((List.range buffer.length).map fun index => disk.bytes.getD (offset + index) 0) := by
  have lengths := disk.length_bytes
  rw [disk.readInto_eq]
  congr 1
  apply List.ext_getElem?
  intro index
  simp only [List.getD_eq_getElem?_getD, List.getElem?_append, List.getElem?_map, List.getElem?_take,
    List.getElem?_drop, List.getElem?_replicate, List.length_take, List.length_drop]
  grind

/-- Loads and writes in any order, at any offsets, all succeed, and each gives the number of its bytes that
have a place in the memory.  A read then finds at each place of the memory the byte of the last write that
covers it since the last load, else what was loaded there, else zero, and past the end only zeros.  Nor does
one more change reach beyond the places that it covers. -/
theorem reads_latest_bytes (fits : capacity ≤ clusterSize) (changes : List Change) :
    ∃ disk, (blank fits).performAll changes = .ok (disk, changes.map (Change.kept capacity)) ∧
      (∀ (offset : Nat) (buffer : List UInt8), disk.readInto offset buffer =
        .ok ((List.range buffer.length).map fun index =>
          if offset + index < capacity then (latest? (offset + index) changes).getD 0 else 0)) ∧
      ∀ change : Change, ∃ next, disk.perform change = .ok (next, change.kept capacity) ∧
        ∀ place, ¬ change.Covers place → next.bytes[place]? = disk.bytes[place]? := by
  obtain ⟨disk, performed, latest⟩ := (blank fits).performAll_latest changes
  refine ⟨disk, performed, fun offset buffer => ?_, fun change => ?_⟩
  · rw [disk.readInto_eq_bytes]
    congr 1
    apply List.map_congr_left
    intro index _
    rw [List.getD_eq_getElem?_getD]
    split
    case isTrue inside =>
      have zero : (blank fits).bytes[offset + index]? = some 0 := by
        rw [blank, List.getElem?_replicate, if_pos inside]
      rw [latest _ inside, zero]
      cases latest? (offset + index) changes <;> rfl
    case isFalse past =>
      rw [List.getElem?_eq_none (by rw [disk.length_bytes]; omega), Option.getD_none]
  · obtain ⟨next, changed, -⟩ := disk.perform_puts change
    exact ⟨next, changed, fun place elsewhere => perform_keeps changed elsewhere⟩

/-- A memory of eight bytes that is written to across its end, loaded with less than before, and written to
at the largest offset there is. -/
theorem reads_latest_bytes_reloaded :
    let changes : List Change :=
      [.load [9, 9, 9, 9, 9], .write 6 [1, 2, 3, 4], .load [5, 5], .write 1 [7], .write (1 <<< 64 - 1) [8]]
    ∃ disk : RamDisk 8,
      (blank (show 8 ≤ clusterSize by decide)).performAll changes = .ok (disk, [5, 2, 2, 1, 0]) ∧
        disk.readInto 0 [1, 1, 1, 1] = .ok [5, 7, 0, 0] ∧
        disk.readInto 6 [1, 1, 1] = .ok [0, 0, 0] ∧
        disk.readInto (1 <<< 64 - 1) [1, 1] = .ok [0, 0] := by
  intro changes
  obtain ⟨disk, performed, reads, -⟩ :=
    reads_latest_bytes (show 8 ≤ clusterSize by decide) changes
  refine ⟨disk, performed, ?_, ?_, ?_⟩
  · exact (reads 0 [1, 1, 1, 1]).trans (congrArg Except.ok (by decide))
  · exact (reads 6 [1, 1, 1]).trans (congrArg Except.ok (by decide))
  · exact (reads (1 <<< 64 - 1) [1, 1]).trans (congrArg Except.ok (by decide))

end ScriptDrive.RamDisk
