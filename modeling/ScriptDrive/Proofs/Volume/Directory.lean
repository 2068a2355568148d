import ScriptDrive.Volume.HostWrite

/-!
# What a directory says of the file

Of all the bytes a host writes to the directory only a few entries count: those in use under the file's
name that have a cluster.  `placings` lists them, and `snoop_eq_foldl` says that the file goes from one
to the next.  A directory that holds one entry and zeros behind it has no other.
-/

set_option autoImplicit false

namespace ScriptDrive

def DirEntry.places (entry : DirEntry) (name : Octets 11) : Bool :=
  entry.isNamed name && entry.cluster != 0

namespace Volume

def placings (name : Octets 11) (slots : List (Octets 32)) : List DirEntry :=
  (slots.map DirEntry.ofSlot).filter fun entry => entry.places name

section Placings

variable (name : Octets 11)

theorem placings_cons (slot : Octets 32) (rest : List (Octets 32)) :
    placings name (slot :: rest) =
      if (DirEntry.ofSlot slot).places name then DirEntry.ofSlot slot :: placings name rest
      else placings name rest := by
  simp only [placings, List.map_cons, List.filter_cons]

theorem snoopSlot_eq (room : Nat) (file : TrackedFile) (slot : Octets 32) :
    (snoopSlot name room file slot).1 =
      if (DirEntry.ofSlot slot).places name then
        file.relocate (DirEntry.ofSlot slot).cluster
          (min (DirEntry.ofSlot slot).size (UInt32.ofNat room))
      else
        file := by
  simp only [snoopSlot, DirEntry.places]
  by_cases named : (DirEntry.ofSlot slot).isNamed name = true
  · by_cases unplaced : (DirEntry.ofSlot slot).cluster = 0
    · simp only [named, unplaced, bne_self_eq_false, Bool.and_false, if_true, Bool.false_eq_true,
        if_false]
    · have placed : ((DirEntry.ofSlot slot).cluster != 0) = true := bne_iff_ne.mpr unplaced
      simp only [named, unplaced, placed, Bool.and_self, if_true, if_false]
  · simp only [named, Bool.false_and, Bool.false_eq_true, if_false]

/-- Of what is written to a directory only the entries count that say where the file is. -/
theorem snoop_eq_foldl (room : Nat) (file : TrackedFile) (slots : List (Octets 32)) :
    (snoop name room file slots).1 =
      (placings name slots).foldl
        (fun file entry => file.relocate entry.cluster (min entry.size (UInt32.ofNat room)))
        file := by
  induction slots generalizing file with
  | nil => rfl
  | cons slot rest restInduction =>
    rw [placings_cons]
    simp only [snoop, restInduction, snoopSlot_eq]
    split
    · rw [List.foldl_cons]
    · rfl

/-- An entry of zeros has no cluster, whatever the file's name is. -/
theorem places_zeros : (DirEntry.ofSlot (.zeros 32)).places name = false := by
  have unplaced : (DirEntry.ofSlot (.zeros 32)).cluster = 0 := rfl
  rw [DirEntry.places, unplaced, bne_self_eq_false, Bool.and_false]

theorem placings_zeros (count : Nat) : placings name (slots (List.replicate count 0)) = [] := by
  have width : dirEntrySize = 32 := rfl
  induction count using Nat.strongRecOn with
  | _ count countInduction =>
  by_cases whole : dirEntrySize ≤ (List.replicate count (0 : UInt8)).length
  · have size : (List.replicate count (0 : UInt8)).length = count := List.length_replicate ..
    have zeros : Octets.part (List.replicate count 0) 0 32 whole = .zeros 32 := by
      apply Octets.ext
      simp only [Octets.part, Octets.zeros, List.drop_zero, List.take_replicate]
      congr 1
      omega
    rw [slots_of_le whole, zeros, placings_cons, if_neg (by rw [places_zeros]; exact Bool.false_ne_true),
      List.drop_replicate]
    exact countInduction (count - 32) (by omega)
  · rw [slots_of_lt (Nat.lt_of_not_le whole)]
    rfl

/-- A directory with one entry and zeros behind it. -/
theorem placings_entry (entry : DirEntry) (count : Nat) :
    placings name (slots (entry.encode ++ List.replicate count 0)) =
      if entry.places name then [entry] else [] := by
  have size := entry.length_encode
  have whole : dirEntrySize ≤ (entry.encode ++ List.replicate count 0).length := by
    rw [List.length_append]
    omega
  have first : Octets.part (entry.encode ++ List.replicate count 0) 0 32 whole =
      ⟨entry.encode, size⟩ :=
    Octets.ext (List.take_left' size)
  have rest : (entry.encode ++ List.replicate count 0).drop 32 = List.replicate count 0 :=
    List.drop_left' size
  rw [slots_of_le whole, first, rest, placings_cons, DirEntry.ofSlot_encode, placings_zeros]

end Placings

end Volume

end ScriptDrive
