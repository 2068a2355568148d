import ScriptDrive.Proofs.Storage.Due
import ScriptDrive.Proofs.Volume.Walk

/-!
# Written data in packets

A packet of written data is cut at the ends of sectors and taken piece by piece.  `receive_meets` says
that this comes to the same as walking over its bytes one by one, as far as bytes are due, and that the
status follows once all of them have come.  A slot of the directory that packets tear apart is not read,
so only a packet that begins where a slot may is walked over.
-/

set_option autoImplicit false

namespace ScriptDrive

open Volume (Walker)

variable {π : Type} {capacity : Nat}

namespace Storage

def walker (storage : Storage capacity) : Walker :=
  ⟨storage.transfer.offset, [], storage.file, storage.ram.bytes⟩

/-- The transport has taken bytes to the volume, as a walker does that begins where a slot may, and
counts `left` more to come. -/
structure Takes (storage next : Storage capacity) (data : List UInt8) (left : Nat) : Prop where
  walked : storage.transfer.offset % dirEntrySize = 0 →
    ∃ slot, storage.walker.walk storage.identity.fileName data = { next.walker with slot := slot } ∧
      (data.length % dirEntrySize = 0 → slot = [])
  becomes : Volume.Becomes capacity storage.file next.file
  rest : next = { storage with
    file := next.file
    ram := next.ram
    transfer :=
      { storage.transfer with
        offset := storage.transfer.offset + data.length
        remaining := left } }

theorem Takes.nothing (storage : Storage capacity) :
    storage.Takes storage [] storage.transfer.remaining :=
  ⟨fun _ => ⟨[], rfl, fun _ => rfl⟩, .same, rfl⟩

section Takes

variable {storage next : Storage capacity} {data : List UInt8} {left : Nat}

theorem Takes.identity (takes : storage.Takes next data left) : next.identity = storage.identity := by
  rw [takes.rest]

theorem Takes.transfer (takes : storage.Takes next data left) :
    next.transfer =
      { storage.transfer with
        offset := storage.transfer.offset + data.length
        remaining := left } := by
  rw [takes.rest]

theorem Takes.count (takes : storage.Takes next data left) (counted : Nat) :
    storage.Takes { next with transfer := { next.transfer with remaining := counted } } data
      counted := by
  refine ⟨takes.walked, takes.becomes, ?_⟩
  rw [takes.identity, takes.transfer]

/-- Bytes up to a place where a slot may begin, and the bytes after them. -/
theorem Takes.trans {last : Storage capacity} {first : List UInt8} {middle : Nat}
    (before : storage.Takes next first middle)
    (full : (storage.transfer.offset + first.length) % dirEntrySize = 0)
    (after : next.Takes last data left) : storage.Takes last (first ++ data) left := by
  have start : next.transfer.offset = storage.transfer.offset + first.length := by
    rw [before.transfer]
  simp only [dirEntrySize] at full
  refine ⟨?_, before.becomes.trans after.becomes, ?_⟩
  · intro aligned
    obtain ⟨slot, walkedFirst, none⟩ := before.walked aligned
    simp only [dirEntrySize] at aligned none
    obtain ⟨lastSlot, walkedSecond, noneLast⟩ := after.walked (by simp only [dirEntrySize]; omega)
    rw [none (by omega)] at walkedFirst
    rw [before.identity] at walkedSecond
    refine ⟨lastSlot, ?_, ?_⟩
    · rw [Walker.walk_append, walkedFirst]
      exact walkedSecond
    · intro multiple
      apply noneLast
      simp only [dirEntrySize, List.length_append] at multiple ⊢
      omega
  · rw [after.rest, before.rest]
    simp only [List.length_append, Nat.add_assoc]

end Takes

theorem takePiece_meets (storage : Storage capacity) {piece : List UInt8}
    (inside : storage.transfer.offset % sectorSize + piece.length ≤ sectorSize)
    (narrow : storage.transfer.offset + piece.length < 1 <<< 64) (start : π) :
    (storage.takePiece piece).Meets start fun next _ events =>
      storage.Takes next piece storage.transfer.remaining ∧
        ∃ notes : List Note, events = notes.map .note := by
  obtain ⟨written, slot, writtenIs, walked, none⟩ := Volume.write_walks storage.identity.fileName
    storage.file storage.ram storage.transfer.offset piece inside
  have position : storage.transfer.place =
      (min (storage.transfer.offset / sectorSize) (1 <<< 32 - 1),
        storage.transfer.offset % sectorSize) := rfl
  simp only [takePiece, position, writtenIs, Word.add_of_lt narrow, Exchange.meets_bind,
    Exchange.meets_lift, Exchange.meets_log, Exchange.meets_logAll, Exchange.meets_pure,
    Except.ok.injEq, exists_eq_left']
  refine ⟨⟨fun _ => ⟨slot, walked, none⟩, Volume.becomes_write writtenIs, rfl⟩,
    written.notes ++ [.pieceWritten storage.transfer.place.1 storage.transfer.place.2
      written.outcome], ?_⟩
  simp only [position, List.map_append, List.map_cons, List.map_nil, List.nil_append,
    List.append_nil]

theorem takeData_meets (storage : Storage capacity) (data : List UInt8)
    (narrow : storage.transfer.offset + data.length < 1 <<< 64) (start : π) :
    (storage.takeData data).Meets start fun next _ events =>
      storage.Takes next data storage.transfer.remaining ∧
        ∃ notes : List Note, events = notes.map .note := by
  have width : sectorSize = 512 := rfl
  have slotWidth : dirEntrySize = 32 := rfl
  generalize total : data.length = count at narrow
  induction count using Nat.strongRecOn generalizing storage data start with
  | _ count countInduction =>
  by_cases empty : data = []
  · rw [empty, takeData_nil]
    exact (Exchange.meets_pure ..).mpr ⟨.nothing storage, [], rfl⟩
  · rw [storage.takeData_of_ne_nil empty, Exchange.meets_bind]
    have within : storage.transfer.place.2 = storage.transfer.offset % sectorSize := rfl
    have positive := List.length_pos_iff.mpr empty
    generalize roomIs : sectorSize - storage.transfer.place.2 = room
    have size : (data.take room).length = min room data.length := List.length_take
    have sizeRest : (data.drop room).length = data.length - room := List.length_drop
    rw [within, width] at roomIs
    refine (storage.takePiece_meets (by rw [width]; omega) (by omega) start).mono ?_
    rintro middle link - ⟨takes, notes, rfl⟩
    by_cases last : data.length ≤ room
    · rw [List.drop_eq_nil_of_le last, takeData_nil, Exchange.meets_pure, List.append_nil]
      rw [List.take_of_length_le last] at takes
      exact ⟨takes, notes, rfl⟩
    · have moved : middle.transfer.offset = storage.transfer.offset + room := by
        rw [takes.transfer]
        dsimp only
        omega
      have left : middle.transfer.remaining = storage.transfer.remaining := by rw [takes.transfer]
      refine (countInduction (count - room) (by omega) middle (data.drop room) link (by omega)
        (by omega)).mono ?_
      rintro next after - ⟨takesRest, later, rfl⟩
      have both := takes.trans (by rw [slotWidth]; omega) takesRest
      rw [List.take_append_drop, left] at both
      exact ⟨both, notes ++ later, List.map_append.symm⟩

/-- After a packet of written data the status is sent, if no more is due. -/
theorem counted_mayPush [Link π] (counted : Storage capacity) {lba : UInt32} {blocks : UInt16}
    (writing : counted.transfer.phase = .dataOut)
    (commandIs : counted.transfer.command = some (.write10 lba blocks))
    (unqueued : counted.transfer.statusQueued = false)
    (bounded : counted.transfer.offset + counted.transfer.remaining ≤
      sectorSize * (lba.toNat + blocks.toNat)) (start : π) :
    Exchange.Meets (if counted.transfer.remaining = 0 then counted.sendStatus else pure counted)
      start fun next _ events => counted.MayPush start next events := by
  split
  · rename_i finished
    have owing : counted.Owing := by
      refine ⟨unqueued, ?_, ?_, .inl finished⟩
      · rw [writing]
        decide
      · rw [commandIs]
        exact Option.some_ne_none _
    exact (counted.sendStatus_meets unqueued finished start).mono
      fun _ _ _ pushed => .pushed owing pushed
  · rename_i unfinished
    exact (Exchange.meets_pure ..).mpr
      (.rested (.writing writing commandIs unqueued bounded (Nat.pos_of_ne_zero unfinished)))

/-- A packet of written data is walked over as far as bytes are due.  When none is due any more, the
status is sent. -/
theorem receive_mayPush [Link π] (storage : Storage capacity) (sound : storage.transfer.Sound)
    (writing : storage.transfer.phase = .dataOut) (packet : List UInt8) (start : π) :
    (storage.receive packet).Meets start fun next _ events =>
      ∃ (taken : Storage capacity) (notes : List Note) (link : π) (later : List Event),
        storage.Takes taken (packet.take storage.transfer.remaining)
          (storage.transfer.remaining - min packet.length storage.transfer.remaining) ∧
        taken.MayPush link next later ∧ events = notes.map .note ++ later := by
  obtain ⟨lba, blocks, commandIs, unqueued, bounded, more⟩ := sound.of_dataOut writing
  have lbaSmall := lba.toNat_lt
  have blocksSmall := blocks.toNat_lt
  have size : (packet.take storage.transfer.remaining).length =
      min packet.length storage.transfer.remaining := by
    rw [List.length_take, Nat.min_comm]
  have front : slice packet 0 (min packet.length storage.transfer.remaining) =
      .ok (packet.take storage.transfer.remaining) := by
    rw [slice_front (Nat.min_le_left ..), Except.ok.injEq, List.take_eq_take_iff]
    omega
  have counted := Word.sub_of_le (Nat.min_le_right packet.length storage.transfer.remaining)
  simp only [receive, front, Exchange.meets_bind, Exchange.meets_lift, Except.ok.injEq,
    exists_eq_left']
  refine (storage.takeData_meets (packet.take storage.transfer.remaining)
    (by simp only [sectorSize] at bounded; omega) start).mono ?_
  rintro taken link - ⟨takes, notes, rfl⟩
  have left : taken.transfer.remaining = storage.transfer.remaining := by rw [takes.transfer]
  simp only [left, counted, Except.ok.injEq, exists_eq_left']
  have finishing := counted_mayPush
    { taken with transfer := { taken.transfer with
      remaining := storage.transfer.remaining - min packet.length storage.transfer.remaining } }
    (by rw [takes.transfer]; exact writing) (by rw [takes.transfer]; exact commandIs)
    (by rw [takes.transfer]; exact unqueued) (by rw [takes.transfer]; dsimp only; omega) link
  refine finishing.mono ?_
  intro next after later moved
  exact ⟨_, notes, link, later, takes.count _, moved, rfl⟩

theorem receive_meets [Link π] (storage : Storage capacity) (sound : storage.transfer.Sound)
    (writing : storage.transfer.phase = .dataOut) (packet : List UInt8) (start : π) :
    (storage.receive packet).Meets start fun next _ events =>
      ∃ taken,
        storage.Takes taken (packet.take storage.transfer.remaining)
          (storage.transfer.remaining - min packet.length storage.transfer.remaining) ∧
        taken.Serves next events := by
  refine (storage.receive_mayPush sound writing packet start).mono ?_
  rintro next after events ⟨taken, notes, link, later, takes, moved, rfl⟩
  exact ⟨taken, takes, moved.serves.after_notes notes⟩

end Storage

end ScriptDrive
