import ScriptDrive.Proofs.Offers
import ScriptDrive.Proofs.Volume.Image
import ScriptDrive.Storage

/-!
# One push of the transport

Whenever the transport has something for the host, it offers one packet, and only two things can come of
it.  `nextPacket` is that packet, `passed` the transport after the host got it and `held` the transport
after a busy endpoint put it off; `Pushed` collects the two cases.  What `advance` and `sendStatus` do in
a sound state is said once, in `advance_meets` and `sendStatus_meets`.
-/

set_option autoImplicit false

namespace ScriptDrive

open Scsi (Command DataPhase)

variable {π : Type} {capacity : Nat}

/-- The states of a command that can come about. -/
inductive Transfer.Sound (transfer : Transfer) : Prop
  | idle (nothing : transfer = .idle)
  | reading {lba : UInt32} {blocks : UInt16} (phaseIs : transfer.phase = .dataIn)
      (commandIs : transfer.command = some (.read10 lba blocks))
      (unqueued : transfer.statusQueued = false)
      (bounded : transfer.offset + transfer.remaining ≤ sectorSize * (lba.toNat + blocks.toNat))
      -- Only the last piece is shorter than a packet, so pieces begin where packets may.
      (aligned : transfer.remaining = 0 ∨ transfer.offset % maxPacket = 0)
  | answering {command : Command} {length : Nat} (phaseIs : transfer.phase = .dataIn)
      (commandIs : transfer.command = some command) (fixed : command.dataPhase = .fixed length)
      (unqueued : transfer.statusQueued = false)
  | writing {lba : UInt32} {blocks : UInt16} (phaseIs : transfer.phase = .dataOut)
      (commandIs : transfer.command = some (.write10 lba blocks))
      (unqueued : transfer.statusQueued = false)
      (bounded : transfer.offset + transfer.remaining ≤ sectorSize * (lba.toNat + blocks.toNat))
      (more : 0 < transfer.remaining)
  | closing {command : Command} (phaseIs : transfer.phase = .statusPending)
      (commandIs : transfer.command = some command) (finished : transfer.remaining = 0)

/-- What becomes of a command that moves on: it has ended, or it is there with less left to move. -/
structure Transfer.LeadsTo (before after : Transfer) : Prop where
  command : after.command = none ∨ after.command = before.command
  remaining_le : after.remaining ≤ before.remaining
  reach_le : after.offset + after.remaining ≤ before.offset + before.remaining
  /-- A command that moves blocks still ends at the same byte of the volume. -/
  reach : ∀ lba blocks, after.command = some (.read10 lba blocks) ∨
      after.command = some (.write10 lba blocks) →
    after.offset + after.remaining = before.offset + before.remaining

namespace Transfer.LeadsTo

theorem refl (transfer : Transfer) : transfer.LeadsTo transfer :=
  ⟨.inr rfl, Nat.le_refl _, Nat.le_refl _, fun _ _ _ => rfl⟩

theorem trans {first second third : Transfer} (before : first.LeadsTo second)
    (after : second.LeadsTo third) : first.LeadsTo third := by
  refine ⟨?_, Nat.le_trans after.remaining_le before.remaining_le,
    Nat.le_trans after.reach_le before.reach_le, ?_⟩
  · rcases after.command with ended | same
    · exact .inl ended
    · rw [same]
      exact before.command
  · intro lba blocks moves
    have sameCommand : third.command = second.command := by
      refine after.command.resolve_left fun ended => ?_
      rw [ended] at moves
      cases moves <;> contradiction
    rw [after.reach lba blocks moves]
    rw [sameCommand] at moves
    exact before.reach lba blocks moves

/-- Without a command nothing is left to move. -/
theorem idle (transfer : Transfer) : transfer.LeadsTo .idle := by
  refine ⟨.inl rfl, Nat.zero_le _, Nat.zero_le _, ?_⟩
  intro lba blocks moves
  cases moves <;> contradiction

end Transfer.LeadsTo

section Sound

variable {transfer : Transfer}

theorem Transfer.Sound.eq_idle (sound : transfer.Sound) (phaseIs : transfer.phase = .idle) :
    transfer = .idle := by
  cases sound with
  | idle nothing => exact nothing
  | reading other | answering other | writing other | closing other =>
    rw [other] at phaseIs
    cases phaseIs

theorem Transfer.Sound.of_dataIn (sound : transfer.Sound) (phaseIs : transfer.phase = .dataIn) :
    transfer.statusQueued = false ∧ transfer.command ≠ none := by
  cases sound with
  | idle nothing => rw [nothing] at phaseIs; cases phaseIs
  | reading _ commandIs unqueued => exact ⟨unqueued, by rw [commandIs]; exact Option.some_ne_none _⟩
  | answering _ commandIs _ unqueued =>
    exact ⟨unqueued, by rw [commandIs]; exact Option.some_ne_none _⟩
  | writing other => rw [other] at phaseIs; cases phaseIs
  | closing other => rw [other] at phaseIs; cases phaseIs

theorem Transfer.Sound.of_dataOut (sound : transfer.Sound) (phaseIs : transfer.phase = .dataOut) :
    ∃ lba blocks, transfer.command = some (.write10 lba blocks) ∧
      transfer.statusQueued = false ∧
      transfer.offset + transfer.remaining ≤ sectorSize * (lba.toNat + blocks.toNat) ∧
      0 < transfer.remaining := by
  cases sound with
  | idle nothing => rw [nothing] at phaseIs; cases phaseIs
  | reading other => rw [other] at phaseIs; cases phaseIs
  | answering other => rw [other] at phaseIs; cases phaseIs
  | writing _ commandIs unqueued bounded more => exact ⟨_, _, commandIs, unqueued, bounded, more⟩
  | closing other => rw [other] at phaseIs; cases phaseIs

theorem Transfer.Sound.of_statusPending (sound : transfer.Sound)
    (phaseIs : transfer.phase = .statusPending) :
    transfer.remaining = 0 ∧ transfer.command ≠ none := by
  cases sound with
  | idle nothing => rw [nothing] at phaseIs; cases phaseIs
  | reading other => rw [other] at phaseIs; cases phaseIs
  | answering other => rw [other] at phaseIs; cases phaseIs
  | writing other => rw [other] at phaseIs; cases phaseIs
  | closing _ commandIs finished => exact ⟨finished, by rw [commandIs]; exact Option.some_ne_none _⟩

end Sound

namespace Storage

/-- The file as it will be shown once the next piece has been read. -/
def fileShown (storage : Storage capacity) : TrackedFile :=
  let (sector, within) := storage.transfer.place
  if within = 0 ∧ Region.of sector = .rootDir 0 then storage.file.rehome else storage.file

theorem showFile_eq (storage : Storage capacity) : storage.showFile = .ok storage.fileShown := by
  simp only [showFile, fileShown, Region.locate_eq, bind, Except.bind, pure, Except.pure]
  by_cases front : storage.transfer.place.2 = 0
  · rw [if_pos front]
    simp only [front, true_and]
  · rw [if_neg front]
    simp only [front, false_and, if_false]

def nextPacket (storage : Storage capacity) : List UInt8 :=
  if storage.transfer.remaining = 0 then
    storage.transfer.status.encode
  else
    match storage.transfer.command with
    | some (.read10 _ _) =>
      Volume.stretch storage.identity storage.file.rehome storage.ram storage.transfer.offset
        (min storage.transfer.remaining maxPacket)
    | some command => (command.response storage.identity).take storage.transfer.remaining
    | none => []

def passed (storage : Storage capacity) : Storage capacity :=
  if storage.transfer.remaining = 0 then
    { storage with
      transfer := { storage.transfer with phase := .statusPending, statusQueued := true } }
  else
    match storage.transfer.command with
    | some (.read10 _ _) =>
      { storage with
        file := storage.fileShown
        transfer :=
          { storage.transfer with
            offset := storage.transfer.offset + min storage.transfer.remaining maxPacket
            remaining := storage.transfer.remaining - min storage.transfer.remaining maxPacket } }
    | _ =>
      { storage with
        transfer :=
          { storage.transfer with
            remaining := 0
            status :=
              { storage.transfer.status with
                residue :=
                  UInt32.ofNat (storage.transfer.remaining - storage.nextPacket.length) } } }

def held (storage : Storage capacity) : Storage capacity :=
  if storage.transfer.remaining = 0 then
    { storage with transfer := { storage.transfer with phase := .statusPending } }
  else
    match storage.transfer.command with
    | some (.read10 _ _) => { storage with file := storage.fileShown }
    | _ => storage

inductive Pushed [Link π] (storage : Storage capacity) (link : π) :
    Storage capacity → List Event → Prop
  | taken {offers : List Event}
      (attempted : Attempted storage.identity.endpoints.diskIn storage.nextPacket diskTries link
        none offers) :
      Pushed storage link storage.passed offers
  | refused {busy : Busy} {offers : List Event} (notes : List Note)
      (attempted : Attempted storage.identity.endpoints.diskIn storage.nextPacket diskTries link
        (some busy) offers) :
      Pushed storage link storage.held (offers ++ notes.map .note)

section Equations

variable {storage : Storage capacity}

theorem passed_of_finished (finished : storage.transfer.remaining = 0) :
    storage.passed = { storage with
      transfer := { storage.transfer with phase := .statusPending, statusQueued := true } } := by
  rw [passed, if_pos finished]

theorem held_of_finished (finished : storage.transfer.remaining = 0) :
    storage.held = { storage with
      transfer := { storage.transfer with phase := .statusPending } } := by
  rw [held, if_pos finished]

theorem passed_of_reading {lba : UInt32} {blocks : UInt16}
    (commandIs : storage.transfer.command = some (.read10 lba blocks))
    (more : storage.transfer.remaining ≠ 0) :
    storage.passed = { storage with
      file := storage.fileShown
      transfer :=
        { storage.transfer with
          offset := storage.transfer.offset + min storage.transfer.remaining maxPacket
          remaining :=
            storage.transfer.remaining - min storage.transfer.remaining maxPacket } } := by
  rw [passed, if_neg more, commandIs]

theorem held_of_reading {lba : UInt32} {blocks : UInt16}
    (commandIs : storage.transfer.command = some (.read10 lba blocks))
    (more : storage.transfer.remaining ≠ 0) :
    storage.held = { storage with file := storage.fileShown } := by
  rw [held, if_neg more, commandIs]

theorem nextPacket_of_reading {lba : UInt32} {blocks : UInt16}
    (commandIs : storage.transfer.command = some (.read10 lba blocks))
    (more : storage.transfer.remaining ≠ 0) :
    storage.nextPacket = Volume.stretch storage.identity storage.file.rehome storage.ram
      storage.transfer.offset (min storage.transfer.remaining maxPacket) := by
  rw [nextPacket, if_neg more, commandIs]

/-- A command with a fixed answer does not read blocks. -/
theorem not_reading_of_fixed {command : Command} {length : Nat}
    (commandIs : storage.transfer.command = some command)
    (fixed : command.dataPhase = .fixed length) (lba : UInt32) (blocks : UInt16) :
    storage.transfer.command ≠ some (.read10 lba blocks) := by
  rw [commandIs]
  intro reading
  cases reading
  cases fixed

theorem passed_of_answering {command : Command} {length : Nat}
    (commandIs : storage.transfer.command = some command)
    (fixed : command.dataPhase = .fixed length) (more : storage.transfer.remaining ≠ 0) :
    storage.passed = { storage with
      transfer :=
        { storage.transfer with
          remaining := 0
          status :=
            { storage.transfer.status with
              residue :=
                UInt32.ofNat (storage.transfer.remaining - storage.nextPacket.length) } } } := by
  rw [passed, if_neg more]
  split
  · rename_i lba blocks reading
    exact absurd reading (not_reading_of_fixed commandIs fixed lba blocks)
  · rfl

theorem held_of_answering {command : Command} {length : Nat}
    (commandIs : storage.transfer.command = some command)
    (fixed : command.dataPhase = .fixed length) (more : storage.transfer.remaining ≠ 0) :
    storage.held = storage := by
  rw [held, if_neg more]
  split
  · rename_i lba blocks reading
    exact absurd reading (not_reading_of_fixed commandIs fixed lba blocks)
  · rfl

theorem transfer_held_of_more (more : storage.transfer.remaining ≠ 0) :
    storage.held.transfer = storage.transfer := by
  unfold held
  rw [if_neg more]
  split <;> rfl

@[simp] theorem remaining_held : storage.held.transfer.remaining = storage.transfer.remaining := by
  by_cases finished : storage.transfer.remaining = 0
  · rw [held_of_finished finished]
  · rw [transfer_held_of_more finished]

theorem nextPacket_of_answering {command : Command} {length : Nat}
    (commandIs : storage.transfer.command = some command)
    (fixed : command.dataPhase = .fixed length) (more : storage.transfer.remaining ≠ 0) :
    storage.nextPacket = (command.response storage.identity).take storage.transfer.remaining := by
  unfold nextPacket
  rw [if_neg more, commandIs]
  cases command <;> first | rfl | cases fixed

end Equations

theorem offerPacket_meets [Link π] (storage : Storage capacity) {bytes : List UInt8}
    (short : bytes.length ≤ maxPacket) (start : π) :
    (storage.offerPacket bytes).Meets start fun refusal _ events =>
      Attempted storage.identity.endpoints.diskIn bytes diskTries start refusal
        events := by
  rw [offerPacket, Exchange.meets_bind, Exchange.meets_lift]
  exact ⟨_, Packet.ofBytes_of_le short, sendPolling_meets _ bytes diskTries start⟩

theorem sendStatus_meets [Link π] (storage : Storage capacity)
    (unqueued : storage.transfer.statusQueued = false)
    (finished : storage.transfer.remaining = 0) (start : π) :
    storage.sendStatus.Meets start fun next _ events => storage.Pushed start next events := by
  have packet : storage.nextPacket = storage.transfer.status.encode := by
    rw [nextPacket, if_pos finished]
  have short : storage.transfer.status.encode.length ≤ maxPacket := by
    rw [StatusWrapper.length_encode]
    decide
  simp only [sendStatus, unqueued, Bool.false_eq_true, if_false, Exchange.meets_bind]
  refine (storage.offerPacket_meets short start).mono ?_
  intro refusal after events attempted
  rw [← packet] at attempted
  cases refusal with
  | none =>
    simp only [Exchange.meets_pure, List.append_nil]
    rw [← passed_of_finished finished]
    exact .taken attempted
  | some busy =>
    simp only [Exchange.meets_bind, Exchange.meets_log, Exchange.meets_pure, List.append_nil]
    rw [← unqueued, ← held_of_finished finished]
    exact .refused [.statusDeferred busy] attempted

/-- The piece that is read next, as a part of the volume that shows the file at its first cluster. -/
theorem window_eq_stretch (storage : Storage capacity) {count : Nat}
    (inside : storage.transfer.offset % sectorSize + count ≤ sectorSize)
    (aligned : storage.transfer.offset % maxPacket = 0) :
    ((Volume.image storage.identity storage.fileShown storage.ram storage.transfer.place.1).drop
        storage.transfer.place.2).take count =
      Volume.stretch storage.identity storage.file.rehome storage.ram storage.transfer.offset
        count := by
  have sameFile : ((Volume.image storage.identity storage.fileShown storage.ram
      storage.transfer.place.1).drop storage.transfer.place.2).take count =
      ((Volume.image storage.identity storage.file.rehome storage.ram
        storage.transfer.place.1).drop storage.transfer.place.2).take count := by
    by_cases shown : storage.transfer.place.2 = 0 ∧ Region.of storage.transfer.place.1 = .rootDir 0
    · have rehomed : storage.fileShown = storage.file.rehome := if_pos shown
      rw [rehomed]
    · apply Volume.image_window_same_file
      intro first
      have behind : storage.transfer.place.2 ≠ 0 := fun front => shown ⟨front, first⟩
      simp only [Transfer.place, sectorSize, maxPacket, dirEntrySize] at behind aligned ⊢
      omega
  have sector := Volume.image_min_word storage.identity storage.file.rehome storage.ram
    (storage.transfer.offset / sectorSize)
  rw [sameFile, Volume.stretch_eq_window _ _ _ _ _ inside, ← sector]
  rfl

theorem sendPiece_meets [Link π] (storage : Storage capacity) {lba : UInt32} {blocks : UInt16}
    (commandIs : storage.transfer.command = some (.read10 lba blocks))
    (bounded : storage.transfer.offset + storage.transfer.remaining ≤
      sectorSize * (lba.toNat + blocks.toNat))
    (more : storage.transfer.remaining ≠ 0)
    (aligned : storage.transfer.offset % maxPacket = 0) (start : π) :
    storage.sendPiece.Meets start fun next _ events => storage.Pushed start next events := by
  have lbaSmall := lba.toNat_lt
  have blocksSmall := blocks.toNat_lt
  have within : storage.transfer.place.2 = storage.transfer.offset % sectorSize := rfl
  have room : Word.sub sectorSize storage.transfer.place.2 =
      .ok (sectorSize - storage.transfer.offset % sectorSize) :=
    Word.sub_of_le (by rw [within]; exact Nat.le_of_lt storage.transfer.place_bounds.2)
  have length : min (min storage.transfer.remaining maxPacket)
      (sectorSize - storage.transfer.offset % sectorSize) =
        min storage.transfer.remaining maxPacket := by
    simp only [sectorSize, maxPacket] at aligned ⊢
    omega
  have inside : storage.transfer.offset % sectorSize + min storage.transfer.remaining maxPacket ≤
      sectorSize := by
    simp only [sectorSize, maxPacket] at aligned ⊢
    omega
  have packet : storage.nextPacket = Volume.stretch storage.identity storage.file.rehome storage.ram
      storage.transfer.offset (min storage.transfer.remaining maxPacket) :=
    nextPacket_of_reading commandIs more
  have buffer : slice (List.replicate maxPacket 0) 0 (min storage.transfer.remaining maxPacket) =
      .ok (List.replicate (min storage.transfer.remaining maxPacket) 0) := by
    rw [slice_front (by rw [List.length_replicate]; exact Nat.min_le_right _ _), List.take_replicate,
      Nat.min_assoc, Nat.min_self]
  have piece : Volume.readInto storage.identity storage.fileShown storage.ram
      storage.transfer.place.1 storage.transfer.place.2
      (List.replicate (min storage.transfer.remaining maxPacket) 0) = .ok storage.nextPacket := by
    rw [Volume.readInto_eq_window _ _ _ (by rw [within, List.length_replicate]; exact inside),
      List.length_replicate, storage.window_eq_stretch inside aligned, packet]
  have short : storage.nextPacket.length ≤ maxPacket := by
    rw [packet, Volume.length_stretch]
    exact Nat.min_le_right _ _
  have offset : Word.add 64 storage.transfer.offset (min storage.transfer.remaining maxPacket) =
      .ok (storage.transfer.offset + min storage.transfer.remaining maxPacket) :=
    Word.add_of_lt (by simp only [sectorSize] at bounded; omega)
  have remaining : Word.sub storage.transfer.remaining (min storage.transfer.remaining maxPacket) =
      .ok (storage.transfer.remaining - min storage.transfer.remaining maxPacket) :=
    Word.sub_of_le (Nat.min_le_left _ _)
  simp only [sendPiece, Exchange.meets_bind, Exchange.meets_lift, room, length,
    storage.showFile_eq, buffer, piece, Except.ok.injEq, exists_eq_left']
  refine (storage.offerPacket_meets short start).mono ?_
  intro refusal after events attempted
  cases refusal with
  | none =>
    simp only [Exchange.meets_bind, Exchange.meets_lift, offset, remaining, Except.ok.injEq,
      exists_eq_left', Exchange.meets_pure, List.append_nil, List.nil_append]
    rw [← passed_of_reading commandIs more]
    exact .taken attempted
  | some busy =>
    simp only [Exchange.meets_pure, List.append_nil, List.nil_append]
    rw [← held_of_reading commandIs more, ← List.append_nil events]
    exact .refused [] attempted

theorem sendFixed_meets [Link π] (storage : Storage capacity) {command : Command} {length : Nat}
    (commandIs : storage.transfer.command = some command)
    (fixed : command.dataPhase = .fixed length) (more : storage.transfer.remaining ≠ 0)
    (start : π) :
    (storage.sendFixed command).Meets start fun next _ events => storage.Pushed start next events := by
  have small := command.length_response_le storage.identity
  have zeros : (List.replicate maxPacket (0 : UInt8)).length = 64 := List.length_replicate ..
  have packet := nextPacket_of_answering commandIs fixed more
  have size : storage.nextPacket.length =
      min (command.response storage.identity).length storage.transfer.remaining := by
    rw [packet, List.length_take, Nat.min_comm]
  have short : storage.nextPacket.length ≤ maxPacket := by
    rw [size]
    simp only [maxPacket]
    omega
  obtain ⟨buffer, bufferIs, front⟩ : ∃ buffer,
      command.respondInto storage.identity (List.replicate maxPacket 0) = .ok buffer ∧
        slice buffer 0 (min (command.response storage.identity).length storage.transfer.remaining) =
          .ok storage.nextPacket := by
    refine ⟨_, splice_front (by omega), ?_⟩
    rw [slice_front (by simp only [List.length_append]; omega), packet, Except.ok.injEq,
      List.take_append_of_le_length (Nat.min_le_left _ _), List.take_eq_take_iff]
    omega
  have residue : Word.sub storage.transfer.remaining
      (min (command.response storage.identity).length storage.transfer.remaining) =
        .ok (storage.transfer.remaining - storage.nextPacket.length) := by
    rw [Word.sub_of_le (Nat.min_le_right _ _), size]
  simp only [sendFixed, Exchange.meets_bind, Exchange.meets_lift, bufferIs, front,
    Except.ok.injEq, exists_eq_left']
  refine (storage.offerPacket_meets short start).mono ?_
  intro refusal after events attempted
  cases refusal with
  | none =>
    simp only [Exchange.meets_bind, Exchange.meets_lift, residue, Except.ok.injEq,
      exists_eq_left', Exchange.meets_pure, List.append_nil, List.nil_append]
    rw [← passed_of_answering commandIs fixed more]
    exact .taken attempted
  | some busy =>
    simp only [Exchange.meets_pure, List.append_nil, List.nil_append]
    have same := held_of_answering commandIs fixed more
    have pushed := Pushed.refused [] attempted
    rw [same, List.map_nil, List.append_nil] at pushed
    exact pushed

/-- While data goes to the host, `advance` is a push. -/
theorem advance_meets [Link π] (storage : Storage capacity) (sound : storage.transfer.Sound)
    (sending : storage.transfer.phase = .dataIn) (start : π) :
    storage.advance.Meets start fun next _ events => storage.Pushed start next events := by
  have unqueued := (sound.of_dataIn sending).1
  unfold advance
  by_cases finished : storage.transfer.remaining = 0
  · rw [if_pos finished]
    exact storage.sendStatus_meets unqueued finished start
  · rw [if_neg finished]
    cases sound with
    | idle nothing => rw [nothing] at sending; cases sending
    | reading phaseIs commandIs unqueued bounded aligned =>
      rw [commandIs]
      exact storage.sendPiece_meets commandIs bounded finished (aligned.resolve_left finished) start
    | answering phaseIs commandIs fixed unqueued =>
      simp only [commandIs, fixed]
      exact storage.sendFixed_meets commandIs fixed finished start
    | writing phaseIs => rw [phaseIs] at sending; cases sending
    | closing phaseIs => rw [phaseIs] at sending; cases sending

end Storage

end ScriptDrive
