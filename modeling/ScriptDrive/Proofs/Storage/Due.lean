import ScriptDrive.Console.Printer
import ScriptDrive.Proofs.Storage.Push

/-!
# What the host is still to get

`due` lists the packets of the command in flight that the host has not got yet.  It is what a run
conserves: a packet that reaches the host is the first one due, and nothing else changes the list.
`Pushed.due` says so of one push, and `poll_meets`, `onCollected_meets` and `stray_meets` of the calls
that do not begin a command.
-/

set_option autoImplicit false

namespace ScriptDrive

open Scsi (Command DataPhase)

variable {π : Type} {capacity : Nat}

def chunks (bytes : List UInt8) : List (List UInt8) :=
  (packetsOf bytes).map Packet.bytes

@[simp] theorem chunks_nil : chunks [] = [] := by
  simp [chunks]

theorem chunks_of_ne_nil {bytes : List UInt8} (some : bytes ≠ []) :
    chunks bytes = bytes.take maxPacket :: chunks (bytes.drop maxPacket) := by
  simp [chunks, packetsOf_of_ne_nil some]

theorem chunks_of_le {bytes : List UInt8} (some : bytes ≠ []) (short : bytes.length ≤ maxPacket) :
    chunks bytes = [bytes] := by
  rw [chunks_of_ne_nil some, List.take_of_length_le short, List.drop_eq_nil_of_le short, chunks_nil]

theorem length_le_of_mem_chunks {bytes packet : List UInt8} (present : packet ∈ chunks bytes) :
    packet.length ≤ maxPacket := by
  obtain ⟨piece, -, rfl⟩ := List.mem_map.mp present
  exact piece.length_le

@[simp] theorem flatten_chunks (bytes : List UInt8) : (chunks bytes).flatten = bytes :=
  flatten_packetsOf bytes

/-- Packet by packet the bytes are cut at the multiples of 64. -/
theorem chunks_eq (bytes : List UInt8) :
    chunks bytes = (List.range ((bytes.length + 63) / 64)).map fun number =>
      (bytes.drop (64 * number)).take 64 := by
  fun_induction packetsOf bytes with
  | case1 bytes none =>
    rw [List.isEmpty_iff.mp none]
    exact chunks_nil
  | case2 bytes some restInduction =>
    have nonempty : bytes ≠ [] := fun none => some (List.isEmpty_iff.mpr none)
    have length : 0 < bytes.length := List.length_pos_iff.mpr nonempty
    have count : (bytes.length + 63) / 64 = ((bytes.drop maxPacket).length + 63) / 64 + 1 := by
      rw [List.length_drop, maxPacket]
      omega
    rw [chunks_of_ne_nil nonempty, count, List.range_succ_eq_map, List.map_cons, List.map_map,
      restInduction]
    congr 1
    refine List.map_congr_left fun number _ => ?_
    rw [Function.comp_apply, List.drop_drop, Nat.mul_succ, Nat.add_comm, maxPacket]

theorem chunks_eq_nil_iff {bytes : List UInt8} : chunks bytes = [] ↔ bytes = [] := by
  constructor
  · intro none
    rw [← flatten_chunks bytes, none, List.flatten_nil]
  · rintro rfl
    exact chunks_nil

theorem chunks_stretch {identity : Identity} {file : TrackedFile} {ram : RamDisk capacity}
    {start count : Nat} (more : count ≠ 0) :
    chunks (Volume.stretch identity file ram start count) =
      Volume.stretch identity file ram start (min count maxPacket) ::
        chunks (Volume.stretch identity file ram (start + min count maxPacket)
          (count - min count maxPacket)) := by
  have nonempty : Volume.stretch identity file ram start count ≠ [] := by
    intro nothing
    have size := Volume.length_stretch identity file ram start count
    rw [nothing] at size
    exact more size.symm
  have parts := Volume.stretch_add identity file ram start (min count maxPacket)
    (count - min count maxPacket)
  rw [Nat.add_sub_cancel' (Nat.min_le_left ..)] at parts
  rw [chunks_of_ne_nil nonempty]
  by_cases full : maxPacket ≤ count
  · rw [Nat.min_eq_right full] at parts ⊢
    rw [parts, List.take_left' (Volume.length_stretch ..), List.drop_left' (Volume.length_stretch ..)]
  · rw [Nat.min_eq_left (by omega), Nat.sub_self, Volume.stretch_zero, chunks_nil,
      List.take_of_length_le (by rw [Volume.length_stretch]; omega),
      List.drop_eq_nil_of_le (by rw [Volume.length_stretch]; omega), chunks_nil]

namespace Storage

/-- The packets of the command in flight that the host is still to get. -/
def due (storage : Storage capacity) : List (List UInt8) :=
  match storage.transfer.phase with
  | .idle => []
  | .dataIn =>
    match storage.transfer.command with
    | some (.read10 _ _) =>
      chunks (Volume.stretch storage.identity storage.file.rehome storage.ram
        storage.transfer.offset storage.transfer.remaining) ++ [storage.transfer.status.encode]
    | _ =>
      if storage.transfer.remaining = 0 then
        [storage.transfer.status.encode]
      else
        [storage.nextPacket, storage.passed.transfer.status.encode]
  | .dataOut => [storage.transfer.status.encode]
  | .statusPending =>
    if storage.transfer.statusQueued then [] else [storage.transfer.status.encode]

/-- The transport has a packet for the host and no written data to wait for. -/
structure Owing (storage : Storage capacity) : Prop where
  unqueued : storage.transfer.statusQueued = false
  busy : storage.transfer.phase ≠ .idle
  commanded : storage.transfer.command ≠ none
  ready : storage.transfer.remaining = 0 ∨
    storage.transfer.phase = .dataIn ∧ storage.transfer.Sound

/-- What a call that writes nothing leaves as it was: all but the cluster of the file. -/
structure Keeps (storage next : Storage capacity) : Prop where
  identity : next.identity = storage.identity
  file : next.file.rehome = storage.file.rehome
  cluster : next.file.cluster = storage.file.cluster ∨ next.file.cluster = firstDataCluster
  ram : next.ram = storage.ram

theorem Keeps.refl (storage : Storage capacity) : Keeps storage storage :=
  ⟨rfl, rfl, .inl rfl, rfl⟩

theorem Keeps.trans {first second third : Storage capacity} (before : Keeps first second)
    (after : Keeps second third) : Keeps first third := by
  refine ⟨after.identity.trans before.identity, after.file.trans before.file, ?_,
    after.ram.trans before.ram⟩
  rcases after.cluster with same | home
  · rw [same]
    exact before.cluster
  · exact .inr home

theorem Keeps.size {storage next : Storage capacity} (keeps : Keeps storage next) :
    next.file.size = storage.file.size := by
  rw [← TrackedFile.size_rehome, keeps.file, TrackedFile.size_rehome]

@[simp] theorem rehome_fileShown (storage : Storage capacity) :
    storage.fileShown.rehome = storage.file.rehome := by
  simp only [fileShown]
  split <;> rfl

theorem cluster_fileShown (storage : Storage capacity) :
    storage.fileShown.cluster = storage.file.cluster ∨
      storage.fileShown.cluster = firstDataCluster := by
  simp only [fileShown]
  split
  · exact .inr rfl
  · exact .inl rfl

theorem keeps_passed (storage : Storage capacity) : Keeps storage storage.passed := by
  unfold passed
  split
  · exact ⟨rfl, rfl, .inl rfl, rfl⟩
  · split
    · exact ⟨rfl, storage.rehome_fileShown, storage.cluster_fileShown, rfl⟩
    · exact ⟨rfl, rfl, .inl rfl, rfl⟩

theorem keeps_held (storage : Storage capacity) : Keeps storage storage.held := by
  unfold held
  split
  · exact ⟨rfl, rfl, .inl rfl, rfl⟩
  · split
    · exact ⟨rfl, storage.rehome_fileShown, storage.cluster_fileShown, rfl⟩
    · exact ⟨rfl, rfl, .inl rfl, rfl⟩

theorem leadsTo_held (storage : Storage capacity) :
    storage.transfer.LeadsTo storage.held.transfer := by
  unfold held
  split
  · exact ⟨.inr rfl, Nat.le_refl _, Nat.le_refl _, fun _ _ _ => rfl⟩
  · split <;> exact .refl _

theorem due_of_idle {storage : Storage capacity} (idle : storage.transfer.phase = .idle) :
    storage.due = [] := by
  simp only [due, idle]

theorem due_of_dataOut {storage : Storage capacity} (writing : storage.transfer.phase = .dataOut) :
    storage.due = [storage.transfer.status.encode] := by
  simp only [due, writing]

theorem due_of_finished {storage : Storage capacity}
    (unqueued : storage.transfer.statusQueued = false)
    (busy : storage.transfer.phase ≠ .idle) (finished : storage.transfer.remaining = 0) :
    storage.due = [storage.transfer.status.encode] := by
  unfold due
  split
  · contradiction
  · split
    · rw [finished, Volume.stretch_zero, chunks_nil, List.nil_append]
    · rw [if_pos finished]
  · rfl
  · rw [unqueued]
    rfl

theorem due_of_reading {storage : Storage capacity} {lba : UInt32} {blocks : UInt16}
    (phaseIs : storage.transfer.phase = .dataIn)
    (commandIs : storage.transfer.command = some (.read10 lba blocks)) :
    storage.due = chunks (Volume.stretch storage.identity storage.file.rehome storage.ram
      storage.transfer.offset storage.transfer.remaining) ++ [storage.transfer.status.encode] := by
  simp only [due, phaseIs, commandIs]

theorem due_of_answering {storage : Storage capacity} {command : Command} {length : Nat}
    (phaseIs : storage.transfer.phase = .dataIn)
    (commandIs : storage.transfer.command = some command)
    (fixed : command.dataPhase = .fixed length) (more : storage.transfer.remaining ≠ 0) :
    storage.due = [storage.nextPacket, storage.passed.transfer.status.encode] := by
  simp only [due, phaseIs]
  split
  · rename_i lba blocks reading
    exact absurd reading (not_reading_of_fixed commandIs fixed lba blocks)
  · rw [if_neg more]

/-- The file as the rest of the command in flight leaves it, if nothing is written: a read that has still
to come past the front of the directory puts it back at the first cluster. -/
def fileLeft (storage : Storage capacity) : TrackedFile :=
  match storage.transfer.command with
  | some (.read10 _ _) =>
    if storage.transfer.offset ≤ rootStart * sectorSize ∧
        rootStart * sectorSize < storage.transfer.offset + storage.transfer.remaining then
      storage.file.rehome
    else
      storage.file
  | _ => storage.file

theorem fileLeft_of_reading {storage : Storage capacity} {lba : UInt32} {blocks : UInt16}
    (commandIs : storage.transfer.command = some (.read10 lba blocks)) :
    storage.fileLeft =
      if storage.transfer.offset ≤ rootStart * sectorSize ∧
          rootStart * sectorSize < storage.transfer.offset + storage.transfer.remaining then
        storage.file.rehome
      else
        storage.file := by
  simp only [fileLeft, commandIs]

theorem fileLeft_of_answering {storage : Storage capacity} {command : Command} {length : Nat}
    (commandIs : storage.transfer.command = some command)
    (fixed : command.dataPhase = .fixed length) : storage.fileLeft = storage.file := by
  unfold fileLeft
  rw [commandIs]
  cases command <;> first | rfl | cases fixed

theorem fileLeft_eq_or (storage : Storage capacity) :
    storage.fileLeft = storage.file ∨ storage.fileLeft = storage.file.rehome := by
  unfold fileLeft
  split
  · split
    · exact .inr rfl
    · exact .inl rfl
  · exact .inl rfl

theorem fileLeft_of_finished {storage : Storage capacity}
    (finished : storage.transfer.remaining = 0) : storage.fileLeft = storage.file := by
  unfold fileLeft
  split
  · rw [if_neg (by omega)]
  · rfl

/-- Only the piece at the very front of the directory moves the file. -/
theorem fileShown_eq (storage : Storage capacity) :
    storage.fileShown =
      if storage.transfer.offset = rootStart * sectorSize then storage.file.rehome
      else storage.file := by
  have front : (storage.transfer.place.2 = 0 ∧ Region.of storage.transfer.place.1 = .rootDir 0) ↔
      storage.transfer.offset = rootStart * sectorSize := by
    simp only [Transfer.place, Region.of_min_word, Region.of_eq_rootDir_iff]
    simp only [sectorSize, show rootStart = 33 from rfl, show rootSectors = 32 from rfl]
    omega
  simp only [fileShown, front]

/-- The packets a transport that owes one can have: the status, a piece of the volume, or an answer. -/
inductive Offering (storage : Storage capacity) : Prop
  | status (finished : storage.transfer.remaining = 0)
  | piece {lba : UInt32} {blocks : UInt16} (sending : storage.transfer.phase = .dataIn)
      (commandIs : storage.transfer.command = some (.read10 lba blocks))
      (more : storage.transfer.remaining ≠ 0)
      (bounded : storage.transfer.offset + storage.transfer.remaining ≤
        sectorSize * (lba.toNat + blocks.toNat))
      (aligned : storage.transfer.offset % maxPacket = 0)
  | answer {command : Command} {length : Nat} (sending : storage.transfer.phase = .dataIn)
      (commandIs : storage.transfer.command = some command)
      (fixed : command.dataPhase = .fixed length) (more : storage.transfer.remaining ≠ 0)

section Owing

variable {storage : Storage capacity}

theorem Owing.offering (owing : storage.Owing) : storage.Offering := by
  by_cases finished : storage.transfer.remaining = 0
  · exact .status finished
  · obtain ⟨sending, sound⟩ := owing.ready.resolve_left finished
    cases sound with
    | idle nothing => exact absurd (by rw [nothing]; rfl) owing.busy
    | reading _ commandIs _ bounded aligned =>
      exact .piece sending commandIs finished bounded (aligned.resolve_left finished)
    | answering _ commandIs fixed => exact .answer sending commandIs fixed finished
    | writing writing => rw [writing] at sending; cases sending
    | closing closing => rw [closing] at sending; cases sending

/-- The packet offered is the first one due, and the host is owed the others once it got it. -/
theorem due_passed (owing : storage.Owing) :
    storage.due = storage.nextPacket :: storage.passed.due := by
  cases owing.offering with
  | status finished =>
    have packet : storage.nextPacket = storage.transfer.status.encode := if_pos finished
    rw [due_of_finished owing.unqueued owing.busy finished, packet, passed_of_finished finished]
    rfl
  | piece sending commandIs more =>
    have next := passed_of_reading commandIs more
    have sendingStill : storage.passed.transfer.phase = .dataIn := by
      rw [next]
      exact sending
    have commandStill : storage.passed.transfer.command = storage.transfer.command := by
      rw [next]
    rw [due_of_reading sending commandIs, due_of_reading sendingStill (commandStill.trans commandIs),
      nextPacket_of_reading commandIs more, chunks_stretch more, next]
    simp only [rehome_fileShown, List.cons_append]
  | answer sending commandIs fixed more =>
    have next := passed_of_answering commandIs fixed more
    have after : storage.passed.due = [storage.passed.transfer.status.encode] := by
      apply due_of_finished
      · rw [next]
        exact owing.unqueued
      · rw [next]
        exact owing.busy
      · rw [next]
    rw [due_of_answering sending commandIs fixed more, after]

theorem due_held (owing : storage.Owing) : storage.held.due = storage.due := by
  cases owing.offering with
  | status finished =>
    rw [due_of_finished owing.unqueued owing.busy finished, held_of_finished finished]
    simp only [due, owing.unqueued, Bool.false_eq_true, if_false]
  | piece sending commandIs more =>
    have next := held_of_reading commandIs more
    have sendingStill : storage.held.transfer.phase = .dataIn := by
      rw [next]
      exact sending
    have commandStill : storage.held.transfer.command = storage.transfer.command := by
      rw [next]
    rw [due_of_reading sending commandIs, due_of_reading sendingStill (commandStill.trans commandIs),
      next]
    simp only [rehome_fileShown]
  | answer sending commandIs fixed more => rw [held_of_answering commandIs fixed more]

theorem fileLeft_passed (owing : storage.Owing) : storage.passed.fileLeft = storage.fileLeft := by
  cases owing.offering with
  | status finished =>
    rw [fileLeft_of_finished finished, passed_of_finished finished]
    exact fileLeft_of_finished finished
  | piece sending commandIs more bounded aligned =>
    have next := passed_of_reading commandIs more
    have commandStill : storage.passed.transfer.command = storage.transfer.command := by
      rw [next]
    rw [fileLeft_of_reading commandIs, fileLeft_of_reading (commandStill.trans commandIs), next]
    simp only [fileShown_eq]
    by_cases here : storage.transfer.offset = rootStart * sectorSize
    · simp only [here, if_true, TrackedFile.rehome_rehome, ite_self, Nat.le_refl, true_and]
      rw [if_pos (by omega)]
    · -- Pieces begin where packets may, so one that begins elsewhere does not hold that byte.
      have front : rootStart * sectorSize % maxPacket = 0 := by decide
      have still : storage.transfer.offset + min storage.transfer.remaining maxPacket ≤
            rootStart * sectorSize ∧
          rootStart * sectorSize < storage.transfer.offset +
            min storage.transfer.remaining maxPacket +
              (storage.transfer.remaining - min storage.transfer.remaining maxPacket) ↔
          storage.transfer.offset ≤ rootStart * sectorSize ∧
            rootStart * sectorSize < storage.transfer.offset + storage.transfer.remaining := by
        simp only [maxPacket] at aligned front ⊢
        omega
      simp only [here, if_false, still]
  | answer sending commandIs fixed more =>
    have next := passed_of_answering commandIs fixed more
    have commandStill : storage.passed.transfer.command = storage.transfer.command := by
      rw [next]
    rw [fileLeft_of_answering commandIs fixed,
      fileLeft_of_answering (commandStill.trans commandIs) fixed, next]

theorem fileLeft_held (owing : storage.Owing) : storage.held.fileLeft = storage.fileLeft := by
  cases owing.offering with
  | status finished =>
    rw [fileLeft_of_finished finished, held_of_finished finished]
    exact fileLeft_of_finished finished
  | piece sending commandIs more bounded aligned =>
    have next := held_of_reading commandIs more
    have commandStill : storage.held.transfer.command = storage.transfer.command := by
      rw [next]
    rw [fileLeft_of_reading commandIs, fileLeft_of_reading (commandStill.trans commandIs), next]
    simp only [fileShown_eq]
    by_cases here : storage.transfer.offset = rootStart * sectorSize
    · simp only [here, if_true, TrackedFile.rehome_rehome, ite_self, Nat.le_refl, true_and]
      rw [if_pos (by omega)]
    · simp only [here, if_false]
  | answer sending commandIs fixed more => rw [held_of_answering commandIs fixed more]

theorem sound_of_finished {transfer : Transfer} (commanded : transfer.command ≠ none)
    (closing : transfer.phase = .statusPending) (finished : transfer.remaining = 0) :
    transfer.Sound := by
  obtain ⟨command, commandIs⟩ := Option.ne_none_iff_exists'.mp commanded
  exact .closing closing commandIs finished

theorem sound_passed (owing : storage.Owing) : storage.passed.transfer.Sound := by
  cases owing.offering with
  | status finished =>
    rw [passed_of_finished finished]
    exact sound_of_finished owing.commanded rfl finished
  | piece sending commandIs more bounded aligned =>
    rw [passed_of_reading commandIs more]
    refine .reading sending commandIs owing.unqueued ?_ ?_
    · have part := Nat.min_le_left storage.transfer.remaining maxPacket
      dsimp only
      omega
    · simp only [maxPacket] at aligned ⊢
      omega
  | answer sending commandIs fixed more =>
    rw [passed_of_answering commandIs fixed more]
    exact .answering sending commandIs fixed owing.unqueued

theorem sound_held (owing : storage.Owing) : storage.held.transfer.Sound := by
  by_cases finished : storage.transfer.remaining = 0
  · rw [held_of_finished finished]
    exact sound_of_finished owing.commanded rfl finished
  · obtain ⟨-, sound⟩ := owing.ready.resolve_left finished
    rw [transfer_held_of_more finished]
    exact sound

theorem leadsTo_passed (owing : storage.Owing) :
    storage.transfer.LeadsTo storage.passed.transfer := by
  cases owing.offering with
  | status finished =>
    rw [passed_of_finished finished]
    exact ⟨.inr rfl, Nat.le_refl _, Nat.le_refl _, fun _ _ _ => rfl⟩
  | piece sending commandIs more =>
    rw [passed_of_reading commandIs more]
    have part := Nat.min_le_left storage.transfer.remaining maxPacket
    exact ⟨.inr rfl, by dsimp only; omega, by dsimp only; omega,
      fun _ _ _ => by dsimp only; omega⟩
  | answer sending commandIs fixed more =>
    rw [passed_of_answering commandIs fixed more]
    refine ⟨.inr rfl, Nat.zero_le _, Nat.le_add_right .., ?_⟩
    intro lba blocks moves
    dsimp only at moves
    rw [commandIs] at moves
    cases moves with
    | inl reading => cases reading; cases fixed
    | inr writing => cases writing; cases fixed

end Owing

theorem dataOut_of_passed {storage : Storage capacity}
    (writing : storage.passed.transfer.phase = .dataOut) : storage.transfer.phase = .dataOut := by
  unfold passed at writing
  split at writing
  · cases writing
  · split at writing <;> exact writing

theorem dataOut_of_held {storage : Storage capacity}
    (writing : storage.held.transfer.phase = .dataOut) : storage.transfer.phase = .dataOut := by
  unfold held at writing
  split at writing
  · cases writing
  · split at writing <;> exact writing

/-- How a call goes that writes nothing: the state stays sound, the packets the host gets are the first
ones due, and the file and its memory stay as they were. -/
structure Serves (storage : Storage capacity) (next : Storage capacity) (events : List Event) :
    Prop where
  sound : next.transfer.Sound
  due : storage.due = acceptedOn storage.identity.endpoints.diskIn events ++ next.due
  keeps : Keeps storage next
  fileLeft : next.fileLeft = storage.fileLeft
  leadsTo : storage.transfer.LeadsTo next.transfer
  /-- While written data is due, nothing happens at all. -/
  waits : storage.transfer.phase = .dataOut → 0 < storage.transfer.remaining → next = storage
  /-- Once all data has moved, not even the cluster of the file changes. -/
  rests : storage.transfer.remaining = 0 → next.transfer.remaining = 0 ∧ next.file = storage.file
  forward : next.transfer.phase = .dataOut → storage.transfer.phase = .dataOut

theorem not_waiting {storage : Storage capacity} (owing : storage.Owing)
    (writing : storage.transfer.phase = .dataOut) : ¬ 0 < storage.transfer.remaining := by
  intro more
  obtain ⟨sending, -⟩ := owing.ready.resolve_left (Nat.ne_of_gt more)
  rw [writing] at sending
  cases sending

theorem Pushed.serves [Link π] {storage next : Storage capacity} {link : π} {events : List Event}
    (pushed : storage.Pushed link next events) (owing : storage.Owing) :
    storage.Serves next events := by
  cases pushed with
  | taken attempted =>
    refine ⟨sound_passed owing, ?_, storage.keeps_passed, fileLeft_passed owing, leadsTo_passed owing,
      fun writing more => absurd more (not_waiting owing writing), ?_, dataOut_of_passed⟩
    · rw [acceptedOn_attempted attempted, if_pos ⟨rfl, rfl⟩, due_passed owing]
      rfl
    · intro finished
      rw [passed_of_finished finished]
      exact ⟨finished, rfl⟩
  | refused notes attempted =>
    refine ⟨sound_held owing, ?_, storage.keeps_held, fileLeft_held owing, storage.leadsTo_held,
      fun writing more => absurd more (not_waiting owing writing), ?_, dataOut_of_held⟩
    · rw [acceptedOn_append, acceptedOn_attempted attempted, acceptedOn_notes, due_held owing]
      simp
    · intro finished
      rw [held_of_finished finished]
      exact ⟨finished, rfl⟩

theorem Serves.nothing {storage : Storage capacity} (sound : storage.transfer.Sound)
    (notes : List Note) : storage.Serves storage (notes.map .note) := by
  refine ⟨sound, ?_, .refl storage, rfl, .refl _, fun _ _ => rfl, fun finished => ⟨finished, rfl⟩, id⟩
  rw [acceptedOn_notes, List.nil_append]

theorem Serves.after_notes {storage next : Storage capacity} {events : List Event}
    (serves : storage.Serves next events) (notes : List Note) :
    storage.Serves next (notes.map .note ++ events) := by
  refine { serves with due := ?_ }
  rw [acceptedOn_append, acceptedOn_notes, List.nil_append]
  exact serves.due

theorem owing_of_dataIn {storage : Storage capacity} (sound : storage.transfer.Sound)
    (sending : storage.transfer.phase = .dataIn) : storage.Owing := by
  obtain ⟨unqueued, commanded⟩ := sound.of_dataIn sending
  refine ⟨unqueued, ?_, commanded, .inr ⟨sending, sound⟩⟩
  rw [sending]
  decide

theorem owing_of_statusPending {storage : Storage capacity} (sound : storage.transfer.Sound)
    (closing : storage.transfer.phase = .statusPending)
    (unqueued : storage.transfer.statusQueued = false) : storage.Owing := by
  obtain ⟨finished, commanded⟩ := sound.of_statusPending closing
  refine ⟨unqueued, ?_, commanded, .inl finished⟩
  rw [closing]
  decide

/-- The transport sends of its own accord: it has data for the host, or a status that is not queued. -/
def Sending (storage : Storage capacity) : Prop :=
  storage.transfer.phase = .dataIn ∨
    storage.transfer.phase = .statusPending ∧ storage.transfer.statusQueued = false

section Sending

variable {storage : Storage capacity}

theorem Sending.owing (sending : storage.Sending) (sound : storage.transfer.Sound) :
    storage.Owing := by
  rcases sending with reading | ⟨closing, unqueued⟩
  · exact owing_of_dataIn sound reading
  · exact owing_of_statusPending sound closing unqueued

theorem Sending.poll_meets [Link π] (sending : storage.Sending) (sound : storage.transfer.Sound)
    (start : π) :
    storage.poll.Meets start fun next _ events => storage.Pushed start next events := by
  rcases sending with reading | ⟨closing, unqueued⟩
  · simp only [poll, reading]
    exact storage.advance_meets sound reading start
  · simp only [poll, closing, unqueued, Bool.false_eq_true, if_false]
    exact storage.sendStatus_meets unqueued (sound.of_statusPending closing).1 start

theorem poll_of_resting [Link π] (resting : ¬ storage.Sending) :
    (storage.poll : Exchange π _) = pure storage := by
  unfold poll
  split
  · rename_i reading
    exact absurd (.inl reading) resting
  · rename_i closing
    exact if_pos (eq_true_of_ne_false fun unqueued => resting (.inr ⟨closing, unqueued⟩))
  all_goals rfl

/-- A packet collected is a reason to send like any other, unless it was the status. -/
theorem onCollected_eq_poll [Link π]
    (unqueued : storage.transfer.phase = .statusPending → storage.transfer.statusQueued = false) :
    (storage.onCollected : Exchange π _) = storage.poll := by
  unfold onCollected poll
  cases phaseIs : storage.transfer.phase with
  | statusPending => simp only [unqueued phaseIs, Bool.false_eq_true, if_false]
  | idle | dataIn | dataOut => rfl

theorem onCollected_of_queued [Link π] (closing : storage.transfer.phase = .statusPending)
    (queued : storage.transfer.statusQueued = true) :
    (storage.onCollected : Exchange π _) = (do
      Exchange.log (.statusCollected storage.transfer.status.tag)
      return { storage with transfer := .idle }) := by
  simp only [onCollected, closing, queued, if_true]

/-- A packet collected was the status, or it is a reason to send. -/
theorem onCollected_cases [Link π] (storage : Storage capacity) :
    storage.transfer.phase = .statusPending ∧ storage.transfer.statusQueued = true ∧
        (storage.onCollected : Exchange π _) = (do
          Exchange.log (.statusCollected storage.transfer.status.tag)
          return { storage with transfer := .idle }) ∨
      (storage.onCollected : Exchange π _) = storage.poll := by
  by_cases collected : storage.transfer.phase = .statusPending ∧ storage.transfer.statusQueued = true
  · obtain ⟨closing, queued⟩ := collected
    exact .inl ⟨closing, queued, onCollected_of_queued closing queued⟩
  · refine .inr (onCollected_eq_poll fun closing => eq_false_of_ne_true fun queued => ?_)
    exact collected ⟨closing, queued⟩

end Sending

/-- What a call comes to that sends if there is anything to send: one push, or nothing at all. -/
inductive MayPush [Link π] (storage : Storage capacity) (link : π) :
    Storage capacity → List Event → Prop
  | pushed {next : Storage capacity} {events : List Event} (owing : storage.Owing)
      (pushed : storage.Pushed link next events) : MayPush storage link next events
  | rested (sound : storage.transfer.Sound) : MayPush storage link storage []

theorem MayPush.serves [Link π] {storage next : Storage capacity} {link : π} {events : List Event}
    (moved : storage.MayPush link next events) : storage.Serves next events := by
  cases moved with
  | pushed owing pushed => exact pushed.serves owing
  | rested sound => exact .nothing sound []

theorem poll_mayPush [Link π] {storage : Storage capacity} (sound : storage.transfer.Sound)
    (start : π) :
    storage.poll.Meets start fun next _ events => storage.MayPush start next events := by
  by_cases sending : storage.Sending
  · exact (sending.poll_meets sound start).mono
      fun _ _ _ pushed => .pushed (sending.owing sound) pushed
  · rw [poll_of_resting sending, Exchange.meets_pure]
    exact .rested sound

theorem poll_meets [Link π] {storage : Storage capacity} (sound : storage.transfer.Sound)
    (start : π) :
    storage.poll.Meets start fun next _ events => storage.Serves next events :=
  (poll_mayPush sound start).mono fun _ _ _ moved => moved.serves

theorem onCollected_meets [Link π] {storage : Storage capacity} (sound : storage.transfer.Sound)
    (start : π) :
    storage.onCollected.Meets start fun next _ events => storage.Serves next events := by
  rcases storage.onCollected_cases (π := π) with ⟨closing, queued, ended⟩ | polled
  · rw [ended]
    simp only [Exchange.meets_bind, Exchange.meets_log, Exchange.meets_pure]
    refine ⟨.idle rfl, ?_, ⟨rfl, rfl, .inl rfl, rfl⟩, ?_, .idle _, ?_, fun _ => ⟨rfl, rfl⟩,
      Phase.noConfusion⟩
    · simp [due, closing, queued, Transfer.idle]
    · exact (fileLeft_of_finished (sound.of_statusPending closing).1).symm
    · intro writing
      cases closing.symm.trans writing
  · rw [polled]
    exact poll_meets sound start

/-- A packet that is no command is thrown away unless written data is due. -/
theorem stray_eq [Link π] (storage : Storage capacity) {packet : List UInt8}
    {reason : CommandWrapper.DecodeError} (undecoded : CommandWrapper.decode packet = .error reason)
    (notWriting : storage.transfer.phase ≠ .dataOut) :
    ∃ notes, (storage.onPacket packet : Exchange π _) =
      Exchange.logAll notes >>= fun _ => pure storage := by
  unfold onPacket
  rw [undecoded]
  cases phaseIs : storage.transfer.phase with
  | dataOut => exact absurd phaseIs notWriting
  | idle | dataIn | statusPending =>
    simp only [Exchange.log_then, Exchange.logAll_logAll]
    exact ⟨_, rfl⟩

theorem stray_meets [Link π] {storage : Storage capacity} (sound : storage.transfer.Sound)
    {packet : List UInt8} {reason : CommandWrapper.DecodeError}
    (undecoded : CommandWrapper.decode packet = .error reason)
    (notWriting : storage.transfer.phase ≠ .dataOut) (start : π) :
    (storage.onPacket packet).Meets start fun next _ events => storage.Serves next events := by
  obtain ⟨notes, thrownAway⟩ := storage.stray_eq (π := π) undecoded notWriting
  rw [thrownAway, Exchange.meets_bind, Exchange.meets_logAll, Exchange.meets_pure, List.append_nil]
  exact .nothing sound notes

end Storage

end ScriptDrive
