import ScriptDrive.Proofs.Drive.RoundTrip

/-!
# Commands with all of their data

`Completes` is a session in which the host also sends the data of the command, in packets that do not
tear directory slots apart, and in which nobody takes the mark of a changed file away.  Such a session
settles the file and the memory to the byte: after a command that writes nothing the file is what
`Storage.fileLeft` says, and after a write it is what a walk over the data leaves.
-/

set_option autoImplicit false

namespace ScriptDrive

open Volume (Walker)

variable {π : Type} {capacity : Nat}

/-- Packets of written data none of which but the last ends inside a slot. -/
def Untorn (packets : List (List UInt8)) : Prop :=
  ∀ front rest, packets = front ++ rest → rest ≠ [] → front.flatten.length % dirEntrySize = 0

theorem untorn_chunks {data : List UInt8} (full : data.length % maxPacket = 0) :
    Untorn (chunks data) := by
  intro front rest parts _
  exact length_flatten_front full parts

theorem sentIn_append (endpoint : UInt8) (first second : List (Call π)) :
    sentIn endpoint (first ++ second) = sentIn endpoint first ++ sentIn endpoint second :=
  List.flatMap_append

theorem sentIn_of_fetches (endpoint : UInt8) {calls : List (Call π)}
    (fetching : ∀ made ∈ calls, made.operation.Fetches) : sentIn endpoint calls = [] := by
  rw [sentIn, List.flatMap_eq_nil_iff]
  intro made present
  have fetches := fetching made present
  cases operationIs : made.operation with
  | packet => rw [operationIs] at fetches; exact fetches.elim
  | _ => rfl

theorem Operation.Fetches.unread {operation : Operation} (fetches : operation.Fetches) :
    operation ≠ .takeChanged := by
  intro same
  rw [same] at fetches
  exact fetches

/-- A command that writes all of `data`, which is whole blocks, from a sector on. -/
inductive CommandWrapper.Writes (wrapper : CommandWrapper) (sector : Nat) (data : List UInt8) : Prop
  | blocks {lba : UInt32} {blocks : UInt16} (commandIs : wrapper.command = .write10 lba blocks)
      (sectorIs : lba.toNat = sector) (size : data.length = sectorSize * blocks.toNat)
      (asked : data.length ≤ wrapper.requested.toNat)

theorem CommandWrapper.Writes.written {wrapper : CommandWrapper} {sector : Nat} {data : List UInt8}
    (writes : wrapper.Writes sector data) : wrapper.written = data.length := by
  cases writes with
  | blocks commandIs _ size asked =>
    simp only [CommandWrapper.written, commandIs, Scsi.Command.named, ← size]
    exact Nat.min_eq_left asked

namespace Storage

theorem fileLeft_of_idle {storage : Storage capacity} (sound : storage.transfer.Sound)
    (idle : storage.transfer.phase = .idle) : storage.fileLeft = storage.file := by
  apply fileLeft_of_finished
  rw [sound.eq_idle idle]
  rfl

end Storage

namespace Drive

theorem DoesQuietly.fileLeft {drive next : Drive capacity} {events : List Event}
    {operation : Operation} (does : drive.DoesQuietly next events operation)
    (reading : drive.phase ≠ .dataOut) (unread : operation ≠ .takeChanged) :
    next.storage.fileLeft = drive.storage.fileLeft := by
  cases does with
  | served _ serves => exact serves.fileLeft
  | written _ writing => exact absurd writing reading
  | cleaned taken => exact absurd taken unread
  | printed _ storageIs => rw [storageIs]

/-- Quiet calls after which nothing is written leave the file as the command in flight leaves it. -/
theorem fileLeft_of_quiet [Link π] {drive last : Drive capacity} {calls : List (Call π)}
    {outcomes : List Outcome} (sound : drive.storage.transfer.Sound)
    (reading : drive.phase ≠ .dataOut)
    (quiet : ∀ made ∈ calls, made.operation.Quiet drive.identity.endpoints)
    (unread : ∀ made ∈ calls, made.operation ≠ .takeChanged)
    (ran : drive.run calls = .ok (last, outcomes)) :
    last.storage.fileLeft = drive.storage.fileLeft := by
  induction calls generalizing drive outcomes with
  | nil =>
    cases ran
    rfl
  | cons made rest restInduction =>
    obtain ⟨next, outcome, later, called, ranRest, rfl⟩ := of_run_cons ran
    have does := does_of_call sound called
    have quietly := does.quietly (quiet made List.mem_cons_self)
    have carries := quietly.carries does.identity (does.transfer_sound sound) reading
    have left := restInduction carries.sound carries.reading (by
      intro other present
      rw [does.identity]
      exact quiet other (List.mem_cons_of_mem made present))
      (fun other present => unread other (List.mem_cons_of_mem made present)) ranRest
    rw [left, quietly.fileLeft reading (unread made List.mem_cons_self)]

/-! ## Completed commands -/

/-- A command that writes `data`, and quiet calls after it that send the data, from links of any kind,
until the transport is idle again. -/
inductive Completes (drive : Drive capacity) (wrapper : CommandWrapper) (data : List UInt8)
    (last : Drive capacity) (packets : List (List UInt8)) : Prop
  | carried {π : Type} [Link π] {packet : List UInt8} {link : π} {calls : List (Call π)}
      {outcomes : List Outcome} (decoded : CommandWrapper.decode packet = .ok wrapper)
      (quiet : ∀ made ∈ calls, made.operation.Quiet drive.identity.endpoints)
      (unread : ∀ made ∈ calls, made.operation ≠ .takeChanged)
      (untorn : Untorn (sentIn drive.identity.endpoints.diskOut calls))
      (sent : (sentIn drive.identity.endpoints.diskOut calls).flatten = data)
      (ran : drive.run (drive.send packet link :: calls) = .ok (last, outcomes))
      (idle : last.phase = .idle)
      (accepted : acceptedIn drive.identity.endpoints.diskIn outcomes = packets)

section Completes

variable {drive last : Drive capacity} {wrapper : CommandWrapper} {data : List UInt8}
  {packets : List (List UInt8)} {lba : UInt32} {blocks : UInt16}

theorem Completes.session (completes : drive.Completes wrapper data last packets) :
    drive.Session wrapper last packets := by
  cases completes with
  | carried decoded quiet _ _ _ ran idle accepted => exact .carried decoded quiet ran idle accepted

/-- After a command that writes nothing the file is where the command leaves it. -/
theorem Completes.file_eq (completes : drive.Completes wrapper data last packets)
    (noData : wrapper.written = 0) : last.file = (drive.opening wrapper).fileLeft := by
  cases completes with
  | @carried π _ packet link calls outcomes decoded quiet unread _ _ ran idle =>
    obtain ⟨next, outcome, later, called, ranRest, -⟩ := of_run_cons ran
    obtain ⟨other, otherOutcome, calledOther, serves, reading⟩ :=
      drive.call_reading decoded noData link
    rw [called] at calledOther
    cases calledOther
    have identityIs : next.identity = drive.identity := serves.keeps.identity
    have quietNext : ∀ made ∈ calls, made.operation.Quiet next.identity.endpoints := by
      rw [identityIs]
      exact quiet
    obtain ⟨_, _, ranQuiet, carries⟩ := run_quiet serves.sound reading calls quietNext
    rw [ranRest] at ranQuiet
    cases ranQuiet
    have left := fileLeft_of_quiet serves.sound reading quietNext unread ranRest
    rw [Storage.fileLeft_of_idle carries.sound idle, serves.fileLeft] at left
    exact left

/-- A command that writes nothing keeps all but the cluster of the file, which it may put back. -/
theorem Completes.keeps_of_noData (completes : drive.Completes wrapper data last packets)
    (noData : wrapper.written = 0) : drive.storage.Keeps last.storage := by
  obtain ⟨-, same⟩ := completes.session.response noData
  have fileIs : last.storage.file = (drive.opening wrapper).fileLeft := completes.file_eq noData
  have fileWas : (drive.opening wrapper).file = drive.storage.file := rfl
  refine ⟨same.identity, ?_, ?_, same.ram⟩
  · rcases (drive.opening wrapper).fileLeft_eq_or with still | home
    · rw [fileIs, still, fileWas]
    · rw [fileIs, home, fileWas, TrackedFile.rehome_rehome]
  · rcases (drive.opening wrapper).fileLeft_eq_or with still | home
    · exact .inl (by rw [fileIs, still, fileWas])
    · exact .inr (by rw [fileIs, home, TrackedFile.cluster_rehome])

/-- A read of whole blocks puts the file back when it shows the front of the directory, and only then. -/
theorem Completes.file_of_reading (completes : drive.Completes wrapper data last packets)
    (commandIs : wrapper.command = .read10 lba blocks)
    (asked : sectorSize * blocks.toNat ≤ wrapper.requested.toNat) :
    last.file =
      if lba.toNat ≤ rootStart ∧ rootStart < lba.toNat + blocks.toNat then drive.file.rehome
      else drive.file := by
  have noData : wrapper.written = 0 := by simp only [CommandWrapper.written, commandIs]
  have carried : (drive.opening wrapper).transfer.command = some (.read10 lba blocks) := by
    simp only [opening, CommandWrapper.transfer_of_reading commandIs]
    exact congrArg some commandIs
  have covered : sectorSize * lba.toNat ≤ rootStart * sectorSize ∧
      rootStart * sectorSize < sectorSize * lba.toNat + sectorSize * blocks.toNat ↔
        lba.toNat ≤ rootStart ∧ rootStart < lba.toNat + blocks.toNat := by
    simp only [sectorSize]
    omega
  rw [completes.file_eq noData, Storage.fileLeft_of_reading carried]
  simp only [opening, CommandWrapper.transfer_of_reading commandIs, CommandWrapper.blockTransfer,
    Nat.min_eq_left asked, covered]
  rfl

/-- A write leaves what a walk over its data leaves. -/
theorem Completes.walked (completes : drive.Completes wrapper data last packets)
    (commandIs : wrapper.command = .write10 lba blocks) (moves : 0 < wrapper.written) :
    last.identity = drive.identity ∧
      last.file = (drive.walked lba (data.take wrapper.written)).file ∧
      last.storage.ram.bytes = (drive.walked lba (data.take wrapper.written)).memory := by
  cases completes with
  | @carried π _ packet link calls outcomes decoded quiet unread untorn sent ran idle =>
    obtain ⟨_, _, ranWrite, wrote, -, identityIs, -⟩ :=
      drive.run_write decoded commandIs moves link calls quiet unread untorn
    rw [ran] at ranWrite
    cases ranWrite
    obtain ⟨-, offsetIs, remainingIs, -⟩ := transfer_of_written commandIs moves
    have start : (drive.opening wrapper).transfer.offset % dirEntrySize = 0 := by
      simp only [opening, offsetIs, sectorSize, dirEntrySize]
      omega
    obtain ⟨fileIs, ramIs⟩ := wrote.walked start
    simp only [opening, Storage.walker, offsetIs, remainingIs, sent] at fileIs ramIs
    exact ⟨identityIs, fileIs, ramIs⟩

theorem Completes.wrote {sector : Nat} (completes : drive.Completes wrapper data last packets)
    (writes : wrapper.Writes sector data) (nonempty : data ≠ []) :
    let walker := Walker.walk drive.identity.fileName
      ⟨sectorSize * sector, [], drive.file, drive.storage.ram.bytes⟩ data
    last.identity = drive.identity ∧ last.file = walker.file ∧
      last.storage.ram.bytes = walker.memory := by
  have written := writes.written
  cases writes with
  | blocks commandIs sectorIs =>
    have walked := completes.walked commandIs (by
      rw [written]
      exact List.length_pos_iff.mpr nonempty)
    rw [written, List.take_length, Drive.walked, sectorIs] at walked
    exact walked

/-- A write in front of the root directory changes nothing. -/
theorem Completes.keeps_of_front (completes : drive.Completes wrapper data last packets)
    (commandIs : wrapper.command = .write10 lba blocks)
    (front : lba.toNat + blocks.toNat ≤ rootStart) : drive.storage.Keeps last.storage := by
  by_cases noData : wrapper.written = 0
  · exact completes.keeps_of_noData noData
  · obtain ⟨identityIs, fileIs, ramIs⟩ :=
      completes.walked commandIs (Nat.pos_of_ne_zero noData)
    have written : wrapper.written ≤ sectorSize * blocks.toNat := by
      simp only [CommandWrapper.written, commandIs, Scsi.Command.named]
      exact Nat.min_le_left ..
    have short : (data.take wrapper.written).length ≤ wrapper.written := List.length_take_le ..
    rw [Drive.walked, Walker.walk_elsewhere _ _ _ (.inl (by
      simp only [sectorSize] at written ⊢
      omega))] at fileIs ramIs
    exact ⟨identityIs, congrArg TrackedFile.rehome fileIs, .inl (congrArg TrackedFile.cluster fileIs),
      RamDisk.ext ramIs⟩

end Completes

/-! ## A host that takes every packet -/

section Existence

variable {drive : Drive capacity} {wrapper : CommandWrapper}

/-- Once a command has all of its data, taking what is due completes it. -/
theorem exists_completes_of_run {middle : Drive capacity} {calls : List (Call Willing)}
    {outcomes : List Outcome}
    (quiet : ∀ made ∈ calls, made.operation.Quiet drive.identity.endpoints)
    (unread : ∀ made ∈ calls, made.operation ≠ .takeChanged)
    (untorn : Untorn (sentIn drive.identity.endpoints.diskOut calls))
    (ran : drive.run (drive.send wrapper.encode .willing :: calls) = .ok (middle, outcomes))
    (sound : middle.storage.transfer.Sound) (reading : middle.phase ≠ .dataOut) :
    ∃ last packets, drive.Completes wrapper
      (sentIn drive.identity.endpoints.diskOut calls).flatten last packets := by
  obtain ⟨later, fetching, last, outcomesLater, ranLater, idle⟩ := exists_idle sound reading
  have sent : sentIn drive.identity.endpoints.diskOut (calls ++ later) =
      sentIn drive.identity.endpoints.diskOut calls := by
    rw [sentIn_append, sentIn_of_fetches _ fetching, List.append_nil]
  have ranAll : drive.run (drive.send wrapper.encode .willing :: (calls ++ later)) =
      .ok (last, outcomes ++ outcomesLater) := run_append ran ranLater
  refine ⟨last, _, .carried wrapper.decode_encode ?_ ?_ ?_ ?_ ranAll idle rfl⟩
  · rw [List.forall_mem_append]
    exact ⟨quiet, fun made present => (fetching made present).quiet _⟩
  · rw [List.forall_mem_append]
    exact ⟨unread, fun made present => (fetching made present).unread⟩
  · rw [sent]
    exact untorn
  · rw [sent]

theorem exists_completes_of_noData (drive : Drive capacity) (noData : wrapper.written = 0) :
    ∃ last packets, drive.Completes wrapper [] last packets := by
  obtain ⟨next, outcome, called, serves, reading⟩ :=
    drive.call_reading wrapper.decode_encode noData Willing.willing
  have untorn : Untorn [] := by
    rw [← chunks_nil]
    exact untorn_chunks rfl
  exact exists_completes_of_run (List.forall_mem_nil _) (List.forall_mem_nil _) untorn
    (run_cons called rfl) serves.sound reading

/-- A write whose data fills its packets can be completed. -/
theorem exists_completes_of_writing (drive : Drive capacity) {lba : UInt32} {blocks : UInt16}
    (commandIs : wrapper.command = .write10 lba blocks) (moves : 0 < wrapper.written)
    {data : List UInt8} (full : data.length % maxPacket = 0)
    (enough : wrapper.written ≤ data.length) :
    ∃ last packets, drive.Completes wrapper data last packets := by
  have sent := sentIn_sending drive.identity.endpoints.diskOut (chunks data)
  have unread : ∀ made ∈ sending drive.identity.endpoints.diskOut (chunks data),
      made.operation ≠ .takeChanged := by
    intro made present
    obtain ⟨bytes, -, rfl⟩ := List.mem_map.mp present
    exact Operation.noConfusion
  have quiet : ∀ made ∈ sending drive.identity.endpoints.diskOut (chunks data),
      made.operation.Quiet drive.identity.endpoints := by
    apply quiet_of_sent full sent
    intro made present unsent
    obtain ⟨bytes, -, rfl⟩ := List.mem_map.mp present
    rw [Operation.sentTo, if_pos rfl] at unsent
    cases unsent
  have untorn : Untorn (sentIn drive.identity.endpoints.diskOut
      (sending drive.identity.endpoints.diskOut (chunks data))) := by
    rw [sent]
    exact untorn_chunks full
  obtain ⟨middle, outcomes, ran, wrote, sound, -, -⟩ := drive.run_write wrapper.decode_encode
    commandIs moves Willing.willing _ quiet unread untorn
  obtain ⟨-, -, remainingIs, -⟩ := transfer_of_written commandIs moves
  have completed := exists_completes_of_run quiet unread untorn ran sound
    (wrote.not_dataOut sound (by
      rw [sent, flatten_chunks]
      simp only [opening, remainingIs]
      exact enough))
  rw [sent, flatten_chunks] at completed
  exact completed

theorem exists_completes_of_writes (drive : Drive capacity) {sector : Nat} {data : List UInt8}
    (writes : wrapper.Writes sector data) (nonempty : data ≠ []) :
    ∃ last packets, drive.Completes wrapper data last packets := by
  have written := writes.written
  cases writes with
  | blocks commandIs _ size =>
    apply drive.exists_completes_of_writing commandIs
    · rw [written]
      exact List.length_pos_iff.mpr nonempty
    · rw [size]
      simp only [sectorSize, maxPacket]
      omega
    · exact Nat.le_of_eq written

end Existence

end Drive

end ScriptDrive
