import ScriptDrive.Proofs.Drive.Histories

/-!
# What only written data changes

The file and its memory change with the packets of written data and with nothing else, but for two things:
the program takes the mark of a changed file away, and a read of the root directory puts the file back at
the first cluster.  `Does.untouched` goes through the calls for all that `Serves` keeps; the cluster, which
it does not keep, is followed through what the transport offers, in `Shows`.
-/

set_option autoImplicit false

namespace ScriptDrive

open Exchange

variable {π : Type} {capacity : Nat}

namespace Storage

/-- The front of the root directory is offered to the host, for a command that reads blocks. -/
structure ShowsRoot (storage next : Storage capacity) (events : List Event) : Prop where
  reading : ∃ lba blocks, storage.transfer.command = some (.read10 lba blocks)
  front : storage.transfer.offset = rootStart * sectorSize
  offered : offersOf events ≠ []
  packet : ∀ made ∈ offersOf events, made.endpoint = storage.identity.endpoints.diskIn ∧
    made.bytes = (Volume.image storage.identity next.file storage.ram rootStart).take
      (min storage.transfer.remaining maxPacket)

/-- What sending does to the file: nothing, unless the front of the root directory is shown. -/
inductive Shows (storage next : Storage capacity) (events : List Event) : Prop
  | other (fileIs : next.file = storage.file)
  | root (fileIs : next.file = storage.file.rehome) (shown : storage.ShowsRoot next events)

section Shows

variable {storage next : Storage capacity} {events : List Event}

theorem Shows.after_notes (shows : storage.Shows next events) (notes : List Note) :
    storage.Shows next (notes.map .note ++ events) := by
  have same : offersOf (notes.map .note ++ events) = offersOf events := by
    rw [offersOf_append, offersOf_notes, List.nil_append]
  cases shows with
  | other fileIs => exact .other fileIs
  | root fileIs shown =>
    refine .root fileIs ⟨shown.reading, shown.front, ?_, ?_⟩
    · rw [same]
      exact shown.offered
    · rw [same]
      exact shown.packet

theorem Shows.cluster (shows : storage.Shows next events)
    (moved : next.file.cluster ≠ storage.file.cluster) :
    next.file.cluster = firstDataCluster ∧ storage.ShowsRoot next events := by
  cases shows with
  | other fileIs => exact absurd (congrArg TrackedFile.cluster fileIs) moved
  | root fileIs shown => exact ⟨congrArg TrackedFile.cluster fileIs, shown⟩

/-- A piece at the front of the root directory is the front of its first sector. -/
theorem nextPacket_of_front {lba : UInt32} {blocks : UInt16}
    (commandIs : storage.transfer.command = some (.read10 lba blocks))
    (more : storage.transfer.remaining ≠ 0)
    (front : storage.transfer.offset = rootStart * sectorSize) :
    storage.nextPacket = (Volume.image storage.identity storage.file.rehome storage.ram rootStart).take
      (min storage.transfer.remaining maxPacket) := by
  have small := Nat.min_le_right storage.transfer.remaining maxPacket
  rw [nextPacket_of_reading commandIs more, front, Volume.stretch_eq_window]
  · rfl
  · have width : sectorSize = 512 := rfl
    have packetWidth : maxPacket = 64 := rfl
    have start : rootStart * sectorSize % sectorSize = 0 := Nat.mul_mod_left ..
    omega

theorem Pushed.shows [Link π] {link : π} (pushed : storage.Pushed link next events)
    (owing : storage.Owing) : storage.Shows next events := by
  -- Either way the same packet was offered, and the file is the one that is shown.
  obtain ⟨fileIs, offered, packet⟩ : (next = storage.passed ∨ next = storage.held) ∧
      offersOf events ≠ [] ∧ ∀ made ∈ offersOf events,
        made.endpoint = storage.identity.endpoints.diskIn ∧ made.bytes = storage.nextPacket := by
    cases pushed with
    | taken attempted => exact ⟨.inl rfl, attempted.offered, attempted.offer_eq⟩
    | refused notes attempted =>
      rw [offersOf_append, offersOf_notes, List.append_nil]
      exact ⟨.inr rfl, attempted.offered, attempted.offer_eq⟩
  cases owing.offering with
  | status finished =>
    refine .other ?_
    rcases fileIs with rfl | rfl
    · rw [passed_of_finished finished]
    · rw [held_of_finished finished]
  | answer sending commandIs fixed more =>
    refine .other ?_
    rcases fileIs with rfl | rfl
    · rw [passed_of_answering commandIs fixed more]
    · rw [held_of_answering commandIs fixed more]
  | piece sending commandIs more =>
    have shown : next.file = storage.fileShown := by
      rcases fileIs with rfl | rfl
      · rw [passed_of_reading commandIs more]
      · rw [held_of_reading commandIs more]
    rw [fileShown_eq] at shown
    split at shown
    · rename_i front
      refine .root shown ⟨⟨_, _, commandIs⟩, front, offered, ?_⟩
      rw [shown, ← nextPacket_of_front commandIs more front]
      exact packet
    · exact .other shown

end Shows

theorem poll_shows [Link π] {storage : Storage capacity} (sound : storage.transfer.Sound) (start : π) :
    storage.poll.Meets start fun next _ events => storage.Shows next events := by
  refine (poll_mayPush sound start).mono ?_
  intro next after events moved
  cases moved with
  | pushed owing pushed => exact pushed.shows owing
  | rested sound => exact .other rfl

theorem onCollected_shows [Link π] {storage : Storage capacity} (sound : storage.transfer.Sound)
    (start : π) :
    storage.onCollected.Meets start fun next _ events => storage.Shows next events := by
  rcases storage.onCollected_cases (π := π) with ⟨_, _, ended⟩ | polled
  · rw [ended]
    simp only [meets_bind, meets_log, meets_pure]
    exact .other rfl
  · rw [polled]
    exact poll_shows sound start

end Storage

namespace Drive

/-- The call brings data to a transport that waits for it: a packet on the disk's endpoint that is no
command. -/
def TakesData (drive : Drive capacity) (operation : Operation) : Prop :=
  drive.phase = .dataOut ∧ ∃ bytes reason, operation = .packet drive.identity.endpoints.diskOut bytes ∧
    CommandWrapper.decode bytes = .error reason

/-- The call brings such a packet when no data is due. -/
def Strays (drive : Drive capacity) (operation : Operation) : Prop :=
  drive.phase ≠ .dataOut ∧ ∃ bytes reason, operation = .packet drive.identity.endpoints.diskOut bytes ∧
    CommandWrapper.decode bytes = .error reason

def facing (drive : Drive capacity) (operation : Operation) : Storage capacity :=
  match operation.command? drive.identity.endpoints with
  | some wrapper => { drive.storage with transfer := wrapper.transfer }
  | none => drive.storage

/-- What a call leaves of the file and its memory. -/
structure Confined (drive next : Drive capacity) (operation : Operation) (events : List Event) :
    Prop where
  ram : ¬ drive.TakesData operation → next.storage.ram = drive.storage.ram
  size : ¬ drive.TakesData operation → next.file.size = drive.file.size
  script : ¬ drive.TakesData operation → next.script = drive.script
  marked : drive.file.dirty = false → next.file.dirty = true → drive.TakesData operation
  cleared : drive.file.dirty = true → next.file.dirty = false → operation = .takeChanged
  cluster : next.file.cluster ≠ drive.file.cluster → drive.TakesData operation ∨
    next.file.cluster = firstDataCluster ∧ (drive.facing operation).ShowsRoot next.storage events
  stray : drive.Strays operation → next = drive ∧ offersOf events = []

section Does

variable {drive next : Drive capacity} {events : List Event} {operation : Operation}

theorem same_of_serves {storage : Storage capacity} (serves : storage.Serves next.storage events)
    (identityIs : storage.identity = drive.identity) (fileIs : storage.file = drive.file)
    (ramIs : storage.ram = drive.storage.ram) : drive.Same next :=
  ⟨serves.keeps.identity.trans identityIs, serves.size.trans (congrArg TrackedFile.size fileIs),
    serves.keeps.ram.trans ramIs⟩

theorem Does.untouched (does : drive.Does next events operation)
    (noData : ¬ drive.TakesData operation) : drive.Same next := by
  have identityIs := does.identity
  cases does with
  | handled packet handled =>
    cases handled with
    | begun _ serves => exact same_of_serves serves rfl rfl rfl
    | written undecoded writing => exact absurd ⟨writing, _, _, packet, undecoded⟩ noData
    | stray _ _ serves => exact same_of_serves serves rfl rfl rfl
  | served _ serves => exact same_of_serves serves rfl rfl rfl
  | cleaned _ storageIs | dropped _ storageIs | printed _ storageIs =>
    have sizeIs := congrArg (fun storage => storage.file.size) storageIs
    have ramIs := congrArg Storage.ram storageIs
    exact ⟨identityIs, sizeIs, ramIs⟩

/-- Data can set the mark of a changed file and the program takes it away; it stays otherwise. -/
theorem Does.dirty (does : drive.Does next events operation) :
    next.file.dirty = drive.file.dirty ∨
      drive.TakesData operation ∧ (drive.file.dirty = true → next.file.dirty = true) ∨
      operation = .takeChanged ∧ next.file.dirty = false := by
  cases does with
  | handled packet handled =>
    cases handled with
    | begun _ serves => exact .inl serves.dirty
    | written undecoded writing takes serves =>
      refine .inr (.inl ⟨⟨writing, _, _, packet, undecoded⟩, fun marked => ?_⟩)
      exact serves.dirty.trans (takes.becomes.dirty marked)
    | stray _ _ serves => exact .inl serves.dirty
  | served _ serves => exact .inl serves.dirty
  | cleaned taken storageIs =>
    exact .inr (.inr ⟨taken, congrArg (fun storage => storage.file.dirty) storageIs⟩)
  | dropped _ storageIs | printed _ storageIs =>
    exact .inl (congrArg (fun storage => storage.file.dirty) storageIs)

end Does

/-! ## The cluster -/

theorem facing_of_command {drive : Drive capacity} {operation : Operation} {wrapper : CommandWrapper}
    (commandIs : operation.command? drive.identity.endpoints = some wrapper) :
    drive.facing operation = { drive.storage with transfer := wrapper.transfer } := by
  rw [facing, commandIs]

theorem facing_of_none {drive : Drive capacity} {operation : Operation}
    (commandIs : operation.command? drive.identity.endpoints = none) :
    drive.facing operation = drive.storage := by
  rw [facing, commandIs]

theorem file_facing (drive : Drive capacity) (operation : Operation) :
    (drive.facing operation).file = drive.file := by
  unfold facing
  split <;> rfl

theorem packet_shows [Link π] {drive : Drive capacity} (endpoint : UInt8) (bytes : List UInt8)
    (noData : ¬ drive.TakesData (.packet endpoint bytes)) (start : π) :
    (drive.onPacket endpoint bytes).Meets start fun next _ events =>
      (drive.facing (.packet endpoint bytes)).Shows next.storage events := by
  by_cases disk : endpoint = drive.identity.endpoints.diskOut
  · subst disk
    rw [onPacket_disk]
    apply Meets.andPure
    cases decoded : CommandWrapper.decode bytes with
    | ok wrapper =>
      obtain ⟨notes, begun⟩ := drive.storage.command_eq (π := π) decoded
      have commandIs : (Operation.packet drive.identity.endpoints.diskOut bytes).command?
          drive.identity.endpoints = some wrapper := by
        rw [Operation.command?, if_pos rfl, decoded]
        rfl
      rw [facing_of_command commandIs, begun, meets_bind, meets_logAll]
      refine (Storage.poll_shows (drive.storage.opens_transfer wrapper).sound start).mono ?_
      intro next after events shows
      exact shows.after_notes notes
    | error reason =>
      have notWriting : drive.storage.transfer.phase ≠ .dataOut :=
        fun writing => noData ⟨writing, bytes, reason, rfl, decoded⟩
      obtain ⟨notes, thrownAway⟩ := drive.storage.stray_eq (π := π) decoded notWriting
      have commandIs : (Operation.packet drive.identity.endpoints.diskOut bytes).command?
          drive.identity.endpoints = none := by
        rw [Operation.command?, if_pos rfl, decoded]
        rfl
      rw [facing_of_none commandIs, thrownAway, meets_bind, meets_logAll, meets_pure]
      exact .other rfl
  · have commandIs : (Operation.packet endpoint bytes).command? drive.identity.endpoints = none :=
      if_neg disk
    rw [facing_of_none commandIs]
    by_cases console : endpoint = drive.identity.endpoints.consoleOut
    · rw [drive.onPacket_console bytes disk console]
      simp only [meets_bind, meets_logAll, meets_pure]
      exact .other rfl
    · rw [drive.onPacket_unclaimed bytes disk console]
      simp only [meets_bind, meets_log, meets_pure]
      exact .other rfl

/-- The other calls neither send for the disk nor take data in. -/
theorem perform_keeps_cluster [Link π] (drive : Drive capacity) {operation : Operation}
    (noPacket : ∀ endpoint bytes, operation ≠ .packet endpoint bytes)
    (notCollected : ∀ endpoint, operation ≠ .collected endpoint) (notPoll : operation ≠ .poll)
    (start : π) :
    (drive.perform operation).Yields start fun result _ =>
      result.1.file.cluster = drive.file.cluster := by
  cases operation with
  | packet endpoint bytes => exact absurd rfl (noPacket endpoint bytes)
  | collected endpoint => exact absurd rfl (notCollected endpoint)
  | poll => exact absurd rfl notPoll
  | classRequest code =>
    simp only [perform, classRequest]
    cases ClassRequest.ofCode? code.toNat with
    | none => exact yields_pure _ _ rfl
    | some request =>
      cases request with
      | getMaxLun => exact yields_pure _ _ rfl
      | bulkOnlyReset =>
        simp only [reset, bind_assoc, pure_bind]
        exact .bind fun _ _ => .bind fun _ _ => yields_pure _ _ rfl
  | reset =>
    simp only [perform, reset, bind_assoc, pure_bind]
    exact .bind fun _ _ => yields_pure _ _ rfl
  | takeChanged => exact yields_pure _ _ rfl
  | script | print => exact .bind fun _ _ => yields_pure _ _ rfl
  | openScript => exact .bind fun _ _ => .bind fun _ _ => yields_pure _ _ rfl

/-- Without written data only what is sent moves the file. -/
theorem perform_shows [Link π] {drive : Drive capacity} (sound : drive.storage.transfer.Sound)
    {operation : Operation} (noData : ¬ drive.TakesData operation) (start : π) :
    (drive.perform operation).Meets start fun result _ events =>
      (drive.facing operation).Shows result.1.storage events ∨
        result.1.file.cluster = drive.file.cluster := by
  cases operation with
  | packet endpoint bytes =>
    refine ((packet_shows endpoint bytes noData start).mono ?_).andPure
    intro next after events shows
    exact .inl shows
  | collected endpoint =>
    simp only [perform, onCollected]
    split
    · refine ((Storage.onCollected_shows sound start).mono ?_).andPure.andPure
      intro next after events shows
      exact .inl shows
    · simp only [pure_bind, meets_pure]
      exact .inr trivial
  | poll =>
    simp only [perform, poll, meets_bind]
    refine (Storage.poll_shows sound start).mono ?_
    intro next after events shows
    simp only [meets_pure, List.append_nil]
    exact .inl shows
  | classRequest | reset | takeChanged | script | openScript | print =>
    refine ((drive.perform_keeps_cluster ?_ ?_ ?_ start).meets (perform_meets sound _ start)).mono ?_
    · exact fun _ _ => Operation.noConfusion
    · exact fun _ => Operation.noConfusion
    · exact Operation.noConfusion
    · exact fun _ _ _ => .inr

/-! ## All of it -/

theorem script_of_same {drive next : Drive capacity} (same : drive.Same next) :
    next.script = drive.script := by
  rw [script_eq, script_eq, same.size, same.ram]

theorem stray_call [Link π] {drive next : Drive capacity} {made : Call π} {outcome : Outcome}
    (strays : drive.Strays made.operation) (called : drive.call made = .ok (next, outcome)) :
    next = drive ∧ offersOf outcome.events = [] := by
  obtain ⟨notWriting, bytes, reason, packet, undecoded⟩ := strays
  obtain ⟨notes, thrownAway⟩ := drive.storage.stray_eq (π := π) undecoded notWriting
  have met : (drive.perform made.operation).Meets made.link fun result _ events =>
      result.1 = drive ∧ events = notes.map .note := by
    rw [packet, perform, onPacket_disk, thrownAway]
    simp only [meets_bind, meets_logAll, meets_pure, List.append_nil]
    exact ⟨trivial, trivial⟩
  obtain ⟨-, same, silent⟩ := met_of_call called met
  rw [silent, offersOf_notes]
  exact ⟨same, rfl⟩

theorem call_confined [Link π] {drive : Drive capacity} (sound : drive.storage.transfer.Sound)
    (made : Call π) :
    ∃ next outcome, drive.call made = .ok (next, outcome) ∧
      drive.Confined next made.operation outcome.events := by
  obtain ⟨next, outcome, called, does⟩ := call_does sound made
  refine ⟨next, outcome, called, ?_⟩
  refine
    { ram := fun noData => (does.untouched noData).ram
      size := fun noData => (does.untouched noData).size
      script := fun noData => script_of_same (does.untouched noData)
      marked := ?_
      cleared := ?_
      cluster := ?_
      stray := fun strays => stray_call strays called }
  · intro clean marked
    rcases does.dirty with same | ⟨takes, -⟩ | ⟨-, taken⟩
    · rw [clean, marked] at same
      cases same
    · exact takes
    · rw [marked] at taken
      cases taken
  · intro marked clean
    rcases does.dirty with same | ⟨-, stays⟩ | ⟨taken, -⟩
    · rw [clean, marked] at same
      cases same
    · rw [clean] at stays
      cases stays marked
    · exact taken
  · intro moved
    by_cases takes : drive.TakesData made.operation
    · exact .inl takes
    · obtain ⟨-, shows | same⟩ := met_of_call called (perform_shows sound takes made.link)
      · rw [← file_facing drive made.operation] at moved
        exact .inr (shows.cluster moved)
      · exact absurd same moved

/-- Only written data changes the file and its memory, in every call after any others and whatever is
refused.  The mark of a changed file is set by written data only and taken away by the program only, and
nothing but a read of the root directory moves the file in another way. -/
theorem only_data_writes [Link π] {identity : Identity} {drive : Drive capacity}
    (reachable : Reachable identity drive) (made : Call π) :
    ∃ next outcome, drive.call made = .ok (next, outcome) ∧
      drive.Confined next made.operation outcome.events :=
  call_confined reachable.sound.1.transfer made

/-- The file is in cluster 5, and a write is waiting for data.  A packet of three bytes is such data; a
command for the directory is none, and only takes the file back to the first cluster. -/
theorem only_data_writes_mid_write :
    let idle : Drive 16 := fresh {} (by decide)
    let moved : TrackedFile := { cluster := 5, size := 9, dirty := true }
    let waiting : Drive 16 :=
      { idle with
        storage :=
          { idle.storage with transfer := (CommandWrapper.writing 9 65 1).transfer, file := moved } }
    let directory := Operation.packet 6 (CommandWrapper.reading 10 33 1).encode
    (∃ next outcome, waiting.call ⟨.packet 6 [1, 2, 3], Willing.willing⟩ = .ok (next, outcome) ∧
      waiting.Confined next (.packet 6 [1, 2, 3]) outcome.events) ∧
    ∃ next outcome, waiting.call ⟨directory, Willing.willing⟩ = .ok (next, outcome) ∧
      waiting.Confined next directory outcome.events ∧ next.script = .ok (List.replicate 9 0) ∧
      next.file = { moved with cluster := 2 } := by
  intro idle moved waiting directory
  let entry := DirEntry.ofFile idle.identity.fileName moved
  let filing := CommandWrapper.carrying 8 32 0 (Scsi.runBlock 0x2A 33 1)
  have begun : (idle.run [idle.send filing.encode Willing.willing, idle.send entry.encode .willing,
      idle.send (CommandWrapper.writing 9 65 1).encode .willing]).toOption.map Prod.fst =
        some waiting := by decide +kernel
  have reachable : Reachable {} waiting := .of_run (.powerUp (powerUp_fresh rfl _)) begun
  obtain ⟨next, outcome, called, confined⟩ := only_data_writes reachable ⟨directory, Willing.willing⟩
  have noData : ¬ waiting.TakesData directory := by
    rintro ⟨-, bytes, reason, same, undecoded⟩
    rw [← (Operation.packet.inj same).2, CommandWrapper.decode_encode] at undecoded
    cases undecoded
  have file : (waiting.call ⟨directory, Willing.willing⟩).toOption.map (fun result => result.1.file) =
      some { moved with cluster := 2 } := by decide +kernel
  rw [called] at file
  exact ⟨only_data_writes reachable ⟨.packet 6 [1, 2, 3], Willing.willing⟩, next, outcome, called,
    confined, confined.script noData, Option.some_inj.mp file⟩

/-- A run after which the script is another one has taken data on the way. -/
theorem takesData_of_run [Link π] {identity : Identity} {drive last : Drive capacity}
    (reachable : Reachable identity drive) {calls : List (Call π)} {outcomes : List Outcome}
    (ran : drive.run calls = .ok (last, outcomes)) (changed : last.script ≠ drive.script) :
    ∃ before made after middle earlier, calls = before ++ made :: after ∧
      drive.run before = .ok (middle, earlier) ∧ middle.TakesData made.operation := by
  induction calls generalizing drive outcomes with
  | nil =>
    cases ran
    exact absurd rfl changed
  | cons made rest restInduction =>
    by_cases takes : drive.TakesData made.operation
    · exact ⟨[], made, rest, drive, [], rfl, rfl, takes⟩
    · obtain ⟨next, outcome, later, called, ranRest, rfl⟩ := of_run_cons ran
      have same := (does_of_call reachable.sound.1.transfer called).untouched takes
      rw [← script_of_same same] at changed
      obtain ⟨before, taking, after, middle, earlier, rfl, ranBefore, takesThere⟩ :=
        restInduction (reachable.call called) ranRest changed
      exact ⟨made :: before, taking, after, middle, outcome :: earlier, rfl,
        run_cons called ranBefore, takesThere⟩

end Drive

end ScriptDrive
