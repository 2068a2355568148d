import ScriptDrive.Proofs.Drive.Quiet

/-!
# Written data through a whole command

`Wrote` is the invariant of a write: the transport stands where a walker stands that took all the bytes
that have come so far, and once as many have come as the command moves, it stays there.  `run_writing`
carries it through any quiet calls, and `written_of_command` reads off it what a write does.
-/

set_option autoImplicit false

namespace ScriptDrive

open Volume (Walker)

variable {π : Type} {capacity : Nat}

def Operation.sentTo (endpoint : UInt8) : Operation → Option (List UInt8)
  | .packet other bytes => if other = endpoint then some bytes else none
  | _ => none

def sentIn (endpoint : UInt8) (calls : List (Call π)) : List (List UInt8) :=
  calls.flatMap fun made => (made.operation.sentTo endpoint).toList

@[simp] theorem sentIn_nil (endpoint : UInt8) : sentIn endpoint ([] : List (Call π)) = [] := rfl

theorem sentIn_cons (endpoint : UInt8) (made : Call π) (rest : List (Call π)) :
    sentIn endpoint (made :: rest) =
      (made.operation.sentTo endpoint).toList ++ sentIn endpoint rest := rfl

theorem Operation.sentTo_eq_some {endpoint : UInt8} {operation : Operation} {bytes : List UInt8}
    (sent : operation.sentTo endpoint = some bytes) : operation = .packet endpoint bytes := by
  cases operation with
  | packet other found =>
    simp only [sentTo] at sent
    split at sent
    · rename_i same
      cases sent
      rw [same]
    · cases sent
  | _ => cases sent

namespace Storage

/-- After `data` has come for a write that started as `begun`. -/
inductive Wrote (begun storage : Storage capacity) (data : List UInt8) : Prop
  | ongoing (more : data.length < begun.transfer.remaining)
      (takes : begun.Takes storage data (begun.transfer.remaining - data.length))
  | complete {taken : Storage capacity} (full : begun.transfer.remaining ≤ data.length)
      (takes : begun.Takes taken (data.take begun.transfer.remaining) 0)
      (fileIs : storage.file = taken.file) (ramIs : storage.ram = taken.ram)
      (finished : storage.transfer.remaining = 0)

section Wrote

variable {begun storage next : Storage capacity} {data : List UInt8}

theorem Wrote.start (more : 0 < begun.transfer.remaining) : begun.Wrote begun [] :=
  .ongoing more (.nothing begun)

/-- Where bytes are still to come, the transport waits for them. -/
theorem Wrote.remaining (wrote : begun.Wrote storage data) :
    storage.transfer.remaining = begun.transfer.remaining - data.length := by
  cases wrote with
  | ongoing _ takes => rw [takes.transfer]
  | complete full _ _ _ finished => omega

theorem Wrote.not_dataOut (wrote : begun.Wrote storage data) (sound : storage.transfer.Sound)
    (full : begun.transfer.remaining ≤ data.length) : storage.transfer.phase ≠ .dataOut := by
  intro writing
  obtain ⟨_, _, _, _, _, more⟩ := sound.of_dataOut writing
  rw [wrote.remaining] at more
  omega

theorem Wrote.dataOut (wrote : begun.Wrote storage data)
    (writing : begun.transfer.phase = .dataOut)
    (more : data.length < begun.transfer.remaining) : storage.transfer.phase = .dataOut := by
  cases wrote with
  | ongoing _ takes =>
    rw [takes.transfer]
    exact writing
  | complete full => omega

theorem Wrote.served {events : List Event} (wrote : begun.Wrote storage data)
    (writing : begun.transfer.phase = .dataOut) (serves : storage.Serves next events) :
    begun.Wrote next data := by
  have left := wrote.remaining
  by_cases more : data.length < begun.transfer.remaining
  · rw [serves.waits (wrote.dataOut writing more) (by omega)]
    exact wrote
  · cases wrote with
    | ongoing less => omega
    | complete full takes fileIs ramIs finished =>
      obtain ⟨finishedNext, fileNext⟩ := serves.rests finished
      exact .complete full takes (fileNext.trans fileIs) (serves.keeps.ram.trans ramIs) finishedNext

/-- Bytes beyond what the command moves are not missed. -/
theorem Wrote.more (wrote : begun.Wrote storage data)
    (full : begun.transfer.remaining ≤ data.length) (extra : List UInt8) :
    begun.Wrote storage (data ++ extra) := by
  cases wrote with
  | ongoing less => omega
  | complete _ takes fileIs ramIs finished =>
    have front : (data ++ extra).take begun.transfer.remaining =
        data.take begun.transfer.remaining := List.take_append_of_le_length full
    rw [← front] at takes
    exact .complete (by rw [List.length_append]; omega) takes fileIs ramIs finished

/-- One more packet, whose bytes beyond what the command moves are left out. -/
theorem Takes.packet {taken : Storage capacity} {packet : List UInt8}
    (before : begun.Takes storage data (begun.transfer.remaining - data.length))
    (full : (begun.transfer.offset + data.length) % dirEntrySize = 0)
    (less : data.length < begun.transfer.remaining)
    (after : storage.Takes taken (packet.take storage.transfer.remaining)
      (storage.transfer.remaining - min packet.length storage.transfer.remaining)) :
    begun.Takes taken ((data ++ packet).take begun.transfer.remaining)
      (begun.transfer.remaining - (data ++ packet).length) := by
  have left : storage.transfer.remaining = begun.transfer.remaining - data.length := by
    rw [before.transfer]
  have both := before.trans full after
  have bytes : data ++ packet.take (begun.transfer.remaining - data.length) =
      (data ++ packet).take begun.transfer.remaining := by
    rw [List.take_append, List.take_of_length_le (Nat.le_of_lt less)]
  have counted : begun.transfer.remaining - data.length -
      min packet.length (begun.transfer.remaining - data.length) =
        begun.transfer.remaining - (data ++ packet).length := by
    rw [List.length_append]
    omega
  rw [left, bytes, counted] at both
  exact both

/-- A packet of written data is the next step of the walk. -/
theorem Wrote.packet {taken : Storage capacity} {events : List Event} {packet : List UInt8}
    (wrote : begun.Wrote storage data) (sound : storage.transfer.Sound)
    (start : begun.transfer.offset % dirEntrySize = 0) (whole : data.length % dirEntrySize = 0)
    (writing : storage.transfer.phase = .dataOut)
    (takes : storage.Takes taken (packet.take storage.transfer.remaining)
      (storage.transfer.remaining - min packet.length storage.transfer.remaining))
    (serves : taken.Serves next events) : begun.Wrote next (data ++ packet) := by
  obtain ⟨_, _, _, _, _, more⟩ := sound.of_dataOut writing
  simp only [dirEntrySize] at start whole
  cases wrote with
  | complete full _ _ _ finished => omega
  | ongoing less before =>
    have both := before.packet (by simp only [dirEntrySize]; omega) less takes
    have left : taken.transfer.remaining =
        begun.transfer.remaining - (data ++ packet).length := by rw [both.transfer]
    by_cases full : begun.transfer.remaining ≤ (data ++ packet).length
    · rw [Nat.sub_eq_zero_of_le full] at both left
      obtain ⟨finishedNext, fileNext⟩ := serves.rests left
      exact .complete full both fileNext serves.keeps.ram finishedNext
    · have writingStill : taken.transfer.phase = .dataOut := by
        rw [takes.transfer]
        exact writing
      rw [serves.waits writingStill (by omega)]
      rw [List.take_of_length_le (by omega)] at both
      exact .ongoing (by omega) both

theorem Wrote.walked (wrote : begun.Wrote storage data)
    (start : begun.transfer.offset % dirEntrySize = 0) :
    storage.file =
        (begun.walker.walk begun.identity.fileName (data.take begun.transfer.remaining)).file ∧
      storage.ram.bytes =
        (begun.walker.walk begun.identity.fileName (data.take begun.transfer.remaining)).memory := by
  cases wrote with
  | ongoing more takes =>
    obtain ⟨slot, walked, -⟩ := takes.walked start
    rw [List.take_of_length_le (Nat.le_of_lt more), walked]
    exact ⟨rfl, rfl⟩
  | complete full takes fileIs ramIs =>
    obtain ⟨slot, walked, -⟩ := takes.walked start
    rw [walked, fileIs, ramIs]
    exact ⟨rfl, rfl⟩

end Wrote

end Storage

theorem length_flatten_mod {packets : List (List UInt8)} {width : Nat}
    (whole : ∀ bytes ∈ packets, bytes.length % width = 0) : packets.flatten.length % width = 0 := by
  induction packets with
  | nil => exact Nat.zero_mod width
  | cons bytes rest restInduction =>
    have first := whole bytes List.mem_cons_self
    have others := restInduction fun later present => whole later (List.mem_cons_of_mem bytes present)
    rw [List.flatten_cons, List.length_append, Nat.add_mod, first, others, Nat.zero_mod]

namespace Drive

theorem DoesQuietly.wrote {begun : Storage capacity} {drive next : Drive capacity}
    {events : List Event} {operation : Operation} {data : List UInt8}
    (does : drive.DoesQuietly next events operation)
    (wrote : begun.Wrote drive.storage data) (sound : drive.storage.transfer.Sound)
    (writing : begun.transfer.phase = .dataOut)
    (start : begun.transfer.offset % dirEntrySize = 0) (unread : operation ≠ .takeChanged)
    (whole : operation.sentTo drive.identity.endpoints.diskOut ≠ none →
      data.length % dirEntrySize = 0) :
    begun.Wrote next.storage
      (data ++ (operation.sentTo drive.identity.endpoints.diskOut).toList.flatten) := by
  cases does with
  | served apart serves =>
    have still := wrote.served writing serves
    by_cases full : begun.transfer.remaining ≤ data.length
    · exact still.more full _
    · have none : operation.sentTo drive.identity.endpoints.diskOut = none := by
        rw [Option.eq_none_iff_forall_ne_some]
        intro packet sent
        exact apart (wrote.dataOut writing (by omega)) packet (Operation.sentTo_eq_some sent)
      rw [none, Option.toList_none, List.flatten_nil, List.append_nil]
      exact still
  | @written packet taken isPacket writingNow takes serves =>
    have sent : operation.sentTo drive.identity.endpoints.diskOut = some packet := by
      rw [isPacket]
      exact if_pos rfl
    rw [sent, Option.toList_some, List.flatten_singleton]
    exact wrote.packet sound start (whole (by rw [sent]; exact Option.some_ne_none packet))
      writingNow takes serves
  | cleaned taken => exact absurd taken unread
  | printed print storageIs =>
    subst print
    rw [storageIs]
    simp only [Operation.sentTo, Option.toList_none, List.flatten_nil, List.append_nil]
    exact wrote

/-- Quiet calls in which written data comes, in packets that do not tear slots apart. -/
theorem run_writing [Link π] {begun : Storage capacity} {drive : Drive capacity}
    {data : List UInt8} (wrote : begun.Wrote drive.storage data)
    (sound : drive.storage.transfer.Sound) (writing : begun.transfer.phase = .dataOut)
    (start : begun.transfer.offset % dirEntrySize = 0) (calls : List (Call π))
    (quiet : ∀ made ∈ calls, made.operation.Quiet drive.identity.endpoints)
    (unread : ∀ made ∈ calls, made.operation ≠ .takeChanged)
    (whole : ∀ packets rest, sentIn drive.identity.endpoints.diskOut calls = packets ++ rest →
      rest ≠ [] → (data ++ packets.flatten).length % dirEntrySize = 0) :
    ∃ last outcomes, drive.run calls = .ok (last, outcomes) ∧
      begun.Wrote last.storage
        (data ++ (sentIn drive.identity.endpoints.diskOut calls).flatten) ∧
      last.storage.transfer.Sound ∧ last.identity = drive.identity ∧
      drive.storage.due =
        acceptedIn drive.identity.endpoints.diskIn outcomes ++ last.storage.due := by
  induction calls generalizing drive data with
  | nil =>
    refine ⟨drive, [], rfl, ?_, sound, rfl, rfl⟩
    rw [sentIn_nil, List.flatten_nil, List.append_nil]
    exact wrote
  | cons made rest restInduction =>
    obtain ⟨next, outcome, called, does⟩ := call_does sound made
    have quietly := does.quietly (quiet made List.mem_cons_self)
    have stepped := quietly.wrote wrote sound writing start (unread made List.mem_cons_self) (by
      intro some
      have front := whole [] (sentIn drive.identity.endpoints.diskOut (made :: rest)) rfl (by
        rw [sentIn_cons]
        exact List.append_ne_nil_of_left_ne_nil (by simpa using some) _)
      rw [List.flatten_nil, List.append_nil] at front
      exact front)
    have quietRest : ∀ later ∈ rest, later.operation.Quiet next.identity.endpoints := by
      intro later present
      rw [does.identity]
      exact quiet later (List.mem_cons_of_mem made present)
    obtain ⟨last, outcomes, ran, wroteRest, soundRest, identityRest, dueRest⟩ :=
      restInduction stepped (does.transfer_sound sound) quietRest
        (fun later present => unread later (List.mem_cons_of_mem made present)) (by
          rw [does.identity]
          intro packets later parts some
          have before := whole ((made.operation.sentTo drive.identity.endpoints.diskOut).toList ++
            packets) later (by rw [sentIn_cons, parts, List.append_assoc]) some
          rw [List.flatten_append, ← List.append_assoc] at before
          exact before)
    rw [does.identity] at wroteRest dueRest
    refine ⟨last, outcome :: outcomes, run_cons called ran, ?_, soundRest,
      identityRest.trans does.identity, ?_⟩
    · rw [sentIn_cons, List.flatten_append, ← List.append_assoc]
      exact wroteRest
    · rw [quietly.due, dueRest, acceptedIn_cons, List.append_assoc]

def opening (drive : Drive capacity) (wrapper : CommandWrapper) : Storage capacity :=
  { drive.storage with transfer := wrapper.transfer }

theorem transfer_of_written {wrapper : CommandWrapper} {lba : UInt32} {blocks : UInt16}
    (commandIs : wrapper.command = .write10 lba blocks) (moves : 0 < wrapper.written) :
    wrapper.transfer.phase = .dataOut ∧ wrapper.transfer.offset = sectorSize * lba.toNat ∧
      wrapper.transfer.remaining = wrapper.written ∧
      wrapper.transfer.status = wrapper.closing wrapper.written := by
  have written : wrapper.written =
      min (sectorSize * blocks.toNat) wrapper.requested.toNat := by
    simp only [CommandWrapper.written, commandIs, Scsi.Command.named]
  rw [CommandWrapper.transfer_of_writing commandIs]
  simp only [CommandWrapper.blockTransfer, ← written]
  refine ⟨if_neg (Nat.ne_of_gt moves), trivial, trivial, trivial⟩

theorem run_write [Link π] (drive : Drive capacity) {packet : List UInt8}
    {wrapper : CommandWrapper} (decoded : CommandWrapper.decode packet = .ok wrapper)
    {lba : UInt32} {blocks : UInt16} (commandIs : wrapper.command = .write10 lba blocks)
    (moves : 0 < wrapper.written) (link : π) (calls : List (Call π))
    (quiet : ∀ made ∈ calls, made.operation.Quiet drive.identity.endpoints)
    (unread : ∀ made ∈ calls, made.operation ≠ .takeChanged)
    (whole : ∀ packets rest, sentIn drive.identity.endpoints.diskOut calls = packets ++ rest →
      rest ≠ [] → packets.flatten.length % dirEntrySize = 0) :
    ∃ last outcomes, drive.run (drive.send packet link :: calls) = .ok (last, outcomes) ∧
      (drive.opening wrapper).Wrote last.storage
        (sentIn drive.identity.endpoints.diskOut calls).flatten ∧
      last.storage.transfer.Sound ∧ last.identity = drive.identity ∧
      [(wrapper.closing wrapper.written).encode] =
        acceptedIn drive.identity.endpoints.diskIn outcomes ++ last.storage.due := by
  obtain ⟨phaseIs, offsetIs, remainingIs, statusIs⟩ := transfer_of_written commandIs moves
  obtain ⟨next, outcome, called, serves⟩ := drive.call_command decoded link
  have waiting : next.storage = drive.opening wrapper := serves.waits phaseIs (by
    rw [remainingIs]
    exact moves)
  have identityIs : next.identity = drive.identity := serves.keeps.identity
  have wrote : (drive.opening wrapper).Wrote next.storage [] := by
    rw [waiting]
    exact .start (by simp only [opening, remainingIs]; exact moves)
  have start : (drive.opening wrapper).transfer.offset % dirEntrySize = 0 := by
    simp only [opening, offsetIs, sectorSize, dirEntrySize]
    omega
  obtain ⟨last, outcomes, ran, wroteLast, soundLast, identityLast, dueLast⟩ :=
    run_writing wrote serves.sound phaseIs start calls (by rw [identityIs]; exact quiet) unread
      (by rw [identityIs]; exact whole)
  rw [identityIs] at wroteLast dueLast
  refine ⟨last, outcome :: outcomes, run_cons called ran, wroteLast, soundLast,
    identityLast.trans identityIs, ?_⟩
  have due : (drive.opening wrapper).due = [(wrapper.closing wrapper.written).encode] := by
    simp only [Storage.due, opening, phaseIs, statusIs]
  have firstDue := serves.due
  rw [dueLast, ← List.append_assoc] at firstDue
  rw [← due, acceptedIn_cons]
  exact firstDue

def walked (drive : Drive capacity) (lba : UInt32) (data : List UInt8) : Walker :=
  Walker.walk drive.identity.fileName
    ⟨sectorSize * lba.toNat, [], drive.file, drive.storage.ram.bytes⟩ data

/-- Every write that moves data: whatever was in flight before, however its data is cut into packets that
do not tear slots apart, and however quiet calls and refusals fall between them, the file and the
memory are those of a walk over the bytes that have come, as many as the command moves.  The status
comes once they are all there. -/
theorem written_of_command [Link π] (drive : Drive capacity) {packet : List UInt8}
    {wrapper : CommandWrapper} (decoded : CommandWrapper.decode packet = .ok wrapper)
    {lba : UInt32} {blocks : UInt16} (commandIs : wrapper.command = .write10 lba blocks)
    (moves : 0 < wrapper.written) (link : π) (calls : List (Call π))
    (quiet : ∀ made ∈ calls, made.operation.Quiet drive.identity.endpoints)
    (unread : ∀ made ∈ calls, made.operation ≠ .takeChanged)
    (whole : ∀ bytes ∈ (sentIn drive.identity.endpoints.diskOut calls).dropLast,
      bytes.length % dirEntrySize = 0) :
    ∃ last outcomes, drive.run (drive.send packet link :: calls) = .ok (last, outcomes) ∧
      let data := (sentIn drive.identity.endpoints.diskOut calls).flatten
      let walked := drive.walked lba (data.take wrapper.written)
      let accepted := acceptedIn drive.identity.endpoints.diskIn outcomes
      let status := (wrapper.closing wrapper.written).encode
      last.file = walked.file ∧ last.storage.ram.bytes = walked.memory ∧
        (data.length < wrapper.written → last.phase = .dataOut ∧ accepted = []) ∧
        (wrapper.written ≤ data.length → last.phase ≠ .dataOut ∧ accepted <+: [status] ∧
          (last.phase = .idle → accepted = [status])) := by
  have wholeFront : ∀ packets rest, sentIn drive.identity.endpoints.diskOut calls = packets ++ rest →
      rest ≠ [] → packets.flatten.length % dirEntrySize = 0 := by
    intro packets rest parts some
    rw [parts, List.dropLast_append_of_ne_nil some] at whole
    exact length_flatten_mod fun bytes present => whole bytes (List.mem_append_left _ present)
  obtain ⟨last, outcomes, ran, wrote, sound, -, due⟩ :=
    drive.run_write decoded commandIs moves link calls quiet unread wholeFront
  obtain ⟨phaseIs, offsetIs, remainingIs, -⟩ := transfer_of_written commandIs moves
  have start : (drive.opening wrapper).transfer.offset % dirEntrySize = 0 := by
    simp only [opening, offsetIs, sectorSize, dirEntrySize]
    omega
  obtain ⟨fileIs, ramIs⟩ := wrote.walked start
  simp only [opening, Storage.walker, offsetIs, remainingIs] at fileIs ramIs
  refine ⟨last, outcomes, ran, fileIs, ramIs, ?_, ?_⟩
  · intro more
    have writing := wrote.dataOut phaseIs (by simp only [opening, remainingIs]; exact more)
    refine ⟨writing, ?_⟩
    have lengths := congrArg List.length due
    rw [Storage.due_of_dataOut writing, List.length_append, List.length_singleton,
      List.length_singleton] at lengths
    exact List.length_eq_zero_iff.mp (by omega)
  · intro full
    refine ⟨wrote.not_dataOut sound (by simp only [opening, remainingIs]; exact full),
      ⟨_, due.symm⟩, ?_⟩
    intro idle
    rw [due, Storage.due_of_idle idle, List.append_nil]

theorem written_of_command_torn :
    let drive : Drive 16 := fresh {} (by decide)
    let wrapper := CommandWrapper.writing 9 65 1
    ∃ last outcomes,
      drive.run (drive.send wrapper.encode Willing.willing ::
        [⟨.packet 6 (List.replicate 64 0x41), .willing⟩, ⟨.poll, .willing⟩,
          ⟨.packet 2 [3], .willing⟩, ⟨.packet 6 [0x42], .willing⟩]) = .ok (last, outcomes) ∧
      let data := List.replicate 64 0x41 ++ [0x42]
      let walked := drive.walked 65 (data.take wrapper.written)
      let accepted := acceptedIn 5 outcomes
      let status := (wrapper.closing wrapper.written).encode
      last.file = walked.file ∧ last.storage.ram.bytes = walked.memory ∧
        (data.length < wrapper.written → last.phase = .dataOut ∧ accepted = []) ∧
        (wrapper.written ≤ data.length → last.phase ≠ .dataOut ∧ accepted <+: [status] ∧
          (last.phase = .idle → accepted = [status])) := by
  intro drive wrapper
  have command : wrapper.command = .write10 65 1 := rfl
  have written := written_of_command drive wrapper.decode_encode command (by decide)
    Willing.willing
    [⟨.packet 6 (List.replicate 64 0x41), .willing⟩, ⟨.poll, .willing⟩,
      ⟨.packet 2 [3], .willing⟩, ⟨.packet 6 [0x42], .willing⟩] ?_ ?_ ?_
  · exact written
  · simp only [List.forall_mem_cons]
    exact ⟨fun _ => ⟨.length 64, rfl⟩, not_false, fun other => absurd other (by decide),
      fun _ => ⟨.length 1, rfl⟩, List.forall_mem_nil _⟩
  · simp only [List.forall_mem_cons]
    exact ⟨Operation.noConfusion, Operation.noConfusion, Operation.noConfusion,
      Operation.noConfusion, List.forall_mem_nil _⟩
  · decide

end Drive

end ScriptDrive
