import ScriptDrive.Proofs.Drive.Calls
import ScriptDrive.Proofs.Transport.Requests

/-!
# Calls that leave a command alone

A quiet call neither begins a command nor drops one.  However many of them come, and whatever is refused
meanwhile, the packets the host gets and those it is still to get make up one list: `run_quiet` is the
induction over the calls.  `accepted_of_command` puts the command in front of them, so that the list is
the command's response.
-/

set_option autoImplicit false

namespace ScriptDrive

variable {π : Type} {capacity : Nat}

/-- The calls that neither begin a command nor drop one, nor put other packets on the transport's
endpoint. -/
def Operation.Quiet (endpoints : EndpointMap) : Operation → Prop
  | .packet endpoint bytes =>
    endpoint = endpoints.diskOut → ∃ reason, CommandWrapper.decode bytes = .error reason
  | .print _ => endpoints.consoleIn ≠ endpoints.diskIn
  | operation => ¬ operation.Drops

namespace Drive

structure Same (drive last : Drive capacity) : Prop where
  identity : last.identity = drive.identity
  size : last.file.size = drive.file.size
  ram : last.storage.ram = drive.storage.ram

theorem Same.refl (drive : Drive capacity) : drive.Same drive :=
  ⟨rfl, rfl, rfl⟩

theorem Same.trans {first second third : Drive capacity} (before : first.Same second)
    (after : second.Same third) : first.Same third :=
  ⟨after.identity.trans before.identity, after.size.trans before.size, after.ram.trans before.ram⟩

/-- The state has moved on from `drive` to `last` with these packets for the host, and nothing has been
written. -/
structure Carries (drive last : Drive capacity) (packets : List (List UInt8)) : Prop where
  sound : last.storage.transfer.Sound
  reading : last.phase ≠ .dataOut
  due : drive.storage.due = packets ++ last.storage.due
  same : drive.Same last

theorem Carries.trans {first second third : Drive capacity} {packets later : List (List UInt8)}
    (before : first.Carries second packets) (after : second.Carries third later) :
    first.Carries third (packets ++ later) := by
  refine ⟨after.sound, after.reading, ?_, before.same.trans after.same⟩
  rw [before.due, after.due, List.append_assoc]

theorem due_markClean (storage : Storage capacity) :
    Storage.due { storage with file := storage.file.markClean } = storage.due := by
  have packet : Storage.nextPacket { storage with file := storage.file.markClean } =
      storage.nextPacket := by
    unfold Storage.nextPacket
    rfl
  have status :
      (Storage.passed { storage with file := storage.file.markClean }).transfer.status =
        storage.passed.transfer.status := by
    unfold Storage.passed
    rw [packet]
    dsimp only
    split
    · rfl
    · split <;> rfl
  unfold Storage.due
  rw [packet, status]
  rfl

theorem due_of_takes {storage taken : Storage capacity} {data : List UInt8} {left : Nat}
    (writing : storage.transfer.phase = .dataOut) (takes : storage.Takes taken data left) :
    taken.due = storage.due := by
  simp only [Storage.due, takes.transfer, writing]

inductive DoesQuietly (drive next : Drive capacity) (events : List Event) (operation : Operation) :
    Prop
  | served (apart : drive.phase = .dataOut →
      ∀ bytes, operation ≠ .packet drive.identity.endpoints.diskOut bytes)
      (serves : drive.storage.Serves next.storage events)
  | written {bytes : List UInt8} {taken : Storage capacity}
      (packet : operation = .packet drive.identity.endpoints.diskOut bytes)
      (writing : drive.phase = .dataOut)
      (takes : drive.storage.Takes taken (bytes.take drive.storage.transfer.remaining)
        (drive.storage.transfer.remaining - min bytes.length drive.storage.transfer.remaining))
      (serves : taken.Serves next.storage events)
  | cleaned (taken : operation = .takeChanged)
      (storageIs : next.storage = { drive.storage with file := drive.file.markClean })
      (silent : acceptedOn drive.identity.endpoints.diskIn events = [])
  | printed {text : String} (print : operation = .print text)
      (storageIs : next.storage = drive.storage)
      (silent : acceptedOn drive.identity.endpoints.diskIn events = [])

section Does

variable {drive next : Drive capacity} {events : List Event} {operation : Operation}

theorem Does.quietly (does : drive.Does next events operation)
    (quiet : operation.Quiet drive.identity.endpoints) :
    drive.DoesQuietly next events operation := by
  cases does with
  | handled packet handled =>
    cases handled with
    | begun decoded =>
      subst packet
      obtain ⟨reason, undecoded⟩ := quiet rfl
      rw [decoded] at undecoded
      cases undecoded
    | written _ writing takes serves => exact .written packet writing takes serves
    | stray _ notWriting serves => exact .served (fun writing => absurd writing notWriting) serves
  | served elsewhere serves => exact .served (fun _ => elsewhere) serves
  | cleaned taken storageIs silent => exact .cleaned taken storageIs (by rw [silent]; rfl)
  | dropped drops =>
    cases operation with
    | classRequest => exact absurd drops quiet
    | reset => exact absurd drops quiet
    | _ => exact drops.elim
  | printed print storageIs silent =>
    subst print
    exact .printed rfl storageIs (silent _ quiet)

theorem DoesQuietly.due (does : drive.DoesQuietly next events operation) :
    drive.storage.due =
      acceptedOn drive.identity.endpoints.diskIn events ++ next.storage.due := by
  cases does with
  | served _ serves => exact serves.due
  | written _ writing takes serves =>
    rw [← due_of_takes writing takes, serves.due, takes.identity]
    rfl
  | cleaned _ storageIs silent =>
    rw [silent, storageIs]
    exact (due_markClean drive.storage).symm
  | printed _ storageIs silent => rw [silent, storageIs, List.nil_append]

theorem DoesQuietly.carries (does : drive.DoesQuietly next events operation)
    (identityIs : next.identity = drive.identity) (sound : next.storage.transfer.Sound)
    (reading : drive.phase ≠ .dataOut) :
    drive.Carries next (acceptedOn drive.identity.endpoints.diskIn events) := by
  have dueIs := does.due
  cases does with
  | served _ serves =>
    exact ⟨sound, fun writing => reading (serves.forward writing), dueIs, identityIs, serves.size,
      serves.keeps.ram⟩
  | written _ writing => exact absurd writing reading
  | cleaned _ storageIs =>
    unfold phase at reading
    refine ⟨sound, ?_, dueIs, identityIs, ?_, ?_⟩
    · rw [phase, storageIs]
      exact reading
    · rw [Drive.file, storageIs]
      rfl
    · rw [storageIs]
  | printed _ storageIs =>
    unfold phase at reading
    refine ⟨sound, ?_, dueIs, identityIs, ?_, ?_⟩
    · rw [phase, storageIs]
      exact reading
    · rw [Drive.file, storageIs]
      rfl
    · rw [storageIs]

end Does

/-- Quiet calls never halt, and the host gets what was due. -/
theorem run_quiet [Link π] {drive : Drive capacity} (sound : drive.storage.transfer.Sound)
    (reading : drive.phase ≠ .dataOut) (calls : List (Call π))
    (quiet : ∀ made ∈ calls, made.operation.Quiet drive.identity.endpoints) :
    ∃ last outcomes, drive.run calls = .ok (last, outcomes) ∧
      drive.Carries last (acceptedIn drive.identity.endpoints.diskIn outcomes) := by
  induction calls generalizing drive with
  | nil => exact ⟨drive, [], rfl, sound, reading, rfl, .refl drive⟩
  | cons made rest restInduction =>
    obtain ⟨next, outcome, called, does⟩ := call_does sound made
    have carries := (does.quietly (quiet made List.mem_cons_self)).carries does.identity
      (does.transfer_sound sound) reading
    have quietRest : ∀ later ∈ rest, later.operation.Quiet next.identity.endpoints := by
      intro later present
      rw [carries.same.identity]
      exact quiet later (List.mem_cons_of_mem made present)
    obtain ⟨last, outcomes, ran, carriesRest⟩ :=
      restInduction carries.sound carries.reading quietRest
    rw [carries.same.identity] at carriesRest
    exact ⟨last, outcome :: outcomes, run_cons called ran, carries.trans carriesRest⟩

/-! ## A command and what follows it -/

def send (drive : Drive capacity) (packet : List UInt8) (link : π) : Call π :=
  ⟨.packet drive.identity.endpoints.diskOut packet, link⟩

theorem call_command [Link π] (drive : Drive capacity) {packet : List UInt8}
    {wrapper : CommandWrapper} (decoded : CommandWrapper.decode packet = .ok wrapper) (link : π) :
    ∃ next outcome, drive.call (drive.send packet link) = .ok (next, outcome) ∧
      Storage.Serves { drive.storage with transfer := wrapper.transfer } next.storage
        outcome.events := by
  have met : (drive.perform (drive.send packet link).operation).Meets link
      fun result _ events =>
        Storage.Serves { drive.storage with transfer := wrapper.transfer } result.1.storage
          events := by
    simp only [send, perform, onPacket_disk, Exchange.meets_bind]
    refine (drive.storage.command_meets decoded link).mono ?_
    intro next after events serves
    simp only [Exchange.meets_pure, List.append_nil]
    exact serves
  obtain ⟨next, outcome, called, -, serves⟩ := call_of_meets met
  exact ⟨next, outcome, called, serves⟩

/-- What a run from `drive` to `last` has brought the host of the response to a command that writes
nothing. -/
structure Responds (drive last : Drive capacity) (wrapper : CommandWrapper)
    (packets : List (List UInt8)) : Prop where
  sound : last.storage.transfer.Sound
  response : drive.storage.response wrapper = packets ++ last.storage.due
  same : drive.Same last

theorem phase_transfer_ne_dataOut {wrapper : CommandWrapper} (noData : wrapper.written = 0) :
    wrapper.transfer.phase ≠ .dataOut := by
  intro writing
  unfold CommandWrapper.written at noData
  cases commandIs : wrapper.command with
  | write10 lba blocks =>
    rw [CommandWrapper.transfer_of_writing commandIs] at writing
    simp only [commandIs, Scsi.Command.named] at noData
    simp only [CommandWrapper.blockTransfer, noData, if_true] at writing
    cases writing
  | read10 lba blocks =>
    rw [CommandWrapper.transfer_of_reading commandIs] at writing
    simp only [CommandWrapper.blockTransfer] at writing
    split at writing <;> cases writing
  | testUnitReady | preventAllowMediumRemoval | unknown opcode =>
    rw [CommandWrapper.transfer_of_nothing (by rw [commandIs]; rfl)] at writing
    cases writing
  | requestSense | inquiry | readCapacity10 | modeSense6 | modeSense10 =>
    rw [CommandWrapper.transfer_of_fixed (by rw [commandIs]; rfl)] at writing
    cases writing

theorem call_reading [Link π] (drive : Drive capacity) {packet : List UInt8}
    {wrapper : CommandWrapper} (decoded : CommandWrapper.decode packet = .ok wrapper)
    (noData : wrapper.written = 0) (link : π) :
    ∃ next outcome, drive.call (drive.send packet link) = .ok (next, outcome) ∧
      Storage.Serves { drive.storage with transfer := wrapper.transfer } next.storage
        outcome.events ∧
      next.phase ≠ .dataOut := by
  obtain ⟨next, outcome, called, serves⟩ := drive.call_command decoded link
  refine ⟨next, outcome, called, serves, ?_⟩
  intro writing
  exact phase_transfer_ne_dataOut noData (serves.forward writing)

theorem run_command [Link π] (drive : Drive capacity) {packet : List UInt8}
    {wrapper : CommandWrapper} (decoded : CommandWrapper.decode packet = .ok wrapper)
    (noData : wrapper.written = 0) (link : π) (calls : List (Call π))
    (quiet : ∀ made ∈ calls, made.operation.Quiet drive.identity.endpoints) :
    ∃ last outcomes, drive.run (drive.send packet link :: calls) = .ok (last, outcomes) ∧
      drive.Responds last wrapper (acceptedIn drive.identity.endpoints.diskIn outcomes) := by
  obtain ⟨next, outcome, called, serves, reading⟩ := drive.call_reading decoded noData link
  have identityIs : next.identity = drive.identity := serves.keeps.identity
  have quietNext : ∀ made ∈ calls, made.operation.Quiet next.identity.endpoints := by
    rw [identityIs]
    exact quiet
  obtain ⟨last, outcomes, ran, carries⟩ := run_quiet serves.sound reading calls quietNext
  have sameNext : drive.Same next := ⟨identityIs, serves.size, serves.keeps.ram⟩
  refine ⟨last, outcome :: outcomes, run_cons called ran, carries.sound, ?_,
    sameNext.trans carries.same⟩
  rw [← (drive.storage.opens_transfer wrapper).due, serves.due, carries.due, identityIs,
    acceptedIn_cons, List.append_assoc]
  rfl

/-- Every command that moves no data to the device: whatever was in flight before, and however the quiet
calls after it and the refusals fall, the host gets the packets of the response in order, and all of
them once the transport is idle again. -/
theorem accepted_of_command [Link π] (drive : Drive capacity) {packet : List UInt8}
    {wrapper : CommandWrapper} (decoded : CommandWrapper.decode packet = .ok wrapper)
    (noData : wrapper.written = 0) (link : π) (calls : List (Call π))
    (quiet : ∀ made ∈ calls, made.operation.Quiet drive.identity.endpoints) :
    ∃ last outcomes, drive.run (drive.send packet link :: calls) = .ok (last, outcomes) ∧
      acceptedIn drive.identity.endpoints.diskIn outcomes <+: drive.storage.response wrapper ∧
      (last.phase = .idle →
        acceptedIn drive.identity.endpoints.diskIn outcomes = drive.storage.response wrapper) := by
  obtain ⟨last, outcomes, ran, responds⟩ := drive.run_command decoded noData link calls quiet
  refine ⟨last, outcomes, ran, ⟨last.storage.due, responds.response.symm⟩, ?_⟩
  intro idle
  rw [responds.response, Storage.due_of_idle idle, List.append_nil]

/-- The first sector of the directory is read while the host also polls, asks for the mark and sends a packet
that is no command. -/
theorem accepted_of_command_directory :
    let drive : Drive 16 := fresh {} (by decide)
    let wrapper := CommandWrapper.reading 7 33 1
    let entry := DirEntry.ofFile drive.identity.fileName drive.file
    let collected : Call Willing := ⟨.collected 5, .willing⟩
    let calls := collected :: ⟨.takeChanged, .willing⟩ :: ⟨.poll, .willing⟩ ::
      ⟨.packet 6 [1, 2, 3], .willing⟩ :: List.replicate 7 collected
    ∃ last outcomes, drive.run (drive.send wrapper.encode .willing :: calls) = .ok (last, outcomes) ∧
      last.phase = .idle ∧
      acceptedIn 5 outcomes =
        (entry.encode ++ List.replicate 32 0) :: List.replicate 7 (List.replicate 64 0) ++
          [(StatusWrapper.forCommand wrapper).encode] := by
  intro drive wrapper entry collected calls
  have quiet : ∀ made ∈ calls, made.operation.Quiet drive.identity.endpoints := by
    simp only [calls, List.forall_mem_cons, List.forall_mem_replicate]
    exact ⟨not_false, not_false, not_false, fun _ => ⟨.length 3, rfl⟩, .inr not_false⟩
  obtain ⟨last, outcomes, ran, -, all⟩ :=
    accepted_of_command drive wrapper.decode_encode rfl .willing calls quiet
  have ended : (drive.run (drive.send wrapper.encode .willing :: calls)).toOption.map
      (fun result => result.1.phase) = some .idle := by
    decide +kernel
  rw [ran] at ended
  have idle : last.phase = .idle := Option.some_inj.mp ended
  exact ⟨last, outcomes, ran, idle, (all idle).trans (by decide +kernel)⟩

end Drive

end ScriptDrive
