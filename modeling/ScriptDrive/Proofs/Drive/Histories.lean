import ScriptDrive.Proofs.Drive.Quiet

/-!
# Drives and how they came about

`After` keeps, with every drive that calls can lead to, the calls that led to it.  The command in flight
is then always the last one the host sent, and `After.transfer` says how far it has come: the transfer
that this command began with leads to the one found now.  With the kinds of states that `Transfer.Sound`
lists, this ties the five fields of the transport together, in `After.consistent`.
-/

set_option autoImplicit false

namespace ScriptDrive

open Scsi (Command DataPhase)

variable {π : Type} {capacity : Nat}

/-! ## The fields of a transfer that can come about -/

section Fields

variable {transfer : Transfer}

theorem Transfer.Sound.eq_idle_of_command (sound : transfer.Sound)
    (ended : transfer.command = none) : transfer = .idle := by
  cases sound with
  | idle nothing => exact nothing
  | reading _ commandIs | answering _ commandIs | writing _ commandIs | closing _ commandIs =>
    rw [commandIs] at ended
    cases ended

theorem Transfer.Sound.closing_of_queued (sound : transfer.Sound)
    (queued : transfer.statusQueued = true) : transfer.phase = .statusPending := by
  cases sound with
  | idle nothing =>
    rw [nothing] at queued
    cases queued
  | reading _ _ unqueued | answering _ _ _ unqueued | writing _ _ unqueued =>
    rw [unqueued] at queued
    cases queued
  | closing phaseIs => exact phaseIs

/-- Data goes to the host for a read, or for a command with one fixed answer. -/
theorem Transfer.Sound.command_of_dataIn (sound : transfer.Sound)
    (phaseIs : transfer.phase = .dataIn) :
    (∃ lba blocks, transfer.command = some (.read10 lba blocks)) ∨
      ∃ command length, transfer.command = some command ∧ command.dataPhase = .fixed length := by
  cases sound with
  | idle nothing =>
    rw [nothing] at phaseIs
    cases phaseIs
  | reading _ commandIs => exact .inl ⟨_, _, commandIs⟩
  | answering _ commandIs fixed => exact .inr ⟨_, _, commandIs, fixed⟩
  | writing other | closing other =>
    rw [other] at phaseIs
    cases phaseIs

end Fields

namespace Storage

/-- `advance` with other work in the places where it finds nothing to send. -/
def advanceOr [Link π] (storage : Storage capacity) (dead : Exchange π (Storage capacity)) :
    Exchange π (Storage capacity) :=
  if storage.transfer.remaining = 0 then
    storage.sendStatus
  else
    match storage.transfer.command with
    | none => dead
    | some command =>
      match command.dataPhase with
      | .stream => storage.sendPiece
      | .fixed _ => storage.sendFixed command
      | .none | .receive => dead

/-- Whatever stood in those places, `advance` would do the same: it does not come to them. -/
def Live (storage : Storage capacity) : Prop :=
  ∀ (π : Type) [Link π] (dead : Exchange π (Storage capacity)),
    storage.advance = storage.advanceOr dead

theorem live_of_dataIn {storage : Storage capacity} (sound : storage.transfer.Sound)
    (sending : storage.transfer.phase = .dataIn) : storage.Live := by
  intro π _ dead
  unfold advance advanceOr
  rcases sound.command_of_dataIn sending with ⟨lba, blocks, commandIs⟩ |
    ⟨command, length, commandIs, fixed⟩
  · simp only [commandIs, Command.dataPhase]
  · simp only [commandIs, fixed]

/-- A command that begins by sending comes to neither place. -/
theorem live_of_start (storage : Storage capacity) {wrapper : CommandWrapper} {transfer : Transfer}
    {notes : List Note}
    (started : Transfer.start wrapper (Command.parse wrapper.block) = .ok (transfer, notes))
    (sending : transfer.phase = .dataIn) : Live { storage with transfer := transfer } := by
  obtain ⟨otherNotes, startedAs⟩ := Transfer.start_eq wrapper
  have same : wrapper.transfer = transfer := by
    have both := started.symm.trans startedAs
    cases both
    rfl
  have sound : Transfer.Sound { storage with transfer := transfer }.transfer := by
    rw [← same]
    exact (storage.opens_transfer wrapper).sound
  exact live_of_dataIn sound sending

end Storage

/-- A command that moves blocks moves as many bytes as both it and the host name, from its first block
on. -/
theorem CommandWrapper.reach_transfer {wrapper : CommandWrapper} {lba : UInt32} {blocks : UInt16}
    (commandIs : wrapper.command = .read10 lba blocks ∨ wrapper.command = .write10 lba blocks) :
    wrapper.transfer.offset + wrapper.transfer.remaining =
      sectorSize * lba.toNat + min (sectorSize * blocks.toNat) wrapper.requested.toNat := by
  cases commandIs with
  | inl reading =>
    rw [transfer_of_reading reading]
    rfl
  | inr writing =>
    rw [transfer_of_writing writing]
    rfl

theorem CommandWrapper.command_transfer (wrapper : CommandWrapper) :
    wrapper.transfer.command = some wrapper.command := by
  cases commandIs : wrapper.command with
  | read10 lba blocks =>
    rw [transfer_of_reading commandIs, ← commandIs]
    rfl
  | write10 lba blocks =>
    rw [transfer_of_writing commandIs, ← commandIs]
    rfl
  | testUnitReady | preventAllowMediumRemoval | unknown opcode =>
    rw [transfer_of_nothing (by rw [commandIs]; rfl), ← commandIs]
  | requestSense | inquiry | readCapacity10 | modeSense6 | modeSense10 =>
    rw [transfer_of_fixed (by rw [commandIs]; rfl), ← commandIs]

/-! ## The command that came last -/

def Operation.command? (endpoints : EndpointMap) : Operation → Option CommandWrapper
  | .packet endpoint bytes =>
    if endpoint = endpoints.diskOut then (CommandWrapper.decode bytes).toOption else none
  | _ => none

def lastCommand (endpoints : EndpointMap) (history : List Operation) : Option CommandWrapper :=
  history.findSome? (Operation.command? endpoints)

namespace Drive

/-- The drives that calls can lead to from power-up, with links of any kind, and the calls, the newest
in front. -/
inductive After (identity : Identity) : Drive capacity → List Operation → Prop
  | powerUp {fits : capacity ≤ clusterSize} {drive : Drive capacity}
      (started : Drive.powerUp identity fits = .ok drive) : After identity drive []
  | call {π : Type} [Link π] {drive next : Drive capacity} {history : List Operation}
      {made : Call π} {outcome : Outcome} (before : After identity drive history)
      (called : drive.call made = .ok (next, outcome)) :
      After identity next (made.operation :: history)

theorem After.reachable {identity : Identity} {drive : Drive capacity} {history : List Operation}
    (after : After identity drive history) : Reachable identity drive := by
  induction after with
  | powerUp started => exact .powerUp started
  | call before called reachable => exact .call reachable called

theorem Reachable.after {identity : Identity} {drive : Drive capacity}
    (reachable : Reachable identity drive) : ∃ history, After identity drive history := by
  induction reachable with
  | powerUp started => exact ⟨[], .powerUp started⟩
  | call before called after =>
    obtain ⟨history, after⟩ := after
    exact ⟨_, .call after called⟩

/-- A call puts a new command into the transport, or the command that is there moves on. -/
inductive Leads (drive next : Drive capacity) : Option CommandWrapper → Prop
  | begun {wrapper : CommandWrapper}
      (leadsTo : wrapper.transfer.LeadsTo next.storage.transfer) : Leads drive next (some wrapper)
  | went (leadsTo : drive.storage.transfer.LeadsTo next.storage.transfer) : Leads drive next none

theorem leadsTo_of_takes {storage taken : Storage capacity} {packet : List UInt8}
    (takes : storage.Takes taken (packet.take storage.transfer.remaining)
      (storage.transfer.remaining - min packet.length storage.transfer.remaining)) :
    storage.transfer.LeadsTo taken.transfer := by
  have size : (packet.take storage.transfer.remaining).length =
      min packet.length storage.transfer.remaining := by
    rw [List.length_take, Nat.min_comm]
  have part := Nat.min_le_right packet.length storage.transfer.remaining
  rw [takes.transfer, size]
  exact ⟨.inr rfl, Nat.sub_le .., by dsimp only; omega, fun _ _ _ => by dsimp only; omega⟩

theorem Does.leads {drive next : Drive capacity} {events : List Event} {operation : Operation}
    (does : drive.Does next events operation) :
    drive.Leads next (operation.command? drive.identity.endpoints) := by
  cases does with
  | @handled bytes packet handled =>
    have commandIs : operation.command? drive.identity.endpoints =
        (CommandWrapper.decode bytes).toOption := by
      rw [packet]
      exact if_pos rfl
    rw [commandIs]
    cases handled with
    | begun decoded serves =>
      rw [decoded]
      exact .begun serves.leadsTo
    | written undecoded writing takes serves =>
      rw [undecoded]
      exact .went ((leadsTo_of_takes takes).trans serves.leadsTo)
    | stray undecoded notWriting serves =>
      rw [undecoded]
      exact .went serves.leadsTo
  | served elsewhere serves =>
    have commandIs : operation.command? drive.identity.endpoints = none := by
      cases operation with
      | packet endpoint bytes =>
        refine if_neg fun disk => elsewhere bytes ?_
        rw [disk]
      | collected | poll | classRequest | reset | takeChanged | script | openScript | print => rfl
    rw [commandIs]
    exact .went serves.leadsTo
  | cleaned taken storageIs =>
    rw [taken]
    refine .went ?_
    rw [storageIs]
    exact .refl _
  | dropped drops storageIs =>
    have commandIs : operation.command? drive.identity.endpoints = none := by
      cases operation with
      | packet endpoint bytes => exact absurd drops id
      | collected | poll | classRequest | reset | takeChanged | script | openScript | print => rfl
    rw [commandIs]
    refine .went ?_
    rw [storageIs]
    exact .idle _
  | printed print storageIs =>
    rw [print]
    refine .went ?_
    rw [storageIs]
    exact .refl _

/-- The command in flight is the last one that came, and the transfer it began with has led to where the
transport stands. -/
def Traces (transfer : Transfer) (last : Option CommandWrapper) : Prop :=
  transfer.command = none ∨ ∃ wrapper, last = some wrapper ∧ wrapper.transfer.LeadsTo transfer

theorem Leads.traces {drive next : Drive capacity} {command last : Option CommandWrapper}
    (leads : drive.Leads next command) (traces : Traces drive.storage.transfer last) :
    Traces next.storage.transfer (command.or last) := by
  cases leads with
  | begun leadsTo => exact .inr ⟨_, rfl, leadsTo⟩
  | went leadsTo =>
    rcases traces with ended | ⟨wrapper, lastIs, led⟩
    · refine .inl (leadsTo.command.elim id fun same => ?_)
      rw [same]
      exact ended
    · exact .inr ⟨wrapper, lastIs, led.trans leadsTo⟩

theorem After.traces {identity : Identity} {drive : Drive capacity} {history : List Operation}
    (after : After identity drive history) :
    Traces drive.storage.transfer (lastCommand identity.endpoints history) := by
  induction after with
  | powerUp started =>
    obtain ⟨ram, startedAs, -⟩ := powerUp_eq identity ‹_›
    rw [started] at startedAs
    cases startedAs
    exact .inl rfl
  | @call π _ drive next history made outcome before called tracesBefore =>
    obtain ⟨sound, identityIs⟩ := before.reachable.sound
    have leads := (does_of_call sound.transfer called).leads
    rw [identityIs] at leads
    have commandIs : lastCommand identity.endpoints (made.operation :: history) =
        (made.operation.command? identity.endpoints).or (lastCommand identity.endpoints history) := by
      rw [lastCommand, List.findSome?_cons]
      cases made.operation.command? identity.endpoints <;> rfl
    rw [commandIs]
    exact leads.traces tracesBefore

/-! ## What holds between two calls -/

/-- The fields of a drive fit together, when this is the last command it was sent. -/
structure Consistent (drive : Drive capacity) (last : Option CommandWrapper) : Prop where
  idle_iff : drive.phase = .idle ↔ drive.storage.transfer.command = none
  idle : drive.phase = .idle → drive.storage.transfer = .idle
  dataIn : drive.phase = .dataIn →
    (∃ lba blocks, drive.storage.transfer.command = some (.read10 lba blocks)) ∨
      ∃ command length, drive.storage.transfer.command = some command ∧
        command.dataPhase = .fixed length
  dataOut : drive.phase = .dataOut →
    (∃ lba blocks, drive.storage.transfer.command = some (.write10 lba blocks)) ∧
      0 < drive.storage.transfer.remaining
  statusPending : drive.phase = .statusPending → drive.storage.transfer.remaining = 0
  queued : drive.storage.transfer.statusQueued = true → drive.phase = .statusPending
  /-- The bytes behind a command that moves blocks and those in front of it are the ones that the
  command and the host agreed on when it began. -/
  blocks : ∀ lba blocks command, command = .read10 lba blocks ∨ command = .write10 lba blocks →
    drive.storage.transfer.command = some command →
    ∃ wrapper, last = some wrapper ∧ Command.parse wrapper.block = command ∧
      drive.storage.transfer.offset + drive.storage.transfer.remaining =
        sectorSize * lba.toNat + min (sectorSize * blocks.toNat) wrapper.requested.toNat
  size_le : drive.file.size.toNat ≤ capacity
  cluster_ne_zero : drive.file.cluster ≠ 0
  live : drive.phase = .dataIn → drive.storage.Live
  live_start : ∀ wrapper transfer notes,
    Transfer.start wrapper (Command.parse wrapper.block) = .ok (transfer, notes) →
    transfer.phase = .dataIn → Storage.Live { drive.storage with transfer := transfer }
  script : ∃ bytes, drive.script = .ok bytes ∧ bytes.length = drive.file.size.toNat

theorem Traces.blocks {transfer : Transfer} {last : Option CommandWrapper}
    (traces : Traces transfer last) {lba : UInt32} {blocks : UInt16} {command : Command}
    (moves : command = .read10 lba blocks ∨ command = .write10 lba blocks)
    (commandIs : transfer.command = some command) :
    ∃ wrapper, last = some wrapper ∧ Command.parse wrapper.block = command ∧
      transfer.offset + transfer.remaining =
        sectorSize * lba.toNat + min (sectorSize * blocks.toNat) wrapper.requested.toNat := by
  rcases traces with ended | ⟨wrapper, lastIs, led⟩
  · rw [ended] at commandIs
    cases commandIs
  · have begunAs : wrapper.command = command := by
      have same := led.command.resolve_left (by rw [commandIs]; exact Option.some_ne_none _)
      rw [commandIs, wrapper.command_transfer] at same
      exact (Option.some.inj same).symm
    have reach := led.reach lba blocks (moves.imp (fun reading => by rw [commandIs, reading])
      (fun writing => by rw [commandIs, writing]))
    refine ⟨wrapper, lastIs, begunAs, ?_⟩
    rw [reach]
    exact CommandWrapper.reach_transfer (begunAs ▸ moves)

theorem length_script {drive : Drive capacity} (sound : drive.Sound) :
    ∃ bytes, drive.script = .ok bytes ∧ bytes.length = drive.file.size.toNat := by
  have size := sound.fits
  refine ⟨_, drive.script_eq, ?_⟩
  rw [List.length_take, drive.storage.ram.length_bytes]
  omega

/-- In every state that calls of any kind can lead to, whatever is refused meanwhile, the fields of the
transport fit together. -/
theorem After.consistent {identity : Identity} {drive : Drive capacity} {history : List Operation}
    (after : After identity drive history) :
    drive.Consistent (lastCommand identity.endpoints history) := by
  obtain ⟨sound, -⟩ := after.reachable.sound
  have transferSound := sound.transfer
  refine
    { idle_iff := ⟨fun idle => ?_, fun ended => ?_⟩
      idle := transferSound.eq_idle
      dataIn := transferSound.command_of_dataIn
      dataOut := fun writing => ?_
      statusPending := fun closing => (transferSound.of_statusPending closing).1
      queued := transferSound.closing_of_queued
      blocks := fun lba blocks command moves => after.traces.blocks moves
      size_le := sound.fits
      cluster_ne_zero := sound.file.cluster_ne_zero
      live := Storage.live_of_dataIn transferSound
      live_start := fun wrapper transfer notes => drive.storage.live_of_start
      script := length_script sound }
  · rw [transferSound.eq_idle idle]
    rfl
  · rw [phase, transferSound.eq_idle_of_command ended]
    rfl
  · obtain ⟨lba, blocks, commandIs, -, -, more⟩ := transferSound.of_dataOut writing
    exact ⟨⟨lba, blocks, commandIs⟩, more⟩

theorem After.consistent_writing :
    let wrapper := CommandWrapper.writing 9 65 1
    ∃ drive : Drive 16, After {} drive [.packet 6 wrapper.encode] ∧ drive.phase = .dataOut ∧
      drive.Consistent (some wrapper) := by
  intro wrapper
  have small : 16 ≤ clusterSize := by decide
  obtain ⟨next, outcome, called, serves⟩ :=
    (fresh {} small).call_command wrapper.decode_encode Willing.willing
  have after : After {} next [.packet 6 wrapper.encode] := .call (.powerUp (powerUp_fresh rfl small)) called
  have more : 0 < wrapper.transfer.remaining := by decide
  have waiting := serves.waits rfl more
  refine ⟨next, after, ?_, ?_⟩
  · rw [phase, waiting]
    rfl
  · have consistent := after.consistent
    rw [lastCommand, List.findSome?_cons, Operation.command?, if_pos rfl,
      wrapper.decode_encode] at consistent
    exact consistent

end Drive

end ScriptDrive
