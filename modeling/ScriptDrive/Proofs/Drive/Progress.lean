import ScriptDrive.Proofs.Drive.Sessions

/-!
# Packets on their way

A transport that sends waits for nothing but an endpoint that takes its packets.  Each poll, and each
notice that a packet was collected, brings one packet to such an endpoint, whichever of the two comes:
`call_pushes`.  `packetsLeft` counts how many it takes until the status is queued.
-/

set_option autoImplicit false

namespace ScriptDrive

open Exchange

variable {π : Type} {capacity : Nat}

/-! ## Endpoints that take a packet -/

/-- However long an endpoint holds on to what it has, it takes a packet that the transport offers as often
as it does. -/
def Accepting [Link π] (endpoint : UInt8) (link : π) : Prop :=
  ∀ packet : Packet, (sendPolling endpoint packet.bytes diskTries link).result = .ok none

structure Reluctant where
  refusals : Nat
  deriving DecidableEq

instance : Link Reluctant where
  offer := fun endpoint _ link =>
    if link.refusals = 0 then (none, link) else (some ⟨endpoint⟩, ⟨link.refusals - 1⟩)

theorem Attempted.refusal_of_ok [Link π] {endpoint : UInt8} {bytes : List UInt8} {tries : Nat} {link : π}
    {refusal : Option Busy} {events : List Event}
    (attempted : Attempted endpoint bytes tries link refusal events) {last : Busy}
    (took : (offerAgain endpoint bytes last tries link).result = .ok none) : refusal = none := by
  induction attempted generalizing last with
  | givenUp link busy => cases took
  | taken answer => rfl
  | @refused tries link refusal events busy answer later laterInduction =>
    have offered : (offer endpoint bytes link).result = .ok (some busy) := congrArg Except.ok answer
    rw [offerAgain, bind_of_ok offered] at took
    exact laterInduction took

theorem takenOf_attempted [Link π] {endpoint : UInt8} {bytes : List UInt8} {tries : Nat} {link : π}
    {events : List Event} (attempted : Attempted endpoint bytes tries link none events) :
    takenOf events = [⟨endpoint, bytes, none⟩] := by
  generalize refusalIs : (none : Option Busy) = refusal at attempted
  induction attempted with
  | givenUp link busy => cases refusalIs
  | taken answer => rfl
  | refused answer later laterInduction => exact laterInduction refusalIs

namespace Storage

section Owing

variable {storage next : Storage capacity} {events : List Event}

theorem Owing.length_nextPacket_le (owing : storage.Owing) : storage.nextPacket.length ≤ maxPacket := by
  cases owing.offering with
  | status finished =>
    rw [nextPacket, if_pos finished, StatusWrapper.length_encode]
    decide
  | piece sending commandIs more =>
    rw [nextPacket_of_reading commandIs more, Volume.length_stretch]
    exact Nat.min_le_right _ _
  | @answer command length sending commandIs fixed more =>
    have small := command.length_response_le storage.identity
    have width : maxPacket = 64 := rfl
    rw [nextPacket_of_answering commandIs fixed more, List.length_take]
    omega

theorem Pushed.accepted [Link π] {link : π} (pushed : storage.Pushed link next events)
    (owing : storage.Owing) (accepting : Accepting storage.identity.endpoints.diskIn link) :
    next = storage.passed ∧
      takenOf events = [⟨storage.identity.endpoints.diskIn, storage.nextPacket, none⟩] := by
  cases pushed with
  | taken attempted => exact ⟨rfl, takenOf_attempted attempted⟩
  | refused notes attempted =>
    cases attempted.refusal_of_ok (accepting ⟨storage.nextPacket, owing.length_nextPacket_le⟩)

end Owing

/-! ## Counting packets -/

/-- How many packets the transport has still to send: those of its data, and the status. -/
def packetsLeft (storage : Storage capacity) : Nat :=
  match storage.transfer.command with
  | some (.read10 _ _) => (storage.transfer.remaining + (maxPacket - 1)) / maxPacket + 1
  | some command =>
    match command.dataPhase with
    | .fixed _ => if storage.transfer.remaining = 0 then 1 else 2
    | _ => 1
  | none => 1

section Left

variable {storage : Storage capacity}

theorem packetsLeft_of_reading {lba : UInt32} {blocks : UInt16}
    (commandIs : storage.transfer.command = some (.read10 lba blocks)) :
    storage.packetsLeft = (storage.transfer.remaining + (maxPacket - 1)) / maxPacket + 1 := by
  simp only [packetsLeft, commandIs]

theorem packetsLeft_of_answering {command : Scsi.Command} {length : Nat}
    (commandIs : storage.transfer.command = some command)
    (fixed : command.dataPhase = .fixed length) :
    storage.packetsLeft = if storage.transfer.remaining = 0 then 1 else 2 := by
  unfold packetsLeft
  rw [commandIs]
  cases command <;> first | rfl | cases fixed

theorem packetsLeft_of_finished (finished : storage.transfer.remaining = 0) :
    storage.packetsLeft = 1 := by
  unfold packetsLeft
  split
  · rw [finished]
    rfl
  · split
    · rw [if_pos finished]
    · rfl
  · rfl

theorem packetsLeft_pos (storage : Storage capacity) : 0 < storage.packetsLeft := by
  unfold packetsLeft
  split
  · exact Nat.succ_pos _
  · split
    · split <;> decide
    · decide
  · decide

/-- While data is left, a packet that was taken is one packet less, and the transport sends on. -/
theorem Owing.passed_of_more (owing : storage.Owing) (more : storage.transfer.remaining ≠ 0) :
    storage.passed.Sending ∧ storage.passed.packetsLeft + 1 = storage.packetsLeft := by
  cases owing.offering with
  | status finished => exact absurd finished more
  | piece sending commandIs more =>
    have passedIs := passed_of_reading commandIs more
    have sendingStill : storage.passed.transfer.phase = .dataIn := by
      rw [passedIs]
      exact sending
    have commandStill : storage.passed.transfer.command = storage.transfer.command := by
      rw [passedIs]
    refine ⟨.inl sendingStill, ?_⟩
    rw [packetsLeft_of_reading commandIs, packetsLeft_of_reading (commandStill.trans commandIs),
      passedIs]
    simp only [maxPacket]
    omega
  | answer sending commandIs fixed more =>
    have passedIs := passed_of_answering commandIs fixed more
    have sendingStill : storage.passed.transfer.phase = .dataIn := by
      rw [passedIs]
      exact sending
    have finished : storage.passed.transfer.remaining = 0 := by rw [passedIs]
    refine ⟨.inl sendingStill, ?_⟩
    rw [packetsLeft_of_answering commandIs fixed, if_neg more, packetsLeft_of_finished finished]

end Left

end Storage

/-! ## Calls that bring a packet on its way -/

def Operation.Pushes (endpoints : EndpointMap) (operation : Operation) : Prop :=
  operation = .poll ∨ operation = .collected endpoints.diskIn

namespace Drive

/-- Whichever of the two calls comes, a transport that sends is pushed. -/
theorem perform_pushes [Link π] {drive : Drive capacity} (sound : drive.storage.transfer.Sound)
    (sending : drive.storage.Sending) {operation : Operation}
    (pushes : operation.Pushes drive.identity.endpoints) (start : π) :
    (drive.perform operation).Meets start fun result _ events =>
      drive.storage.Pushed start result.1.storage events := by
  have polled := sending.poll_meets sound start
  rcases pushes with rfl | rfl
  · simp only [perform, Drive.poll, meets_bind]
    refine polled.mono ?_
    intro next after events pushed
    simp only [meets_pure, List.append_nil]
    exact pushed
  · rw [← Storage.onCollected_eq_poll fun _ => (sending.owing sound).unqueued] at polled
    simp only [perform, onCollected, if_true]
    exact polled.andPure.andPure

theorem call_pushes [Link π] {drive : Drive capacity} (sound : drive.storage.transfer.Sound)
    (sending : drive.storage.Sending) {made : Call π}
    (pushes : made.operation.Pushes drive.identity.endpoints)
    (accepting : Accepting drive.identity.endpoints.diskIn made.link) :
    ∃ next outcome, drive.call made = .ok (next, outcome) ∧ next.storage = drive.storage.passed ∧
      takenOf outcome.events =
        [⟨drive.identity.endpoints.diskIn, drive.storage.nextPacket, none⟩] := by
  obtain ⟨next, outcome, called, -, pushed⟩ :=
    call_of_meets (perform_pushes sound sending pushes made.link)
  exact ⟨next, outcome, called, pushed.accepted (sending.owing sound) accepting⟩

def Queued (drive : Drive capacity) : Prop :=
  drive.phase = .statusPending ∧ drive.storage.transfer.statusQueued = true

theorem run_pushes [Link π] {drive : Drive capacity} (sound : drive.storage.transfer.Sound)
    (sending : drive.storage.Sending) (pushes : List (Call π))
    (each : ∀ made ∈ pushes, made.operation.Pushes drive.identity.endpoints ∧
      Accepting drive.identity.endpoints.diskIn made.link)
    (count : pushes.length = drive.storage.packetsLeft) :
    ∃ sent outcomes, drive.run pushes = .ok (sent, outcomes) ∧ sent.identity = drive.identity ∧
      sent.Queued ∧
      (∀ outcome ∈ outcomes, ∃ bytes,
        takenOf outcome.events = [⟨drive.identity.endpoints.diskIn, bytes, none⟩]) ∧
      acceptedIn drive.identity.endpoints.diskIn outcomes = drive.storage.due := by
  induction pushes generalizing drive with
  | nil => exact absurd count (Nat.ne_of_lt drive.storage.packetsLeft_pos)
  | cons made rest restInduction =>
    have owing := sending.owing sound
    obtain ⟨⟨pushes, accepting⟩, eachRest⟩ := List.forall_mem_cons.mp each
    obtain ⟨next, outcome, called, storageIs, took⟩ := call_pushes sound sending pushes accepting
    have identityIs : next.identity = drive.identity := (does_of_call sound called).identity
    have accepted : acceptedOn drive.identity.endpoints.diskIn outcome.events =
        [drive.storage.nextPacket] := by
      rw [acceptedOn, took]
      simp
    rw [Storage.due_passed owing, ← storageIs]
    by_cases finished : drive.storage.transfer.remaining = 0
    · rw [Storage.packetsLeft_of_finished finished] at count
      obtain rfl : rest = [] := List.length_eq_zero_iff.mp (Nat.succ.inj count)
      have passedIs := storageIs.trans (Storage.passed_of_finished finished)
      have queued : next.Queued := by
        rw [Queued, phase, passedIs]
        exact ⟨rfl, rfl⟩
      refine ⟨next, [outcome], run_cons called rfl, identityIs, queued, ?_, ?_⟩
      · exact List.forall_mem_singleton.mpr ⟨_, took⟩
      · rw [acceptedIn_cons, accepted, passedIs]
        rfl
    · obtain ⟨sendsOn, fewer⟩ := owing.passed_of_more finished
      rw [← storageIs] at sendsOn fewer
      rw [← identityIs] at eachRest
      have soundNext : next.storage.transfer.Sound := by
        rw [storageIs]
        exact Storage.sound_passed owing
      have countRest : rest.length = next.storage.packetsLeft :=
        Nat.succ.inj (count.trans fewer.symm)
      obtain ⟨sent, outcomes, ran, sentIdentity, queued, tookRest, acceptedRest⟩ :=
        restInduction soundNext sendsOn eachRest countRest
      rw [identityIs] at sentIdentity tookRest acceptedRest
      refine ⟨sent, outcome :: outcomes, run_cons called ran, sentIdentity, queued, ?_, ?_⟩
      · exact List.forall_mem_cons.mpr ⟨⟨_, took⟩, tookRest⟩
      · rw [acceptedIn_cons, accepted, acceptedRest]
        rfl

/-! ## After the status has been queued -/

theorem call_poll_of_queued [Link π] {drive : Drive capacity} (queued : drive.Queued) {made : Call π}
    (pollIs : made.operation = .poll) :
    ∃ next outcome, drive.call made = .ok (next, outcome) ∧ next.storage = drive.storage ∧
      offersOf outcome.events = [] := by
  have resting : ¬ drive.storage.Sending := by
    obtain ⟨closing, queued⟩ := queued
    rintro (reading | ⟨-, unqueued⟩)
    · cases closing.symm.trans reading
    · cases queued.symm.trans unqueued
  have met : (drive.perform made.operation).Meets made.link fun result _ events =>
      result.1.storage = drive.storage ∧ events = [] := by
    simp only [pollIs, perform, poll, Storage.poll_of_resting resting, pure_bind, meets_pure]
    exact ⟨trivial, trivial⟩
  obtain ⟨next, outcome, called, -, storageIs, silent⟩ := call_of_meets met
  exact ⟨next, outcome, called, storageIs, by rw [silent]; rfl⟩

theorem run_polls_of_queued [Link π] {drive : Drive capacity} (queued : drive.Queued)
    (polls : List (Call π)) (each : ∀ made ∈ polls, made.operation = .poll) :
    ∃ last outcomes, drive.run polls = .ok (last, outcomes) ∧ last.storage = drive.storage ∧
      ∀ outcome ∈ outcomes, offersOf outcome.events = [] := by
  induction polls generalizing drive with
  | nil => exact ⟨drive, [], rfl, rfl, List.forall_mem_nil _⟩
  | cons made rest restInduction =>
    obtain ⟨pollIs, eachRest⟩ := List.forall_mem_cons.mp each
    obtain ⟨next, outcome, called, storageIs, silent⟩ := call_poll_of_queued queued pollIs
    have queuedNext : next.Queued := by
      rw [Queued, phase, storageIs]
      exact queued
    obtain ⟨last, outcomes, ran, storageLast, silentRest⟩ := restInduction queuedNext eachRest
    exact ⟨last, outcome :: outcomes, run_cons called ran, storageLast.trans storageIs,
      List.forall_mem_cons.mpr ⟨silent, silentRest⟩⟩

/-- A transport that sends needs no event but polls, or notices of packets collected, and an endpoint that
takes its packets: each brings one packet of the response on its way until the status is queued, which
further polls leave alone and whose collection ends the command. -/
theorem sends_all_left [Link π] {identity : Identity} {drive : Drive capacity}
    (reachable : Reachable identity drive) (sending : drive.storage.Sending) (pushes : List (Call π))
    (each : ∀ made ∈ pushes, made.operation.Pushes identity.endpoints ∧
      Accepting identity.endpoints.diskIn made.link)
    (count : pushes.length = drive.storage.packetsLeft) :
    ∃ sent outcomes, drive.run pushes = .ok (sent, outcomes) ∧
      (∀ outcome ∈ outcomes, ∃ bytes,
        takenOf outcome.events = [⟨identity.endpoints.diskIn, bytes, none⟩]) ∧
      acceptedIn identity.endpoints.diskIn outcomes = drive.storage.due ∧
      sent.phase = .statusPending ∧ sent.storage.transfer.statusQueued = true ∧
      ∀ polls : List (Call π), (∀ made ∈ polls, made.operation = .poll) →
        ∃ rested quiet, sent.run polls = .ok (rested, quiet) ∧
          (∀ outcome ∈ quiet, offersOf outcome.events = []) ∧
          ∀ link : π, ∃ ended outcome,
            rested.call ⟨.collected identity.endpoints.diskIn, link⟩ = .ok (ended, outcome) ∧
              ended.phase = .idle := by
  obtain ⟨sound, identityIs⟩ := reachable.sound
  rw [← identityIs] at each ⊢
  obtain ⟨sent, outcomes, ran, sentIdentity, queued, took, accepted⟩ :=
    run_pushes sound.transfer sending pushes each count
  refine ⟨sent, outcomes, ran, took, accepted, queued.1, queued.2, ?_⟩
  intro polls eachPoll
  obtain ⟨rested, quiet, ranPolls, storageIs, silent⟩ := run_polls_of_queued queued polls eachPoll
  refine ⟨rested, quiet, ranPolls, silent, ?_⟩
  intro link
  have sameIdentity : rested.identity = drive.identity := by
    rw [Drive.identity, storageIs]
    exact sentIdentity
  rw [← sameIdentity]
  exact call_collected (by rw [storageIs]; exact queued.1) (by rw [storageIs]; exact queued.2) rfl

/-- The size of the disk is asked for while the endpoint is busy; a poll brings the answer on its way and
a notice the status. -/
theorem sends_all_left_deferred :
    let asking := CommandWrapper.carrying 11 8 0x80 (Scsi.runBlock 0x25 0 0)
    let idle : Drive 16 := fresh {} (by decide)
    let busy : Drive 16 := { idle with storage := { idle.storage with transfer := asking.transfer } }
    let pushes : List (Call Reluctant) := [⟨.poll, ⟨2⟩⟩, ⟨.collected 5, ⟨0⟩⟩]
    ∃ sent outcomes, busy.run pushes = .ok (sent, outcomes) ∧
      (∀ outcome ∈ outcomes, ∃ bytes, takenOf outcome.events = [⟨5, bytes, none⟩]) ∧
      acceptedIn 5 outcomes = busy.storage.due ∧
      sent.phase = .statusPending ∧ sent.storage.transfer.statusQueued = true ∧
      ∀ polls : List (Call Reluctant), (∀ made ∈ polls, made.operation = .poll) →
        ∃ rested quiet, sent.run polls = .ok (rested, quiet) ∧
          (∀ outcome ∈ quiet, offersOf outcome.events = []) ∧
          ∀ link : Reluctant, ∃ ended outcome,
            rested.call ⟨.collected 5, link⟩ = .ok (ended, outcome) ∧ ended.phase = .idle := by
  intro asking idle busy pushes
  have begun : (idle.run [idle.send asking.encode (Reluctant.mk 64)]).toOption.map Prod.fst =
      some busy := by decide +kernel
  have reachable : Reachable {} busy := .of_run (.powerUp (powerUp_fresh rfl _)) begun
  have each : ∀ made ∈ pushes, made.operation.Pushes ({} : Identity).endpoints ∧
      Accepting ({} : Identity).endpoints.diskIn made.link := by
    rw [List.forall_mem_cons, List.forall_mem_singleton]
    exact ⟨⟨.inl rfl, fun _ => rfl⟩, .inr rfl, fun _ => rfl⟩
  exact sends_all_left reachable (.inl rfl) pushes each rfl

end Drive

end ScriptDrive
