import ScriptDrive.Proofs.Drive.Progress

/-!
# The attempts of one call

However busy an endpoint is, a call to a drive comes back after a bounded number of offers.  `OnePacket`
says what the offers of one call are: the same packet each time, to one endpoint, and not again once it is
taken.  `MayPush.onePacket` has it for one push of the transport; every way into the transport comes to
one such push, with notes before it, or to none.  `Silent` is the shape of all other work.
-/

set_option autoImplicit false

namespace ScriptDrive

open Exchange

variable {π α : Type} {capacity : Nat}

/-! ## Offers of one packet -/

/-- The offers are all of one packet, which holds something, and to one endpoint; they are no more than
allowed, and only the last can have been taken. -/
structure OnePacket (endpoint : UInt8) (tries : Nat) (offers : List Offer) : Prop where
  few : offers.length ≤ tries
  same : ∃ bytes : List UInt8, 1 ≤ bytes.length ∧ bytes.length ≤ maxPacket ∧
    ∀ made ∈ offers, made.endpoint = endpoint ∧ made.bytes = bytes
  refused : ∀ made ∈ offers.dropLast, made.refusal ≠ none

theorem OnePacket.nothing (endpoint : UInt8) (tries : Nat) : OnePacket endpoint tries [] :=
  ⟨Nat.zero_le tries, ⟨[0], by decide, by decide, List.forall_mem_nil _⟩, List.forall_mem_nil _⟩

section Attempted

variable [Link π] {endpoint : UInt8} {bytes : List UInt8} {tries : Nat} {link : π}
  {refusal : Option Busy} {events : List Event}

theorem Attempted.length_le (attempted : Attempted endpoint bytes tries link refusal events) :
    (offersOf events).length ≤ tries := by
  induction attempted with
  | givenUp link busy => exact Nat.zero_le 0
  | @taken tries link answer => exact Nat.succ_le_succ (Nat.zero_le tries)
  | refused answer later laterInduction => exact Nat.succ_le_succ laterInduction

theorem Attempted.refused_before (attempted : Attempted endpoint bytes tries link refusal events) :
    ∀ made ∈ (offersOf events).dropLast, made.refusal ≠ none := by
  induction attempted with
  | givenUp link busy => exact List.forall_mem_nil _
  | taken answer => exact List.forall_mem_nil _
  | @refused tries link refusal events busy answer later laterInduction =>
    intro made present
    have split : made ∈ ((⟨endpoint, bytes, some busy⟩ : Offer) :: offersOf events).dropLast := present
    cases rest : offersOf events with
    | nil =>
      rw [rest] at split
      exact absurd split List.not_mem_nil
    | cons next others =>
      rw [rest, List.dropLast_cons_cons, List.mem_cons] at split
      rw [rest] at laterInduction
      rcases split with rfl | before
      · exact Option.some_ne_none busy
      · exact laterInduction made before

theorem Attempted.onePacket (attempted : Attempted endpoint bytes tries link refusal events)
    (some : bytes ≠ []) (short : bytes.length ≤ maxPacket) :
    OnePacket endpoint tries (offersOf events) :=
  ⟨attempted.length_le, ⟨bytes, List.length_pos_iff.mpr some, short, attempted.offer_eq⟩,
    attempted.refused_before⟩

end Attempted

/-! ## Work that offers nothing -/

/-- Work that makes no use of its link. -/
inductive Exchange.Silent : {α : Type} → Exchange π α → Prop
  | pure {α : Type} (value : α) : Silent (pure value : Exchange π α)
  | lift {α : Type} (checked : Except Fault α) : Silent (liftM checked : Exchange π α)
  | log (entry : Note) : Silent (log entry : Exchange π Unit)
  | logAll (entries : List Note) : Silent (logAll entries : Exchange π Unit)
  | bind {α β : Type} {first : Exchange π α} {next : α → Exchange π β} (silentFirst : Silent first)
      (silentNext : ∀ value, Silent (next value)) : Silent (first >>= next)

theorem Exchange.Silent.offers {work : Exchange π α} (silent : work.Silent) (start : π) :
    offersOf (work start).events = [] := by
  induction silent generalizing start with
  | pure value => rfl
  | lift checked => rfl
  | log entry => rfl
  | logAll entries => exact offersOf_notes entries
  | @bind α β first next _ _ firstInduction nextInduction =>
    cases result : (first start).result with
    | error fault =>
      rw [bind_of_error result]
      exact firstInduction start
    | ok value =>
      rw [bind_of_ok result, offersOf_append, firstInduction, nextInduction]
      rfl

/-! ## The transport -/

namespace Storage

theorem Owing.nextPacket_ne_nil {storage : Storage capacity} (owing : storage.Owing) :
    storage.nextPacket ≠ [] := by
  apply List.ne_nil_of_length_pos
  cases owing.offering with
  | status finished =>
    rw [nextPacket, if_pos finished, StatusWrapper.length_encode]
    decide
  | piece sending commandIs more =>
    rw [nextPacket_of_reading commandIs more, Volume.length_stretch]
    simp only [maxPacket]
    omega
  | @answer command length sending commandIs fixed more =>
    have answered : 0 < (command.response storage.identity).length := by
      rw [Scsi.Command.length_response _ fixed]
      cases command <;> cases fixed <;> decide
    rw [nextPacket_of_answering commandIs fixed more, List.length_take]
    omega

theorem MayPush.onePacket [Link π] {storage next : Storage capacity} {link : π} {events : List Event}
    (moved : storage.MayPush link next events) :
    OnePacket storage.identity.endpoints.diskIn diskTries (offersOf events) := by
  cases moved with
  | rested sound => exact .nothing _ diskTries
  | pushed owing pushed =>
    cases pushed with
    | taken attempted => exact attempted.onePacket owing.nextPacket_ne_nil owing.length_nextPacket_le
    | refused notes attempted =>
      rw [offersOf_append, offersOf_notes, List.append_nil]
      exact attempted.onePacket owing.nextPacket_ne_nil owing.length_nextPacket_le

theorem MayPush.onePacket_after_notes [Link π] {storage next : Storage capacity} {link : π}
    {events : List Event} (moved : storage.MayPush link next events) (notes : List Note) :
    OnePacket storage.identity.endpoints.diskIn diskTries (offersOf (notes.map .note ++ events)) := by
  rw [offersOf_append, offersOf_notes, List.nil_append]
  exact moved.onePacket

theorem onCollected_onePacket [Link π] {storage : Storage capacity} (sound : storage.transfer.Sound)
    (start : π) :
    storage.onCollected.Meets start fun _ _ events =>
      OnePacket storage.identity.endpoints.diskIn diskTries (offersOf events) := by
  rcases storage.onCollected_cases (π := π) with ⟨_, _, ended⟩ | polled
  · rw [ended]
    simp only [meets_bind, meets_log, meets_pure]
    exact .nothing _ diskTries
  · rw [polled]
    exact (poll_mayPush sound start).mono fun _ _ _ moved => moved.onePacket

theorem onPacket_onePacket [Link π] {storage : Storage capacity} (sound : storage.transfer.Sound)
    (packet : List UInt8) (start : π) :
    (storage.onPacket packet).Meets start fun _ _ events =>
      OnePacket storage.identity.endpoints.diskIn diskTries (offersOf events) := by
  cases decodedIs : CommandWrapper.decode packet with
  | ok wrapper =>
    obtain ⟨notes, begun⟩ := storage.command_eq (π := π) decodedIs
    rw [begun, meets_bind, meets_logAll]
    refine (poll_mayPush (storage.opens_transfer wrapper).sound start).mono ?_
    intro next after events moved
    exact moved.onePacket_after_notes notes
  | error reason =>
    by_cases writing : storage.transfer.phase = .dataOut
    · simp only [onPacket, decodedIs, writing, meets_bind, meets_log]
      refine (storage.receive_mayPush sound writing packet start).mono ?_
      intro next after events received
      obtain ⟨taken, notes, link, later, takes, moved, rfl⟩ := received
      rw [← takes.identity]
      exact moved.onePacket_after_notes (.packetArrived packet.length .dataOut :: notes)
    · obtain ⟨notes, thrownAway⟩ := storage.stray_eq (π := π) decodedIs writing
      rw [thrownAway, meets_bind, meets_logAll, meets_pure, List.append_nil, offersOf_notes]
      exact .nothing _ diskTries

end Storage

/-! ## Calls to the drive -/

/-- The calls in which the transport may send: its packets from the host, its packets collected, and
polls. -/
def Operation.MaySend (endpoints : EndpointMap) : Operation → Prop
  | .packet endpoint _ => endpoint = endpoints.diskOut
  | .collected endpoint => endpoint = endpoints.diskIn
  | .poll => True
  | _ => False

namespace Drive

theorem perform_onePacket [Link π] {drive : Drive capacity} (sound : drive.storage.transfer.Sound)
    {operation : Operation} (maySend : operation.MaySend drive.identity.endpoints) (start : π) :
    (drive.perform operation).Meets start fun _ _ events =>
      OnePacket drive.identity.endpoints.diskIn diskTries (offersOf events) := by
  cases operation with
  | packet endpoint bytes =>
    obtain rfl : endpoint = drive.identity.endpoints.diskOut := maySend
    simp only [perform, onPacket_disk]
    exact (Storage.onPacket_onePacket sound bytes start).andPure.andPure
  | collected endpoint =>
    obtain rfl : endpoint = drive.identity.endpoints.diskIn := maySend
    simp only [perform, onCollected, if_true]
    exact (Storage.onCollected_onePacket sound start).andPure.andPure
  | poll =>
    simp only [perform, poll, meets_bind]
    refine (Storage.poll_mayPush sound start).mono ?_
    intro storage after events moved
    simp only [meets_pure, List.append_nil]
    exact moved.onePacket
  | _ => exact maySend.elim

theorem silent_reset (drive : Drive capacity) : (drive.reset : Exchange π _).Silent :=
  (Silent.logAll _).bind fun _ => .pure _

/-- No other call offers anything, unless it prints. -/
theorem silent_perform [Link π] (drive : Drive capacity) {operation : Operation}
    (elsewhere : ¬ operation.MaySend drive.identity.endpoints)
    (quiet : ∀ text, operation ≠ .print text) : (drive.perform operation : Exchange π _).Silent := by
  cases operation with
  | packet endpoint bytes =>
    have other : endpoint ≠ drive.identity.endpoints.diskOut := elsewhere
    have packet : (drive.onPacket endpoint bytes : Exchange π _).Silent := by
      unfold onPacket
      rw [if_neg other]
      split
      · exact (Silent.lift _).bind fun _ => (Silent.logAll _).bind fun _ => .pure _
      · exact (Silent.log _).bind fun _ => .pure _
    exact packet.bind fun _ => .pure _
  | collected endpoint =>
    have other : endpoint ≠ drive.identity.endpoints.diskIn := elsewhere
    have collected : (drive.onCollected endpoint : Exchange π _).Silent := by
      unfold onCollected
      rw [if_neg other]
      exact .pure _
    exact collected.bind fun _ => .pure _
  | poll => exact absurd trivial elsewhere
  | classRequest code =>
    have request : (drive.classRequest code : Exchange π _).Silent := by
      unfold classRequest
      split
      · exact .pure _
      · exact (Silent.log _).bind fun _ => drive.silent_reset.bind fun _ => .pure _
      · exact .pure _
    exact request.bind fun _ => .pure _
  | reset => exact drive.silent_reset.bind fun _ => .pure _
  | takeChanged => exact .pure _
  | script => exact (Silent.lift _).bind fun _ => .pure _
  | openScript => exact (Silent.lift _).bind fun _ => (Silent.lift _).bind fun _ => .pure _
  | print text => exact absurd rfl (quiet text)

/-- One call makes at most 64 offers, whatever the endpoint answers: all of one packet with something in
it, all on the disk's endpoint towards the host, and none after the packet is taken.  Requests, resets and
the calls of the program make none, and neither do packets and notices on other endpoints. -/
theorem one_packet_in_a_call [Link π] {identity : Identity} {drive : Drive capacity}
    (reachable : Reachable identity drive) (made : Call π)
    (quiet : ∀ text, made.operation ≠ .print text) :
    ∃ next outcome, drive.call made = .ok (next, outcome) ∧
      (made.operation.MaySend identity.endpoints →
        OnePacket identity.endpoints.diskIn 64 (offersOf outcome.events)) ∧
      (¬ made.operation.MaySend identity.endpoints → offersOf outcome.events = []) := by
  obtain ⟨sound, identityIs⟩ := reachable.sound
  rw [← identityIs]
  obtain ⟨next, outcome, called, -⟩ := call_does sound.transfer made
  refine ⟨next, outcome, called, ?_, ?_⟩
  · intro maySend
    obtain ⟨-, onePacket⟩ := met_of_call called (perform_onePacket sound.transfer maySend made.link)
    exact onePacket
  · intro elsewhere
    rw [← (result_of_call called).2]
    exact (drive.silent_perform elsewhere quiet).offers made.link

/-- A command comes while the endpoint is busy for longer than the transport waits for it. -/
theorem one_packet_in_a_call_deferred :
    let idle : Drive 16 := fresh {} (by decide)
    let asking := CommandWrapper.carrying 11 8 0x80 (Scsi.runBlock 0x25 0 0)
    ∃ next outcome, idle.call (idle.send asking.encode (Reluctant.mk 70)) = .ok (next, outcome) ∧
      OnePacket 5 64 (offersOf outcome.events) := by
  intro idle asking
  have reachable : Reachable {} idle := .powerUp (powerUp_fresh rfl _)
  obtain ⟨next, outcome, called, onePacket, -⟩ :=
    one_packet_in_a_call reachable (idle.send asking.encode (Reluctant.mk 70))
      (fun _ => Operation.noConfusion)
  exact ⟨next, outcome, called, onePacket rfl⟩

end Drive

end ScriptDrive
