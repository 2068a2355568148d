import ScriptDrive.Proofs.Drive.Faultless
import ScriptDrive.Proofs.Drive.Progress

/-!
# Packets that are put off

A push that is refused leaves a transport that owes the same packet: `held` may have moved on to the status
and may have put the file back, but holding it again changes nothing more, and it offers and passes on what
would have been offered and passed on without the refusal.  So any number of refused pushes comes to one,
in `run_refused` by induction on the calls.
-/

set_option autoImplicit false

namespace ScriptDrive

open Exchange

variable {π : Type} {capacity : Nat}

/-- What becomes of a packet depends on nothing but the packet and the link. -/
theorem Attempted.unique [Link π] {endpoint : UInt8} {bytes : List UInt8} {tries : Nat} {link : π}
    {first second : Option Busy} {events later : List Event}
    (attempted : Attempted endpoint bytes tries link first events)
    (again : Attempted endpoint bytes tries link second later) :
    first.isNone = second.isNone ∧ events = later := by
  induction attempted generalizing later with
  | givenUp link busy =>
    cases again
    exact ⟨rfl, rfl⟩
  | taken answer =>
    cases again with
    | taken same => exact ⟨rfl, rfl⟩
    | refused other => cases answer.symm.trans other
  | refused answer _ laterInduction =>
    cases again with
    | taken other => cases answer.symm.trans other
    | refused same rest =>
      cases answer.symm.trans same
      obtain ⟨refusal, events⟩ := laterInduction rest
      exact ⟨refusal, congrArg _ events⟩

namespace Storage

/-- The piece due is the first one of the root directory. -/
structure AtRoot (storage : Storage capacity) : Prop where
  sending : storage.transfer.phase = .dataIn
  reading : ∃ lba blocks, storage.transfer.command = some (.read10 lba blocks)
  more : storage.transfer.remaining ≠ 0
  front : storage.transfer.offset = rootStart * sectorSize

/-- What a refusal leaves as it was, and what little it can change. -/
structure Postpones (storage next : Storage capacity) : Prop where
  identity : next.identity = storage.identity
  command : next.transfer.command = storage.transfer.command
  offset : next.transfer.offset = storage.transfer.offset
  remaining : next.transfer.remaining = storage.transfer.remaining
  status : next.transfer.status = storage.transfer.status
  statusQueued : next.transfer.statusQueued = storage.transfer.statusQueued
  phase : next.transfer.phase = storage.transfer.phase ∨
    storage.transfer.phase = .dataIn ∧ next.transfer.phase = .statusPending ∧
      storage.transfer.remaining = 0
  ram : next.ram = storage.ram
  size : next.file.size = storage.file.size
  dirty : next.file.dirty = storage.file.dirty
  cluster : next.file.cluster = storage.file.cluster ∨
    next.file.cluster = firstDataCluster ∧ storage.AtRoot

theorem Postpones.refl (storage : Storage capacity) : storage.Postpones storage :=
  ⟨rfl, rfl, rfl, rfl, rfl, rfl, .inl rfl, rfl, rfl, rfl, .inl rfl⟩

section Held

variable {storage next other : Storage capacity} {events later : List Event}

theorem postpones_held (sending : storage.Sending) (sound : storage.transfer.Sound) :
    storage.Postpones storage.held := by
  cases (sending.owing sound).offering with
  | status finished =>
    rw [held_of_finished finished]
    refine ⟨rfl, rfl, rfl, rfl, rfl, rfl, ?_, rfl, rfl, rfl, .inl rfl⟩
    rcases sending with reading | ⟨closing, _⟩
    · exact .inr ⟨reading, rfl, finished⟩
    · exact .inl closing.symm
  | piece reading commandIs more =>
    rw [held_of_reading commandIs more, fileShown_eq]
    split
    · rename_i front
      exact ⟨rfl, rfl, rfl, rfl, rfl, rfl, .inl rfl, rfl, rfl, rfl,
        .inr ⟨rfl, reading, ⟨_, _, commandIs⟩, more, front⟩⟩
    · exact .refl storage
  | answer reading commandIs fixed more =>
    rw [held_of_answering commandIs fixed more]
    exact .refl storage

/-- A transport that put its packet off is still about to send. -/
theorem sending_held (sending : storage.Sending) (sound : storage.transfer.Sound) :
    storage.held.Sending := by
  have postpones := postpones_held sending sound
  have unqueued := (sending.owing sound).unqueued
  rcases postpones.phase with same | ⟨_, closing, _⟩
  · rw [Sending, same, postpones.statusQueued]
    exact sending
  · exact .inr ⟨closing, postpones.statusQueued.trans unqueued⟩

theorem held_held (owing : storage.Owing) : storage.held.held = storage.held := by
  cases owing.offering with
  | status finished =>
    rw [held_of_finished (remaining_held.trans finished), held_of_finished finished]
  | piece sending commandIs more =>
    have same := transfer_held_of_more more
    rw [held_of_reading (by rw [same]; exact commandIs) (by rw [same]; exact more), fileShown_eq, same,
      held_of_reading commandIs more, fileShown_eq]
    split <;> rfl
  | answer sending commandIs fixed more =>
    have same := held_of_answering commandIs fixed more
    rw [same, same]

theorem nextPacket_held (owing : storage.Owing) : storage.held.nextPacket = storage.nextPacket := by
  cases owing.offering with
  | status finished =>
    rw [nextPacket, if_pos (remaining_held.trans finished), nextPacket, if_pos finished,
      held_of_finished finished]
  | piece sending commandIs more =>
    have same := transfer_held_of_more more
    rw [nextPacket_of_reading (by rw [same]; exact commandIs) (by rw [same]; exact more),
      nextPacket_of_reading commandIs more, same, held_of_reading commandIs more, rehome_fileShown]
  | answer sending commandIs fixed more => rw [held_of_answering commandIs fixed more]

theorem passed_held (owing : storage.Owing) : storage.held.passed = storage.passed := by
  cases owing.offering with
  | status finished =>
    rw [passed_of_finished (remaining_held.trans finished), passed_of_finished finished,
      held_of_finished finished]
  | piece sending commandIs more =>
    have same := transfer_held_of_more more
    rw [passed_of_reading (by rw [same]; exact commandIs) (by rw [same]; exact more),
      passed_of_reading commandIs more, fileShown_eq, same, held_of_reading commandIs more,
      fileShown_eq]
    split <;> rfl
  | answer sending commandIs fixed more => rw [held_of_answering commandIs fixed more]

/-- After a refusal a push to the same link goes as it would have gone without. -/
theorem Pushed.after_held [Link π] {link : π} (pushed : storage.Pushed link next events)
    (again : storage.held.Pushed link other later) (owing : storage.Owing) :
    other = next ∧ offersOf later = offersOf events := by
  have packet := nextPacket_held owing
  have identityIs := storage.keeps_held.identity
  cases pushed with
  | taken attempted =>
    cases again with
    | taken attemptedAgain =>
      rw [packet, identityIs] at attemptedAgain
      exact ⟨passed_held owing, congrArg offersOf (attempted.unique attemptedAgain).2.symm⟩
    | refused notes attemptedAgain =>
      rw [packet, identityIs] at attemptedAgain
      cases (attempted.unique attemptedAgain).1
  | refused notes attempted =>
    cases again with
    | taken attemptedAgain =>
      rw [packet, identityIs] at attemptedAgain
      cases (attempted.unique attemptedAgain).1
    | refused notesAgain attemptedAgain =>
      rw [packet, identityIs] at attemptedAgain
      refine ⟨held_held owing, ?_⟩
      rw [offersOf_append, offersOf_append, offersOf_notes, offersOf_notes,
        (attempted.unique attemptedAgain).2]

/-- A push whose offers were all refused put the packet off. -/
theorem Pushed.held_of_refused [Link π] {link : π} (pushed : storage.Pushed link next events)
    (refused : ∀ made ∈ offersOf events, made.refusal ≠ none) : next = storage.held := by
  cases pushed with
  | refused notes attempted => rfl
  | taken attempted =>
    have took : (⟨storage.identity.endpoints.diskIn, storage.nextPacket, none⟩ : Offer) ∈
        takenOf events := by
      rw [takenOf_attempted attempted]
      exact List.mem_singleton_self _
    exact absurd rfl (refused _ (List.mem_filter.mp took).1)

end Held

end Storage

def Outcome.Refused (outcome : Outcome) : Prop :=
  offersOf outcome.events ≠ [] ∧ ∀ made ∈ offersOf outcome.events, made.refusal ≠ none

instance (outcome : Outcome) : Decidable outcome.Refused :=
  inferInstanceAs (Decidable (_ ∧ _))

namespace Drive

/-- A transport that does not send is left without offers by a push. -/
theorem perform_resting [Link π] {drive : Drive capacity} (resting : ¬ drive.storage.Sending)
    {operation : Operation} (pushes : operation.Pushes drive.identity.endpoints) (start : π) :
    (drive.perform operation).Meets start fun _ _ events => offersOf events = [] := by
  rcases pushes with rfl | rfl
  · simp only [perform, poll, Storage.poll_of_resting resting, pure_bind, meets_pure]
    rfl
  · simp only [perform, onCollected, if_true]
    rcases drive.storage.onCollected_cases (π := π) with ⟨_, _, ended⟩ | polled
    · rw [ended]
      simp only [meets_bind, meets_log, meets_pure]
      rfl
    · rw [polled, Storage.poll_of_resting resting]
      simp only [pure_bind, meets_pure]
      rfl

theorem call_refused [Link π] {drive next : Drive capacity} (sound : drive.storage.transfer.Sound)
    {made : Call π} (pushes : made.operation.Pushes drive.identity.endpoints) {outcome : Outcome}
    (called : drive.call made = .ok (next, outcome)) (refused : outcome.Refused) :
    drive.storage.Sending ∧ next.storage = drive.storage.held := by
  by_cases sending : drive.storage.Sending
  · obtain ⟨-, pushed⟩ := met_of_call called (perform_pushes sound sending pushes made.link)
    exact ⟨sending, pushed.held_of_refused refused.2⟩
  · obtain ⟨-, silent⟩ := met_of_call called (perform_resting sending pushes made.link)
    exact absurd silent refused.1

/-- Any number of refused pushes comes to one. -/
theorem run_refused [Link π] {drive last : Drive capacity} (sound : drive.storage.transfer.Sound)
    {tried : List (Call π)}
    (pushes : ∀ made ∈ tried, made.operation.Pushes drive.identity.endpoints)
    {outcomes : List Outcome} (ran : drive.run tried = .ok (last, outcomes))
    (refused : ∀ outcome ∈ outcomes, outcome.Refused) :
    tried = [] ∧ last = drive ∨ drive.storage.Sending ∧ last.storage = drive.storage.held := by
  induction tried generalizing drive outcomes with
  | nil =>
    cases ran
    exact .inl ⟨rfl, rfl⟩
  | cons made rest restInduction =>
    obtain ⟨next, outcome, later, called, ranRest, rfl⟩ := of_run_cons ran
    obtain ⟨pushesFirst, pushesRest⟩ := List.forall_mem_cons.mp pushes
    obtain ⟨refusedFirst, refusedRest⟩ := List.forall_mem_cons.mp refused
    obtain ⟨sending, nextIs⟩ := call_refused sound pushesFirst called refusedFirst
    have does := does_of_call sound called
    rw [← does.identity] at pushesRest
    rcases restInduction (does.transfer_sound sound) pushesRest ranRest refusedRest with
      ⟨_, rfl⟩ | ⟨_, lastIs⟩
    · exact .inr ⟨sending, nextIs⟩
    · refine .inr ⟨sending, ?_⟩
      rw [lastIs, nextIs]
      exact Storage.held_held (sending.owing sound)

/-- The same push, made on a drive whose transport sends and on one where the packet was put off before,
makes the same offers and leaves the same transport. -/
theorem call_after_held [Link π] {drive last : Drive capacity} (sound : drive.storage.transfer.Sound)
    (sending : drive.storage.Sending) (lastIs : last.storage = drive.storage.held) {made : Call π}
    (pushes : made.operation.Pushes drive.identity.endpoints) :
    ∃ next outcome other direct, last.call made = .ok (next, outcome) ∧
      drive.call made = .ok (other, direct) ∧ next.storage = other.storage ∧
      offersOf outcome.events = offersOf direct.events := by
  have owing := sending.owing sound
  have soundLast : last.storage.transfer.Sound := by
    rw [lastIs]
    exact Storage.sound_held owing
  have sendingLast : last.storage.Sending := by
    rw [lastIs]
    exact Storage.sending_held sending sound
  have sameIdentity : last.identity = drive.identity := by
    rw [Drive.identity, lastIs]
    exact drive.storage.keeps_held.identity
  obtain ⟨other, direct, calledDirect, -, pushed⟩ :=
    call_of_meets (perform_pushes sound sending pushes made.link)
  rw [← sameIdentity] at pushes
  obtain ⟨next, outcome, called, -, again⟩ :=
    call_of_meets (perform_pushes soundLast sendingLast pushes made.link)
  rw [lastIs] at again
  obtain ⟨storageIs, offers⟩ := pushed.after_held again owing
  exact ⟨next, outcome, other, direct, called, calledDirect, storageIs, offers⟩

/-- Refusals only postpone.  After pushes in which nothing was taken, however many, the transport is as it
was but for the phase once all data has moved and the cluster at the front of the root directory, and a
push then makes the offers it would have made at once: an endpoint that takes a packet takes the very
one. -/
theorem refusals_only_postpone [Link π] {identity : Identity} {drive : Drive capacity}
    (reachable : Reachable identity drive) (tried : List (Call π))
    (pushes : ∀ made ∈ tried, made.operation.Pushes identity.endpoints) :
    ∃ last outcomes, drive.run tried = .ok (last, outcomes) ∧
      ((∀ outcome ∈ outcomes, outcome.Refused) →
        drive.storage.Postpones last.storage ∧
        ∀ made : Call π, made.operation.Pushes identity.endpoints →
          ∃ next outcome other direct, last.call made = .ok (next, outcome) ∧
            drive.call made = .ok (other, direct) ∧ next.storage = other.storage ∧
            offersOf outcome.events = offersOf direct.events ∧
            (tried ≠ [] → Accepting identity.endpoints.diskIn made.link →
              takenOf outcome.events =
                [⟨identity.endpoints.diskIn, drive.storage.nextPacket, none⟩])) := by
  obtain ⟨sound, identityIs⟩ := reachable.sound
  obtain ⟨last, outcomes, ran, -⟩ := reachable.run_never_halts tried
  rw [← identityIs] at pushes ⊢
  refine ⟨last, outcomes, ran, ?_⟩
  intro refused
  rcases run_refused sound.transfer pushes ran refused with ⟨none, rfl⟩ | ⟨sending, lastIs⟩
  · refine ⟨.refl _, ?_⟩
    intro made _
    obtain ⟨next, outcome, called, -⟩ := call_does sound.transfer made
    exact ⟨next, outcome, next, outcome, called, called, rfl, rfl, fun some => absurd none some⟩
  · refine ⟨by rw [lastIs]; exact Storage.postpones_held sending sound.transfer, ?_⟩
    intro made pushesMade
    obtain ⟨next, outcome, other, direct, called, calledDirect, storageIs, offers⟩ :=
      call_after_held sound.transfer sending lastIs pushesMade
    refine ⟨next, outcome, other, direct, called, calledDirect, storageIs, offers, ?_⟩
    intro _ accepting
    obtain ⟨_, _, calledAgain, -, took⟩ := call_pushes sound.transfer sending pushesMade accepting
    cases calledDirect.symm.trans calledAgain
    rw [takenOf, offers]
    exact took

/-- The front of the root directory is asked for while the endpoint is busy: one poll and one notice come
too early, and the next poll is in time. -/
theorem refusals_only_postpone_directory :
    let reading := CommandWrapper.reading 7 33 1
    let idle : Drive 16 := fresh {} (by decide)
    let busy : Drive 16 := { idle with storage := { idle.storage with transfer := reading.transfer } }
    let tried : List (Call Reluctant) := [⟨.poll, ⟨64⟩⟩, ⟨.collected 5, ⟨80⟩⟩]
    ∃ last outcomes, busy.run tried = .ok (last, outcomes) ∧
      (∀ outcome ∈ outcomes, outcome.Refused) ∧ busy.storage.Postpones last.storage ∧
      ∃ next outcome, last.call ⟨.poll, Reluctant.mk 3⟩ = .ok (next, outcome) ∧
        takenOf outcome.events = [⟨5, busy.storage.nextPacket, none⟩] := by
  intro reading idle busy tried
  have begun : (idle.run [idle.send reading.encode (Reluctant.mk 64)]).toOption.map Prod.fst =
      some busy := by decide +kernel
  have reachable : Reachable {} busy := .of_run (.powerUp (powerUp_fresh rfl _)) begun
  have pushes : ∀ made ∈ tried, made.operation.Pushes ({} : Identity).endpoints := by
    rw [List.forall_mem_cons, List.forall_mem_singleton]
    exact ⟨.inl rfl, .inr rfl⟩
  obtain ⟨last, outcomes, ran, postponed⟩ := refusals_only_postpone reachable tried pushes
  have early : (busy.run tried).toOption.all
      (fun result => decide (∀ outcome ∈ result.2, outcome.Refused)) = true := by decide +kernel
  rw [ran] at early
  have refused : ∀ outcome ∈ outcomes, outcome.Refused := of_decide_eq_true early
  obtain ⟨postpones, same⟩ := postponed refused
  obtain ⟨next, outcome, _, _, called, _, _, _, took⟩ := same ⟨.poll, ⟨3⟩⟩ (.inl rfl)
  have inTime : Accepting ({} : Identity).endpoints.diskIn (Reluctant.mk 3) := fun _ => rfl
  exact ⟨last, outcomes, ran, refused, postpones, next, outcome, called,
    took (List.cons_ne_nil _ _) inTime⟩

end Drive

end ScriptDrive
