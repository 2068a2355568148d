import ScriptDrive.Proofs.Drive.Quiet

/-!
# Commands carried through

A session is a command and the quiet calls after it until the transport is idle again.  A session of a
command that writes nothing brings the host the whole response and leaves the contents of the drive as
they were, and a host whose packets are taken can always carry one through.
-/

set_option autoImplicit false

namespace ScriptDrive

variable {π : Type} {capacity : Nat}

def Operation.Fetches : Operation → Prop
  | .poll => True
  | .collected _ => True
  | _ => False

theorem Operation.Fetches.quiet {operation : Operation} (fetches : operation.Fetches)
    (endpoints : EndpointMap) : operation.Quiet endpoints := by
  cases operation with
  | poll => exact not_false
  | collected => exact not_false
  | _ => exact fetches.elim

namespace Storage

theorem Owing.sending {storage : Storage capacity} (owing : storage.Owing)
    (sound : storage.transfer.Sound) : storage.Sending := by
  cases phaseIs : storage.transfer.phase with
  | idle => exact absurd phaseIs owing.busy
  | dataOut =>
    obtain ⟨_, _, _, _, _, more⟩ := sound.of_dataOut phaseIs
    exact absurd more (not_waiting owing phaseIs)
  | dataIn => exact .inl phaseIs
  | statusPending => exact .inr ⟨phaseIs, owing.unqueued⟩

theorem Pushed.willing {storage next : Storage capacity} {link : Willing} {events : List Event}
    (pushed : storage.Pushed link next events) : next = storage.passed := by
  cases pushed with
  | taken => rfl
  | refused notes attempted => cases attempted.willing

/-- A sound transport that is neither idle nor waiting for data owes a packet, unless its status is
queued. -/
theorem owing_or_queued {storage : Storage capacity} (sound : storage.transfer.Sound)
    (busy : storage.transfer.phase ≠ .idle) (reading : storage.transfer.phase ≠ .dataOut) :
    storage.Owing ∨ storage.transfer.phase = .statusPending ∧
      storage.transfer.statusQueued = true := by
  cases phaseIs : storage.transfer.phase with
  | idle => exact absurd phaseIs busy
  | dataOut => exact absurd phaseIs reading
  | dataIn => exact .inl (owing_of_dataIn sound phaseIs)
  | statusPending =>
    cases queued : storage.transfer.statusQueued with
    | false => exact .inl (owing_of_statusPending sound phaseIs queued)
    | true => exact .inr ⟨rfl, rfl⟩

end Storage

namespace Drive

def polled : Call Willing :=
  ⟨.poll, .willing⟩

def collecting (endpoint : UInt8) : Call Willing :=
  ⟨.collected endpoint, .willing⟩

theorem call_polled {drive : Drive capacity} (sound : drive.storage.transfer.Sound)
    (owing : drive.storage.Owing) :
    ∃ next outcome, drive.call polled = .ok (next, outcome) ∧
      next.storage = drive.storage.passed := by
  have met : (drive.perform polled.operation).Meets polled.link
      fun result _ _ => result.1.storage = drive.storage.passed := by
    simp only [polled, perform, poll, Exchange.meets_bind]
    refine ((owing.sending sound).poll_meets sound _).mono ?_
    intro next after events pushed
    simp only [Exchange.meets_pure]
    exact pushed.willing
  obtain ⟨next, outcome, called, -, storageIs⟩ := call_of_meets met
  exact ⟨next, outcome, called, storageIs⟩

theorem call_collected [Link π] {drive : Drive capacity}
    (closing : drive.storage.transfer.phase = .statusPending)
    (queued : drive.storage.transfer.statusQueued = true) {made : Call π}
    (collects : made.operation = .collected drive.identity.endpoints.diskIn) :
    ∃ next outcome, drive.call made = .ok (next, outcome) ∧ next.phase = .idle := by
  have met : (drive.perform made.operation).Meets made.link
      fun result _ _ => result.1.phase = .idle := by
    simp only [collects, perform, onCollected, Storage.onCollected_of_queued closing queued, if_true,
      Exchange.meets_bind, Exchange.meets_log, Exchange.meets_pure]
    rfl
  obtain ⟨next, outcome, called, -, idle⟩ := call_of_meets met
  exact ⟨next, outcome, called, idle⟩

/-- With a host that takes every packet, polling alone empties what is due, and collecting the status
ends the command. -/
theorem exists_idle {drive : Drive capacity} (sound : drive.storage.transfer.Sound)
    (reading : drive.phase ≠ .dataOut) :
    ∃ calls : List (Call Willing),
      (∀ made ∈ calls, made.operation.Fetches) ∧
      ∃ last outcomes, drive.run calls = .ok (last, outcomes) ∧ last.phase = .idle := by
  -- Each poll takes the first packet off what is due.
  generalize count : drive.storage.due.length = due
  induction due using Nat.strongRecOn generalizing drive with
  | _ due dueInduction =>
  by_cases idle : drive.phase = .idle
  · exact ⟨[], List.forall_mem_nil _, drive, [], rfl, idle⟩
  · rcases Storage.owing_or_queued sound idle reading with owing | ⟨closing, queued⟩
    · obtain ⟨next, outcome, called, storageIs⟩ := call_polled sound owing
      have does := does_of_call sound called
      have fewer : next.storage.due.length < due := by
        rw [← count, Storage.due_passed owing, storageIs, List.length_cons]
        exact Nat.lt_succ_self _
      have readingNext : next.phase ≠ .dataOut := by
        intro writing
        rw [phase, storageIs] at writing
        exact reading (Storage.dataOut_of_passed writing)
      obtain ⟨calls, fetching, last, outcomes, ran, idleLast⟩ :=
        dueInduction _ fewer (does.transfer_sound sound) readingNext rfl
      refine ⟨polled :: calls, ?_, last, outcome :: outcomes, ?_, idleLast⟩
      · rw [List.forall_mem_cons]
        exact ⟨trivial, fetching⟩
      · exact run_cons called ran
    · have collects : (collecting drive.identity.endpoints.diskIn).operation =
          .collected drive.identity.endpoints.diskIn := rfl
      obtain ⟨next, outcome, called, idleNext⟩ := call_collected closing queued collects
      refine ⟨[collecting drive.identity.endpoints.diskIn], ?_, next, [outcome], ?_, idleNext⟩
      · rw [List.forall_mem_cons]
        exact ⟨trivial, List.forall_mem_nil _⟩
      · exact run_cons called rfl

/-! ## Sessions -/

/-- A command and quiet calls after it, from links of any kind, until the transport is idle again. -/
inductive Session (drive : Drive capacity) (wrapper : CommandWrapper) (last : Drive capacity)
    (packets : List (List UInt8)) : Prop
  | carried {π : Type} [Link π] {packet : List UInt8} {link : π} {calls : List (Call π)}
      {outcomes : List Outcome} (decoded : CommandWrapper.decode packet = .ok wrapper)
      (quiet : ∀ made ∈ calls, made.operation.Quiet drive.identity.endpoints)
      (ran : drive.run (drive.send packet link :: calls) = .ok (last, outcomes))
      (idle : last.phase = .idle)
      (accepted : acceptedIn drive.identity.endpoints.diskIn outcomes = packets)

theorem Session.response {drive last : Drive capacity} {wrapper : CommandWrapper}
    {packets : List (List UInt8)} (session : drive.Session wrapper last packets)
    (noData : wrapper.written = 0) :
    packets = drive.storage.response wrapper ∧ drive.Same last := by
  cases session with
  | @carried π _ packet link calls outcomes decoded quiet ran idle accepted =>
    obtain ⟨other, otherOutcomes, ranOther, responds⟩ :=
      drive.run_command decoded noData link calls quiet
    rw [ran] at ranOther
    cases ranOther
    rw [responds.response, Storage.due_of_idle idle, List.append_nil, accepted]
    exact ⟨rfl, responds.same⟩

/-- Every command that writes nothing can be carried through. -/
theorem exists_session (drive : Drive capacity) {wrapper : CommandWrapper}
    (noData : wrapper.written = 0) :
    ∃ last packets, drive.Session wrapper last packets := by
  obtain ⟨next, outcome, called, serves, reading⟩ :=
    drive.call_reading wrapper.decode_encode noData Willing.willing
  obtain ⟨calls, fetching, last, outcomes, ran, idle⟩ := exists_idle serves.sound reading
  have quiet : ∀ made ∈ calls, made.operation.Quiet drive.identity.endpoints :=
    fun made present => (fetching made present).quiet _
  have ranAll : drive.run (drive.send wrapper.encode Willing.willing :: calls) =
      .ok (last, outcome :: outcomes) := run_cons called ran
  exact ⟨last, _, .carried wrapper.decode_encode quiet ranAll idle rfl⟩

/-- Sessions one after the other, none of which writes. -/
inductive Sessions (drive : Drive capacity) : Drive capacity → Prop
  | none : Sessions drive drive
  | more {next last : Drive capacity} {wrapper : CommandWrapper} {packets : List (List UInt8)}
      (before : Sessions drive next) (noData : wrapper.written = 0)
      (session : next.Session wrapper last packets) : Sessions drive last

theorem Sessions.same {drive last : Drive capacity} (sessions : drive.Sessions last) :
    drive.Same last := by
  induction sessions with
  | none => exact .refl drive
  | more before noData session sameBefore => exact sameBefore.trans (session.response noData).2

end Drive

end ScriptDrive
