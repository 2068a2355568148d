import ScriptDrive.Drive
import ScriptDrive.Proofs.Storage.Handle

/-!
# Calls to a drive

All that can happen to a drive from outside: packets from the host, packets collected, requests, and the
calls of the program it runs in.  Each call meets a link of its own, so that nothing is said of when an
endpoint is busy.  `perform_meets` says once what each call can do, and that none of them halts;
`Reachable` is what any calls can come to.
-/

set_option autoImplicit false

namespace ScriptDrive

variable {π : Type} {capacity : Nat}

inductive Operation where
  | packet (endpoint : UInt8) (bytes : List UInt8)
  | collected (endpoint : UInt8)
  | poll
  | classRequest (code : UInt8)
  | reset
  | takeChanged
  | script
  | openScript
  | print (text : String)
  deriving DecidableEq

inductive Answer where
  | nothing
  | input (parts : List (List UInt8))
  | request (answer : ClassAnswer)
  | changed (changed : Bool)
  | contents (bytes : List UInt8)
  deriving DecidableEq

/-- The calls that drop the command in flight and put nothing in its place. -/
def Operation.Drops : Operation → Prop
  | .classRequest code => ClassRequest.ofCode? code.toNat = some .bulkOnlyReset
  | .reset => True
  | _ => False

structure Call (π : Type) where
  operation : Operation
  link : π

structure Outcome where
  answer : Answer
  events : List Event
  deriving DecidableEq

def acceptedIn (endpoint : UInt8) (outcomes : List Outcome) : List (List UInt8) :=
  outcomes.flatMap fun outcome => acceptedOn endpoint outcome.events

@[simp] theorem acceptedIn_cons (endpoint : UInt8) (outcome : Outcome) (rest : List Outcome) :
    acceptedIn endpoint (outcome :: rest) =
      acceptedOn endpoint outcome.events ++ acceptedIn endpoint rest := rfl

namespace Drive

def perform [Link π] (drive : Drive capacity) :
    Operation → Exchange π (Drive capacity × Answer)
  | .packet endpoint bytes => do
    let next ← drive.onPacket endpoint bytes
    return (next, .nothing)
  | .collected endpoint => do
    let next ← drive.onCollected endpoint
    return (next, .nothing)
  | .poll => do
    let (next, parts) ← drive.poll
    return (next, .input parts)
  | .classRequest code => do
    let (next, answer) ← drive.classRequest code
    return (next, .request answer)
  | .reset => do
    let next ← drive.reset
    return (next, .nothing)
  | .takeChanged => return (drive.takeChanged.1, .changed drive.takeChanged.2)
  | .script => do
    let bytes ← drive.script
    return (drive, .contents bytes)
  | .openScript => do
    let reader ← drive.openScript
    let (bytes, _) ← reader.read
    return (drive, .contents bytes)
  | .print text => do
    drive.print text
    return (drive, .nothing)

def call [Link π] (drive : Drive capacity) (made : Call π) :
    Except Fault (Drive capacity × Outcome) := do
  let reply := drive.perform made.operation made.link
  let (next, answer) ← reply.result
  return (next, ⟨answer, reply.events⟩)

def run [Link π] (drive : Drive capacity) :
    List (Call π) → Except Fault (Drive capacity × List Outcome)
  | [] => return (drive, [])
  | made :: rest => do
    let (next, outcome) ← drive.call made
    let (last, outcomes) ← next.run rest
    return (last, outcome :: outcomes)

/-- The drives that calls can lead to from power-up, with links of any kind. -/
inductive Reachable (identity : Identity) : Drive capacity → Prop
  | powerUp {fits : capacity ≤ clusterSize} {drive : Drive capacity}
      (started : Drive.powerUp identity fits = .ok drive) : Reachable identity drive
  | call {π : Type} [Link π] {drive next : Drive capacity} {made : Call π} {outcome : Outcome}
      (before : Reachable identity drive) (called : drive.call made = .ok (next, outcome)) :
      Reachable identity next

inductive Does (drive next : Drive capacity) (events : List Event) (operation : Operation) : Prop
  | handled {bytes : List UInt8}
      (packet : operation = .packet drive.identity.endpoints.diskOut bytes)
      (handled : drive.storage.Handled bytes next.storage events)
  | served (elsewhere : ∀ bytes, operation ≠ .packet drive.identity.endpoints.diskOut bytes)
      (serves : drive.storage.Serves next.storage events)
  | cleaned (taken : operation = .takeChanged)
      (storageIs : next.storage = { drive.storage with file := drive.file.markClean })
      (silent : events = [])
  | dropped (drops : operation.Drops) (storageIs : next.storage = drive.storage.reset)
      (silent : acceptedOn drive.identity.endpoints.diskIn events = [])
  | printed {text : String} (print : operation = .print text)
      (storageIs : next.storage = drive.storage)
      (silent : ∀ other, drive.identity.endpoints.consoleIn ≠ other → acceptedOn other events = [])

theorem printPackets_meets [Link π] (endpoint : UInt8) (packets : List Packet) (start : π) :
    (printPackets endpoint packets).Meets start fun _ _ events =>
      ∀ other, endpoint ≠ other → acceptedOn other events = [] := by
  induction packets generalizing start with
  | nil => exact (Exchange.meets_pure ..).mpr fun _ _ => rfl
  | cons packet rest restInduction =>
    rw [printPackets, Exchange.meets_bind]
    refine (sendPolling_meets endpoint packet.bytes consoleTries start).mono ?_
    intro refusal link events attempted
    have silent (other : UInt8) (apart : endpoint ≠ other) : acceptedOn other events = [] := by
      rw [acceptedOn_attempted attempted, if_neg (fun both => apart both.1)]
    cases refusal with
    | none =>
      refine (restInduction link).mono ?_
      intro _ _ later silentLater other apart
      rw [acceptedOn_append, silent other apart, silentLater other apart, List.append_nil]
    | some busy =>
      refine (Exchange.meets_log ..).mpr ?_
      intro other apart
      rw [acceptedOn_append, silent other apart]
      rfl

theorem packet_meets [Link π] {drive : Drive capacity} (sound : drive.storage.transfer.Sound)
    (endpoint : UInt8) (bytes : List UInt8) (start : π) :
    (drive.onPacket endpoint bytes).Meets start fun next _ events =>
      drive.Does next events (.packet endpoint bytes) := by
  by_cases disk : endpoint = drive.identity.endpoints.diskOut
  · rw [disk, onPacket_disk]
    refine ((Storage.onPacket_meets sound bytes start).mono ?_).andPure
    intro next after events handled
    exact .handled rfl handled
  · have elsewhere (other : List UInt8) : Operation.packet endpoint bytes ≠
        .packet drive.identity.endpoints.diskOut other := by
      intro same
      cases same
      exact disk rfl
    by_cases console : endpoint = drive.identity.endpoints.consoleOut
    · rw [drive.onPacket_console bytes disk console]
      simp only [Exchange.meets_bind, Exchange.meets_logAll, Exchange.meets_pure, List.append_nil]
      exact .served elsewhere (.nothing sound (drive.queue.pushNotes bytes))
    · rw [drive.onPacket_unclaimed bytes disk console]
      simp only [Exchange.meets_bind, Exchange.meets_log, Exchange.meets_pure, List.append_nil]
      exact .served elsewhere (.nothing sound [.unclaimedPacket bytes.length endpoint])

theorem collected_meets [Link π] {drive : Drive capacity} (sound : drive.storage.transfer.Sound)
    (endpoint : UInt8) (start : π) :
    (drive.onCollected endpoint).Meets start fun next _ events =>
      drive.storage.Serves next.storage events := by
  unfold onCollected
  split
  · exact (Storage.onCollected_meets sound start).andPure
  · exact (Exchange.meets_pure ..).mpr (.nothing sound [])

theorem polled_meets [Link π] {drive : Drive capacity} (sound : drive.storage.transfer.Sound)
    (start : π) :
    drive.poll.Meets start fun result _ events =>
      drive.storage.Serves result.1.storage events ∧ result.2 = drive.queue.drain.1 := by
  rw [poll, Exchange.meets_bind]
  refine (Storage.poll_meets sound start).mono ?_
  intro storage after events serves
  rw [Exchange.meets_pure, List.append_nil]
  exact ⟨serves, rfl⟩

theorem dropped_meets (drive : Drive capacity) (start : π) :
    (drive.reset : Exchange π (Drive capacity)).Meets start fun next _ events =>
      next.storage = drive.storage.reset ∧
        acceptedOn drive.identity.endpoints.diskIn events = [] := by
  simp only [reset, Exchange.meets_bind, Exchange.meets_logAll, Exchange.meets_pure]
  refine ⟨trivial, ?_⟩
  rw [List.append_nil, acceptedOn_notes]

theorem classRequest_meets {drive : Drive capacity} (sound : drive.storage.transfer.Sound)
    (code : UInt8) (start : π) :
    (drive.classRequest code : Exchange π (Drive capacity × ClassAnswer)).Meets start
      fun next _ events => drive.Does next.1 events (.classRequest code) := by
  unfold classRequest
  cases requestIs : ClassRequest.ofCode? code.toNat with
  | none => exact (Exchange.meets_pure ..).mpr (.served (fun _ => Operation.noConfusion) (.nothing sound []))
  | some request =>
    cases request with
    | getMaxLun =>
      exact (Exchange.meets_pure ..).mpr (.served (fun _ => Operation.noConfusion) (.nothing sound []))
    | bulkOnlyReset =>
      simp only [Exchange.meets_bind, Exchange.meets_log]
      refine (drive.dropped_meets start).mono ?_
      rintro next after events ⟨storageIs, silent⟩
      rw [Exchange.meets_pure, List.append_nil]
      exact .dropped requestIs storageIs silent

/-- No call halts in a sound state, and each does what is written of it. -/
theorem perform_meets [Link π] {drive : Drive capacity} (sound : drive.storage.transfer.Sound)
    (operation : Operation) (start : π) :
    (drive.perform operation).Meets start fun result _ events =>
      drive.Does result.1 events operation := by
  cases operation with
  | packet endpoint bytes =>
    exact (packet_meets sound endpoint bytes start).andPure
  | collected endpoint =>
    refine ((collected_meets sound endpoint start).mono ?_).andPure
    intro next after events serves
    exact .served (fun _ => Operation.noConfusion) serves
  | poll =>
    rw [perform, Exchange.meets_bind]
    refine (polled_meets sound start).mono ?_
    rintro ⟨next, parts⟩ after events ⟨serves, -⟩
    rw [Exchange.meets_pure, List.append_nil]
    exact .served (fun _ => Operation.noConfusion) serves
  | classRequest code =>
    exact (classRequest_meets sound code start).andPure
  | reset =>
    refine ((drive.dropped_meets start).mono ?_).andPure
    rintro next after events ⟨storageIs, silent⟩
    exact .dropped trivial storageIs silent
  | takeChanged => exact (Exchange.meets_pure ..).mpr (.cleaned rfl rfl rfl)
  | script =>
    simp only [perform, drive.script_eq, Exchange.meets_bind, Exchange.meets_lift,
      Except.ok.injEq, exists_eq_left', Exchange.meets_pure]
    exact .served (fun _ => Operation.noConfusion) (.nothing sound [])
  | openScript =>
    obtain ⟨reader, opened, front⟩ : ∃ reader : ScriptReader, drive.openScript = .ok reader ∧
        reader.position = 0 := by
      rw [openScript, drive.script_eq]
      exact ⟨_, rfl, rfl⟩
    obtain ⟨result, readIs⟩ : ∃ result, reader.read = .ok result := by
      rw [ScriptReader.read, front, slice_front (Nat.le_refl _)]
      exact ⟨_, rfl⟩
    simp only [perform, opened, readIs, Exchange.meets_bind, Exchange.meets_lift,
      Except.ok.injEq, exists_eq_left', Exchange.meets_pure]
    exact .served (fun _ => Operation.noConfusion) (.nothing sound [])
  | print text =>
    refine ((printPackets_meets drive.identity.endpoints.consoleIn (packetsOf (utf8 text))
      start).mono ?_).andPure
    intro _ after events silent
    exact .printed rfl rfl silent

/-! ## What every call keeps -/

structure Sound (drive : Drive capacity) : Prop where
  transfer : drive.storage.transfer.Sound
  file : drive.file.Fits capacity

theorem Sound.fits {drive : Drive capacity} (sound : drive.Sound) :
    drive.file.size.toNat ≤ capacity :=
  sound.file.size_le

section Does

variable {drive next : Drive capacity} {events : List Event} {operation : Operation}

theorem Does.identity (does : drive.Does next events operation) : next.identity = drive.identity := by
  cases does with
  | handled _ handled => exact handled.identity
  | served _ serves => exact serves.keeps.identity
  | cleaned _ storageIs =>
    unfold Drive.identity
    rw [storageIs]
  | dropped _ storageIs =>
    unfold Drive.identity
    rw [storageIs]
    rfl
  | printed _ storageIs =>
    unfold Drive.identity
    rw [storageIs]

theorem Does.transfer_sound (does : drive.Does next events operation)
    (sound : drive.storage.transfer.Sound) : next.storage.transfer.Sound := by
  cases does with
  | handled _ handled => exact handled.sound
  | served _ serves => exact serves.sound
  | cleaned _ storageIs =>
    rw [storageIs]
    exact sound
  | dropped _ storageIs =>
    rw [storageIs]
    exact .idle rfl
  | printed _ storageIs =>
    rw [storageIs]
    exact sound

theorem Does.fits (does : drive.Does next events operation) (fits : drive.file.Fits capacity) :
    next.file.Fits capacity := by
  cases does with
  | handled _ handled => exact handled.fits fits
  | served _ serves => exact serves.fits fits
  | cleaned _ storageIs =>
    rw [Drive.file, storageIs]
    exact ⟨fits.size_le, fits.cluster_ne_zero⟩
  | dropped _ storageIs =>
    rw [Drive.file, storageIs]
    exact fits
  | printed _ storageIs =>
    rw [Drive.file, storageIs]
    exact fits

theorem Does.sound (does : drive.Does next events operation) (sound : drive.Sound) : next.Sound :=
  ⟨does.transfer_sound sound.transfer, does.fits sound.file⟩

end Does

theorem call_of_meets [Link π] {drive : Drive capacity} {made : Call π}
    {post : Drive capacity × Answer → π → List Event → Prop}
    (met : (drive.perform made.operation).Meets made.link post) :
    ∃ next outcome, drive.call made = .ok (next, outcome) ∧
      ∃ after, post (next, outcome.answer) after outcome.events := by
  obtain ⟨⟨next, answer⟩, result, holds⟩ := met
  refine ⟨next, ⟨answer, (drive.perform made.operation made.link).events⟩, ?_, _, holds⟩
  simp only [call, result, bind, Except.bind, pure, Except.pure]

theorem result_of_call [Link π] {drive next : Drive capacity} {made : Call π} {outcome : Outcome}
    (called : drive.call made = .ok (next, outcome)) :
    (drive.perform made.operation made.link).result = .ok (next, outcome.answer) ∧
      (drive.perform made.operation made.link).events = outcome.events := by
  unfold call at called
  cases came : (drive.perform made.operation made.link).result with
  | error fault =>
    simp only [came, bind, Except.bind] at called
    cases called
  | ok value =>
    simp only [came, bind, Except.bind, pure, Except.pure, Except.ok.injEq, Prod.mk.injEq] at called
    obtain ⟨rfl, rfl⟩ := called
    exact ⟨rfl, rfl⟩

theorem call_does [Link π] {drive : Drive capacity} (sound : drive.storage.transfer.Sound)
    (made : Call π) :
    ∃ next outcome, drive.call made = .ok (next, outcome) ∧
      drive.Does next outcome.events made.operation := by
  obtain ⟨next, outcome, called, -, does⟩ :=
    call_of_meets (perform_meets sound made.operation made.link)
  exact ⟨next, outcome, called, does⟩

theorem run_cons [Link π] {drive next last : Drive capacity} {made : Call π} {rest : List (Call π)}
    {outcome : Outcome} {outcomes : List Outcome} (called : drive.call made = .ok (next, outcome))
    (ran : next.run rest = .ok (last, outcomes)) :
    drive.run (made :: rest) = .ok (last, outcome :: outcomes) := by
  simp only [run, called, ran, bind, Except.bind, pure, Except.pure]

theorem of_run_cons [Link π] {drive last : Drive capacity} {made : Call π} {rest : List (Call π)}
    {outcomes : List Outcome} (ran : drive.run (made :: rest) = .ok (last, outcomes)) :
    ∃ next outcome later, drive.call made = .ok (next, outcome) ∧
      next.run rest = .ok (last, later) ∧ outcomes = outcome :: later := by
  cases called : drive.call made with
  | error fault =>
    simp only [run, called, bind, Except.bind] at ran
    cases ran
  | ok result =>
    cases ranRest : result.1.run rest with
    | error fault =>
      simp only [run, called, ranRest, bind, Except.bind] at ran
      cases ran
    | ok later =>
      simp only [run, called, ranRest, bind, Except.bind, pure, Except.pure, Except.ok.injEq,
        Prod.mk.injEq] at ran
      obtain ⟨rfl, rfl⟩ := ran
      exact ⟨_, _, _, rfl, ranRest, rfl⟩

theorem run_append [Link π] {drive middle last : Drive capacity} {first second : List (Call π)}
    {outcomes later : List Outcome} (before : drive.run first = .ok (middle, outcomes))
    (after : middle.run second = .ok (last, later)) :
    drive.run (first ++ second) = .ok (last, outcomes ++ later) := by
  induction first generalizing drive outcomes with
  | nil =>
    cases before
    exact after
  | cons made rest restInduction =>
    obtain ⟨next, outcome, others, called, ran, rfl⟩ := of_run_cons before
    exact run_cons called (restInduction ran)

/-- What a call meets holds of a call that was made. -/
theorem met_of_call [Link π] {drive next : Drive capacity} {made : Call π} {outcome : Outcome}
    {post : Drive capacity × Answer → π → List Event → Prop}
    (called : drive.call made = .ok (next, outcome))
    (met : (drive.perform made.operation).Meets made.link post) :
    ∃ after, post (next, outcome.answer) after outcome.events := by
  obtain ⟨other, otherOutcome, calledOther, holds⟩ := call_of_meets met
  rw [called] at calledOther
  cases calledOther
  exact holds

theorem does_of_call [Link π] {drive next : Drive capacity} {made : Call π} {outcome : Outcome}
    (sound : drive.storage.transfer.Sound) (called : drive.call made = .ok (next, outcome)) :
    drive.Does next outcome.events made.operation := by
  obtain ⟨-, does⟩ := met_of_call called (perform_meets sound made.operation made.link)
  exact does

theorem powerUp_eq (identity : Identity) (fits : capacity ≤ clusterSize) :
    ∃ ram : RamDisk capacity,
      powerUp identity fits =
        .ok ⟨{ identity := identity
               transfer := .idle
               file := { size := UInt32.ofNat (min identity.contents.length capacity) }
               ram := ram }, .empty⟩ ∧
      ram.bytes = identity.contents.take capacity ++
        List.replicate (capacity - identity.contents.length) 0 := by
  obtain ⟨ram, loaded, bytes⟩ := (RamDisk.blank fits).load_eq identity.contents
  refine ⟨ram, ?_, bytes⟩
  simp only [powerUp, Storage.powerUp, loaded, bind, Except.bind, pure, Except.pure]

/-- A drive whose file has always been empty. -/
def fresh (identity : Identity) (fits : capacity ≤ clusterSize) : Drive capacity :=
  ⟨⟨identity, .idle, {}, .blank fits⟩, .empty⟩

theorem powerUp_fresh {identity : Identity} (empty : identity.contents = [])
    (fits : capacity ≤ clusterSize) : powerUp identity fits = .ok (fresh identity fits) := by
  obtain ⟨ram, startedIs, bytes⟩ := powerUp_eq identity fits
  rw [empty, List.take_nil, List.nil_append, List.length_nil, Nat.sub_zero] at bytes
  have blank : ram = .blank fits := RamDisk.ext bytes
  rw [startedIs, blank, empty]
  simp only [List.length_nil, Nat.zero_min]
  rfl

theorem sound_of_powerUp {identity : Identity} {fits : capacity ≤ clusterSize}
    {drive : Drive capacity} (started : powerUp identity fits = .ok drive) :
    drive.Sound ∧ drive.identity = identity := by
  obtain ⟨ram, startedIs, -⟩ := powerUp_eq identity fits
  rw [started] at startedIs
  cases startedIs
  have small : min identity.contents.length capacity < 1 <<< 32 := by
    have bound := ram.capacity_le_4096
    omega
  have firstCluster : firstDataCluster ≠ 0 := by decide
  refine ⟨⟨.idle rfl, ?_, firstCluster⟩, rfl⟩
  change (UInt32.ofNat (min identity.contents.length capacity)).toNat ≤ capacity
  rw [UInt32.toNat_ofNat_of_lt' small]
  exact Nat.min_le_right ..

theorem Reachable.run [Link π] {identity : Identity} {drive last : Drive capacity}
    {calls : List (Call π)} {outcomes : List Outcome} (reachable : Reachable identity drive)
    (ran : drive.run calls = .ok (last, outcomes)) : Reachable identity last := by
  induction calls generalizing drive outcomes with
  | nil =>
    cases ran
    exact reachable
  | cons made rest restInduction =>
    obtain ⟨next, outcome, later, called, ranRest, rfl⟩ := of_run_cons ran
    exact restInduction (reachable.call called) ranRest

theorem Reachable.of_run [Link π] {identity : Identity} {drive last : Drive capacity}
    {calls : List (Call π)} (reachable : Reachable identity drive)
    (ran : (drive.run calls).toOption.map Prod.fst = some last) : Reachable identity last := by
  cases came : drive.run calls with
  | error fault =>
    rw [came] at ran
    cases ran
  | ok result =>
    rw [came] at ran
    cases ran
    exact reachable.run came

theorem Reachable.sound {identity : Identity} {drive : Drive capacity}
    (reachable : Reachable identity drive) : drive.Sound ∧ drive.identity = identity := by
  induction reachable with
  | powerUp started => exact sound_of_powerUp started
  | call before called soundBefore =>
    have does := does_of_call soundBefore.1.transfer called
    exact ⟨does.sound soundBefore.1, does.identity.trans soundBefore.2⟩

end Drive

end ScriptDrive
