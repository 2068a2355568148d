import ScriptDrive.Proofs.Drive.Faultless

/-!
# Commands that are given up

A reset drops the command in flight, and a new command takes its place, in whatever phase it is.  Nothing
of the old transfer is looked at then but for a note in the log: `Siblings.perform_alike`.  Two drives
that differ only in the command in flight are one and the same drive afterwards, and `run_abandoned`
carries this through all that comes later.
-/

set_option autoImplicit false

namespace ScriptDrive

variable {π α β : Type} {capacity : Nat}

/-- Nobody but a reader of the log can tell the two replies apart. -/
structure Reply.Alike (first second : Reply π α) : Prop where
  result : first.result = second.result
  link : first.link = second.link
  offers : offersOf first.events = offersOf second.events

theorem Reply.Alike.refl (reply : Reply π α) : reply.Alike reply :=
  ⟨rfl, rfl, rfl⟩

namespace Exchange

variable {first second : Exchange π α} {start : π}

/-- What is noted before some work makes no difference to it. -/
theorem alike_logAll (entries others : List Note) (alike : (first start).Alike (second start)) :
    Reply.Alike ((logAll entries >>= fun _ => first) start)
      ((logAll others >>= fun _ => second) start) := by
  rw [logAll_then, logAll_then]
  refine ⟨alike.result, alike.link, ?_⟩
  rw [offersOf_append, offersOf_append, offersOf_notes, offersOf_notes, alike.offers]

theorem alike_bind (alike : (first start).Alike (second start)) (next : α → Exchange π β) :
    Reply.Alike ((first >>= next) start) ((second >>= next) start) := by
  obtain ⟨result, link, offers⟩ := alike
  cases came : (first start).result with
  | error fault =>
    rw [bind_of_error came, bind_of_error (result.symm.trans came)]
    exact ⟨rfl, link, offers⟩
  | ok value =>
    rw [bind_of_ok came, bind_of_ok (result.symm.trans came), link]
    refine ⟨rfl, rfl, ?_⟩
    rw [offersOf_append, offersOf_append, offers]

end Exchange

open Exchange

/-- The calls that end the command in flight: those that drop it, and a command that takes its place. -/
inductive Operation.Abandons (endpoints : EndpointMap) (operation : Operation) : Prop
  | dropped (drops : operation.Drops)
  | replaced {wrapper : CommandWrapper} (commandIs : operation.command? endpoints = some wrapper)

/-- A call that brings a command is a packet on the disk's endpoint from the host. -/
theorem Operation.packet_of_command? {endpoints : EndpointMap} {operation : Operation}
    {wrapper : CommandWrapper} (commandIs : operation.command? endpoints = some wrapper) :
    ∃ bytes, operation = .packet endpoints.diskOut bytes ∧
      CommandWrapper.decode bytes = .ok wrapper := by
  cases operation with
  | packet endpoint bytes =>
    by_cases disk : endpoint = endpoints.diskOut
    · rw [command?, if_pos disk] at commandIs
      refine ⟨bytes, by rw [disk], ?_⟩
      cases decodedIs : CommandWrapper.decode bytes with
      | ok other =>
        rw [decodedIs] at commandIs
        exact congrArg Except.ok (Option.some.inj commandIs)
      | error reason =>
        rw [decodedIs] at commandIs
        cases commandIs
    · rw [command?, if_neg disk] at commandIs
      cases commandIs
  | collected | poll | classRequest | reset | takeChanged | script | openScript | print =>
    cases commandIs

namespace Drive

section

variable (drive : Drive capacity) (transfer : Transfer) (start : π)

def carrying : Drive capacity :=
  { drive with storage := { drive.storage with transfer := transfer } }

theorem reset_alike :
    Reply.Alike ((drive.reset : Exchange π _) start) ((drive.carrying transfer).reset start) := by
  unfold reset
  exact alike_logAll drive.storage.resetNotes (drive.carrying transfer).storage.resetNotes (.refl _)

theorem command_alike [Link π] {packet : List UInt8} {wrapper : CommandWrapper}
    (decoded : CommandWrapper.decode packet = .ok wrapper) :
    Reply.Alike (drive.onPacket drive.identity.endpoints.diskOut packet start)
      ((drive.carrying transfer).onPacket drive.identity.endpoints.diskOut packet start) := by
  obtain ⟨notes, here⟩ := drive.storage.command_eq (π := π) decoded
  obtain ⟨others, there⟩ := (drive.carrying transfer).storage.command_eq (π := π) decoded
  have same : (drive.carrying transfer).identity = drive.identity := rfl
  rw [onPacket_disk, ← same, onPacket_disk, here, there]
  exact alike_bind (alike_logAll notes others (.refl _)) _

end

/-- Two drives that differ at most in the command in flight. -/
structure Siblings (first second : Drive capacity) : Prop where
  identity : first.identity = second.identity
  file : first.file = second.file
  ram : first.storage.ram = second.storage.ram
  queue : first.queue = second.queue

theorem Siblings.eq_carrying {first second : Drive capacity} (siblings : first.Siblings second) :
    second = first.carrying second.storage.transfer := by
  obtain ⟨⟨identity, transfer, file, ram⟩, queue⟩ := second
  obtain ⟨rfl, rfl, rfl, rfl⟩ := siblings
  rfl

/-- A call that ends the command in flight goes the same way whatever that was. -/
theorem Siblings.perform_alike [Link π] {first second : Drive capacity}
    (siblings : first.Siblings second) {operation : Operation}
    (abandons : operation.Abandons first.identity.endpoints) (start : π) :
    (first.perform operation start).Alike (second.perform operation start) := by
  rw [siblings.eq_carrying]
  cases abandons with
  | dropped drops =>
    cases operation with
    | classRequest code =>
      change ClassRequest.ofCode? code.toNat = some .bulkOnlyReset at drops
      simp only [perform, classRequest, drops]
      exact alike_bind (alike_logAll [.bulkOnlyReset] [.bulkOnlyReset]
        (alike_bind (reset_alike first _ start) _)) _
    | reset => exact alike_bind (reset_alike first _ start) _
    | packet | collected | poll | takeChanged | script | openScript | print => exact drops.elim
  | replaced commandIs =>
    obtain ⟨bytes, rfl, decoded⟩ := Operation.packet_of_command? commandIs
    exact alike_bind (command_alike first _ start decoded) _

theorem call_of_alike [Link π] {first second next : Drive capacity} {made : Call π}
    {outcome : Outcome}
    (alike : (first.perform made.operation made.link).Alike (second.perform made.operation made.link))
    (called : first.call made = .ok (next, outcome)) :
    ∃ counterpart, second.call made = .ok (next, counterpart) ∧
      outcome.answer = counterpart.answer ∧
      offersOf outcome.events = offersOf counterpart.events := by
  obtain ⟨result, events⟩ := result_of_call called
  have alsoResult := alike.result.symm.trans result
  refine ⟨⟨outcome.answer, (second.perform made.operation made.link).events⟩, ?_, rfl, ?_⟩
  · simp only [call, alsoResult, bind, Except.bind, pure, Except.pure]
  · rw [← events]
    exact alike.offers

/-- Two drives that differ only in the command in flight cannot be told apart once it has been dropped, or
a new command has come: whatever is called then and whatever the links refuse, both offer the same packets
as often, give the same answers and come to the same state. -/
theorem run_abandoned [Link π] {identity : Identity} {first second : Drive capacity}
    (reachable : Reachable identity first) (alsoReachable : Reachable identity second)
    (file : first.file = second.file) (ram : first.storage.ram = second.storage.ram)
    (queue : first.queue = second.queue) {operation : Operation}
    (abandons : operation.Abandons identity.endpoints) (link : π) (calls : List (Call π)) :
    ∃ last outcome counterpart later,
      first.run (⟨operation, link⟩ :: calls) = .ok (last, outcome :: later) ∧
        second.run (⟨operation, link⟩ :: calls) = .ok (last, counterpart :: later) ∧
        outcome.answer = counterpart.answer ∧
        offersOf outcome.events = offersOf counterpart.events := by
  obtain ⟨sound, identityIs⟩ := reachable.sound
  have siblings : first.Siblings second :=
    ⟨identityIs.trans alsoReachable.sound.2.symm, file, ram, queue⟩
  obtain ⟨next, outcome, called, -⟩ := call_does sound.transfer (⟨operation, link⟩ : Call π)
  rw [← identityIs] at abandons
  obtain ⟨counterpart, alsoCalled, answer, offers⟩ :=
    call_of_alike (siblings.perform_alike abandons link) called
  -- From here on the two are one drive.
  obtain ⟨last, later, ran, -⟩ := (reachable.call called).run_never_halts calls
  exact ⟨last, outcome, counterpart, later, run_cons called ran, run_cons alsoCalled ran, answer, offers⟩

/-- A read is cut short in one drive and a write in the other, by a command for the directory. -/
theorem run_abandoned_mid_transfer :
    let directory := CommandWrapper.reading 3 33 1
    ∃ first second : Drive 16, Reachable {} first ∧ Reachable {} second ∧
      first.phase = .dataIn ∧ second.phase = .dataOut ∧
      ∃ last outcome counterpart later,
        first.run [⟨.packet 6 directory.encode, Willing.willing⟩, ⟨.collected 5, .willing⟩,
            ⟨.poll, .willing⟩, ⟨.script, .willing⟩] = .ok (last, outcome :: later) ∧
          second.run [⟨.packet 6 directory.encode, Willing.willing⟩, ⟨.collected 5, .willing⟩,
            ⟨.poll, .willing⟩, ⟨.script, .willing⟩] = .ok (last, counterpart :: later) ∧
          outcome.answer = counterpart.answer ∧
          offersOf outcome.events = offersOf counterpart.events := by
  intro directory
  let idle : Drive 16 := fresh {} (by decide)
  let reading := CommandWrapper.reading 7 65 1
  let writing := CommandWrapper.writing 9 40 8
  -- The first packet of the read has gone to the host.
  let first := idle.carrying
    { reading.transfer with offset := 65 * sectorSize + 64, remaining := sectorSize - 64 }
  let second := idle.carrying writing.transfer
  have begunReading : (idle.run [idle.send reading.encode Willing.willing]).toOption.map Prod.fst =
      some first := by decide +kernel
  have begunWriting : (idle.run [idle.send writing.encode Willing.willing]).toOption.map Prod.fst =
      some second := by decide +kernel
  have reachable : Reachable {} idle := .powerUp (powerUp_fresh rfl _)
  have reachableFirst := reachable.of_run begunReading
  have reachableSecond := reachable.of_run begunWriting
  have replaces : Operation.Abandons ({} : Identity).endpoints (.packet 6 directory.encode) := by
    have commandIs : (Operation.packet 6 directory.encode).command? ({} : Identity).endpoints =
        some directory := by
      rw [Operation.command?, directory.decode_encode]
      rfl
    exact .replaced commandIs
  exact ⟨first, second, reachableFirst, reachableSecond, rfl, rfl,
    run_abandoned reachableFirst reachableSecond rfl rfl rfl replaces Willing.willing _⟩

end Drive

end ScriptDrive
