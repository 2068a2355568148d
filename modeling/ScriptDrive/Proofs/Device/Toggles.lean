import ScriptDrive.Proofs.Controller.Toggles
import ScriptDrive.Proofs.Device.Leftover

/-!
# Packets in step

In every run the packets of each endpoint are of the even kind and the odd kind in turn.  Those of the control
endpoint start over with a request, in either direction, and those of the bulk endpoints with a bus reset.

`Works` holds of all that a turn does besides these two, part by part, so that `turn_advances` only has to
count: a turn starts the packets of an endpoint over if it brings the occasion, and else takes them no further
than it arms the endpoint.  `turns_advance` is the same of a whole run.
-/

set_option autoImplicit false

namespace ScriptDrive

open Exchange Controller

namespace Device

/-! ## The parts of a turn -/

theorem works_sendNext (device : Device) : Works device.sendNext := by
  unfold sendNext
  split
  · exact (Works.armIn _ _).bind fun _ => .pure _
  · exact .pure _

theorem works_onControlCollected (device : Device) : Works device.onControlCollected := by
  unfold onControlCollected
  split
  · exact (Works.writeRegister _ Register.noConfusion rfl).bind fun _ => .pure _
  · refine device.works_sendNext.bind fun result => ?_
    dsimp only
    split
    · exact (Works.armOut _ _).bind fun _ => .pure _
    · exact .pure _

theorem works_onControlPacket (device : Device) (packet : List UInt8) :
    Works (device.onControlPacket packet) := by
  unfold onControlPacket
  split
  · exact (Works.armIn _ _).bind fun _ => .pure _
  · exact .pure _

theorem works_attend (device : Device) (packet : List UInt8) (endpoint : Endpoint) :
    Works (device.attend packet endpoint) := by
  unfold attend
  split
  · exact device.works_onControlCollected
  · exact device.works_onControlPacket packet
  · exact (Works.of_offering (device.drive.offering_onPacket ..)).bind fun _ =>
      (Works.armOut _ _).bind fun _ => .pure _
  · exact (Works.of_offering (device.drive.offering_onCollected ..)).bind fun _ => .pure _

theorem works_serve (device : Device) (endpoint : Endpoint) : Works (device.serve endpoint) := by
  rw [serve_eq]
  refine (Works.raisePin _).bind fun _ => Works.link.bind fun controller => ?_
  split
  · exact (Works.halt _).bind fun _ => (device.works_attend _ _).bind fun _ =>
      (Works.lowerPin _).bind fun _ => .pure _
  · exact (device.works_attend _ _).bind fun _ => (Works.lowerPin _).bind fun _ => .pure _

theorem works_serveAll (device : Device) (places : List Nat) : Works (device.serveAll places) := by
  induction places generalizing device with
  | nil => exact .pure _
  | cons index rest restInduction =>
    rw [serveAll]
    split
    · exact (device.works_serve _).bind restInduction
    · exact (Works.pure _).bind restInduction

theorem works_onBuffers (device : Device) (presented : Presented) : Works (device.onBuffers presented) := by
  unfold onBuffers onReturned
  split
  · exact .pure _
  · exact (Works.raisePin _).bind fun _ => (Works.raisePin _).bind fun _ =>
      (device.works_serveAll _).bind fun _ => (Works.writeRegister _ Register.noConfusion rfl).bind fun _ =>
        (Works.lowerPin _).bind fun _ => .pure _

theorem works_start (device : Device) : Works device.start := by
  unfold start
  split
  · exact (Works.armOut _ _).bind fun _ => (Works.armOut _ _).bind fun _ => .pure _
  · exact .pure _

theorem works_announce (drive : Drive boardCapacity) : Works (announce drive) :=
  (Works.of_offering (drive.offering_print _)).bind fun _ => (Works.of_offering (drive.offering_print _)).bind
    fun _ => .of_offering (drive.offering_print _)

theorem works_run (device : Device) : Works device.run := by
  unfold run
  split
  · refine (Works.of_offering device.drive.offering_poll).bind fun polled => ?_
    refine (Works.of_offering (offering_echo _)).bind fun _ => ?_
    dsimp only
    split
    · exact (works_announce _).bind fun _ => .pure _
    · exact .pure _
  · exact .pure _

/-! ## Requests and resets -/

/-- A request starts the packets of the control endpoint over. -/
theorem advances_takenUp (endpoint : Endpoint) (board : Board) (start : Controller) :
    Advances endpoint endpoint.isControl.toNat start (takenUp board start) := by
  let raised := (start.write (.register .pinRaise (bit board.lampPin))).write
    (.register .pinRaise (bit setupPin))
  have begins : Worked start raised :=
    (Worked.nothing.write _ Register.noConfusion rfl).write _ Register.noConfusion rfl
  have writes : (takenUp board start).writes = raised.writes ++ [.register .serialStatus (bit 17)] := rfl
  have restarted : Advances endpoint endpoint.isControl.toNat raised (takenUp board start) := by
    cases endpoint with
    | toHost endpoint =>
      cases endpoint with
      | control => exact .startOver writes (List.forall_mem_nil _) rfl
      | notify | console | disk => exact .silent writes (by decide) rfl
    | fromHost endpoint =>
      cases endpoint with
      | control => exact .startOver writes (List.forall_mem_nil _) rfl
      | console | disk => exact .silent writes (by decide) rfl
  have whole := (begins.advances endpoint).trans restarted
  rwa [Nat.zero_add] at whole

def withdrawals : List Write :=
  Endpoint.bulk.map fun endpoint => .buffer endpoint {} none

/-- A bus reset starts the packets of all other endpoints over. -/
theorem advances_wipedController (endpoint : Endpoint) (board : Board) (start : Controller) :
    Advances endpoint (!endpoint.isControl).toNat start (wipedController board start) := by
  let raised := (start.write (.register .pinRaise (bit board.lampPin))).write
    (.register .pinRaise (bit resetPin))
  let disarmed := Endpoint.bulk.foldl disarm (raised.write (.register .serialStatus (bit 19)))
  have begins : Worked start raised :=
    (Worked.nothing.write _ Register.noConfusion rfl).write _ Register.noConfusion rfl
  have writes : disarmed.writes = raised.writes ++ .register .serialStatus (bit 19) :: withdrawals := by
    simp only [disarmed, Endpoint.bulk, List.foldl_cons, List.foldl_nil, disarm, setControl, setNext, setSlot,
      Controller.write, List.append_assoc, List.cons_append, List.nil_append]
    rfl
  have restarted : Advances endpoint (!endpoint.isControl).toNat raised disarmed := by
    cases endpoint with
    | toHost endpoint =>
      cases endpoint with
      | control => exact .silent writes (by decide) rfl
      | notify | console | disk => exact .startOver writes (by decide) rfl
    | fromHost endpoint =>
      cases endpoint with
      | control => exact .silent writes (by decide) rfl
      | console | disk => exact .startOver writes (by decide) rfl
  have ends : Worked disarmed (wipedController board start) :=
    (Worked.nothing.write _ Register.noConfusion rfl).write _ Register.noConfusion rfl
  have whole := ((begins.advances endpoint).trans restarted).trans (ends.advances endpoint)
  rwa [Nat.zero_add, Nat.add_zero] at whole

end Device

def Presented.restarts (presented : Presented) (endpoint : Endpoint) : Bool :=
  if endpoint.isControl then presented.setup.isSome else presented.busReset

namespace Device

/-! ## Turns -/

theorem stepIf_advances (endpoint : Endpoint) (device : Device) (setup : Option (Octets 8))
    (start : Controller) :
    (device.stepIf onSetup setup).Yields start fun _ after =>
      Advances endpoint (endpoint.isControl && setup.isSome).toNat start after := by
  cases setup with
  | none =>
    rw [Option.isSome_none, Bool.and_false]
    exact Exchange.yields_pure _ _ (Worked.nothing.advances endpoint)
  | some bytes =>
    rw [Option.isSome_some, Bool.and_true]
    refine (device.onSetup_meets_acted bytes start).yields ?_
    rintro next after events ⟨-, rfl⟩
    have answers : Worked (takenUp device.board start) _ :=
      (Worked.nothing.acted (device.dropped.answered (.ofBytes bytes)).2).write (bit setupPin)
        (Register.noConfusion : Register.pinLower ≠ _) rfl
    exact (advances_takenUp endpoint device.board start).trans (answers.advances endpoint)

theorem settle_advances (endpoint : Endpoint) (device : Device) (presented : Presented) (start : Controller) :
    (device.settle presented).Yields start fun _ after =>
      Advances endpoint (!endpoint.isControl && presented.busReset).toNat start after := by
  unfold settle
  cases presented.busReset with
  | true =>
    rw [Bool.and_true]
    refine (device.onBusReset_meets start).yields ?_
    rintro next after events ⟨-, rfl⟩
    exact advances_wipedController endpoint device.board start
  | false =>
    rw [Bool.and_false]
    exact Exchange.yields_pure _ _ (Worked.nothing.advances endpoint)

theorem advances_handed (endpoint : Endpoint) (controller : Controller) (presented : Presented) :
    Advances endpoint 0 controller (handed controller presented) := by
  refine ⟨fun inStep => ?_, ?_⟩
  · unfold handed
    induction presented.returned generalizing controller with
    | nil => exact inStep
    | cons buffer rest restInduction => exact restInduction _ (inStep.handBack buffer)
  · rw [writes_handed]
    rfl

theorem turn_advances (endpoint : Endpoint) (device : Device) (presented : Presented)
    (controller : Controller) :
    (device.turn presented).Yields controller fun _ after =>
      Advances endpoint (presented.restarts endpoint).toNat controller after := by
  refine Exchange.Meets.thenYields ((Exchange.meets_modifyLink ..).mpr ?_)
  rw [handle_eq]
  refine Exchange.Yields.bind ((stepIf_advances endpoint device presented.setup _).mono ?_)
  intro asked noticed takes
  unfold proceed
  refine Exchange.Yields.bind fun served _ => ?_
  refine Exchange.Yields.bind ((settle_advances endpoint served presented _).mono ?_)
  intro settled quiet resets
  have rest : Works (settled.start >>= fun started => started.run >>= fun done => do
      lowerPin device.board.lampPin
      return done) :=
    settled.works_start.bind fun started => started.works_run.bind fun _ =>
      (Works.lowerPin _).bind fun _ => .pure _
  intro done _
  have whole := (((advances_handed endpoint controller presented).trans takes).trans
    ((asked.works_onBuffers presented noticed).advances endpoint)).trans
      (resets.trans ((rest quiet).advances endpoint))
  have count : 0 + (endpoint.isControl && presented.setup.isSome).toNat + 0 +
      ((!endpoint.isControl && presented.busReset).toNat + 0) = (presented.restarts endpoint).toNat := by
    unfold Presented.restarts
    cases endpoint.isControl <;> simp
  rw [count] at whole
  exact whole

/-! ## Runs -/

theorem target_of_mem_performAll {accesses : List Access} {contents : Register → UInt32} {made : Write}
    (present : made ∈ performAll contents accesses) : made.target ∈ accesses.map Access.register := by
  induction accesses generalizing contents with
  | nil => cases present
  | cons access rest restInduction =>
    rcases List.mem_cons.mp present with rfl | later
    · exact .head _
    · exact .tail _ (restInduction later)

/-- Bring-up arms no endpoint and marks nothing. -/
theorem silent_bringUpWrites (endpoint : Endpoint) (board : Board) (resets : UInt32) :
    ∀ made ∈ bringUpWrites board resets, made.restarts endpoint = false ∧ made.arms endpoint = false := by
  intro made present
  refine ⟨?_, ?_⟩
  · rw [Write.restarts, decide_eq_false_iff_not]
    rintro rfl
    have accessed : Register.serialStatus ∈ (bringUpAccesses board).map Access.register :=
      target_of_mem_performAll present
    revert accessed
    cases board <;> decide
  · rw [Write.arms]
    by_cases place : made.target = .bufferControl endpoint.index
    · have cleared := idle_bringUpWrites board resets made present (by rw [place]; rfl)
      rw [cleared, Bool.and_eq_false_iff]
      exact .inr (by decide)
    · rw [decide_eq_false place, Bool.false_and]

theorem powerUp_inStep (endpoint : Endpoint) (board : Board) (resets : UInt32) :
    InStep endpoint (.powerUp (bringUpWrites board resets)) := by
  obtain ⟨timely, due⟩ := timely_of_silent (silent_bringUpWrites endpoint board resets) false
  exact ⟨timely, due.symm⟩

theorem turns_advance (endpoint : Endpoint) {device : Device} {controller : Controller}
    {later : List Presented} {last : Device × Controller} (went : device.turns controller later = some last) :
    Advances endpoint (later.countP fun presented => presented.restarts endpoint) controller last.2 := by
  induction later generalizing device controller with
  | nil =>
    cases went
    exact Worked.nothing.advances endpoint
  | cons presented later laterInduction =>
    obtain ⟨next, turned, wentOn⟩ := of_turns_cons went
    have first := turn_advances endpoint device presented controller next turned
    have whole := first.trans (laterInduction wentOn)
    have count : (presented :: later).countP (fun presented => presented.restarts endpoint) =
        (presented.restarts endpoint).toNat + later.countP fun presented => presented.restarts endpoint := by
      rw [List.countP_cons, Nat.add_comm]
      cases presented.restarts endpoint <;> rfl
    rw [count]
    exact whole

/-- Wherever the packets of an endpoint start over, at power-up or at a write that marks the occasion, the
writes that arm it from there to the next mark are of alternating kinds, beginning with DATA1 on the control
endpoint and with DATA0 on the others; the kind the controller will use next goes on with them.  There is one
mark for each turn that brings the occasion and no other. -/
theorem toggles_in_step {board : Board} {device : Device} {resets : UInt32} {history : List Presented}
    {last : Device × Controller}
    (went : device.turns (.powerUp (bringUpWrites board resets)) history = some last) (endpoint : Endpoint) :
    (∀ earlier window later, last.2.writes = earlier ++ window ++ later →
      earlier.getLast? = some endpoint.restart ∨ earlier = [] ∧ endpoint.isControl = false →
      (∀ made ∈ window, made.restarts endpoint = false) →
        kinds endpoint window = alternating endpoint.firstData1 (kinds endpoint window).length ∧
        (later = [] → kinds endpoint window ++ [(last.2.slot endpoint).nextData1] =
          alternating endpoint.firstData1 ((kinds endpoint window).length + 1))) ∧
    last.2.writes.countP (Write.restarts endpoint) =
      history.countP fun presented => presented.restarts endpoint := by
  have advances := turns_advance endpoint went
  have silent := silent_bringUpWrites endpoint board resets
  obtain ⟨timely, next⟩ := advances.inStep (powerUp_inStep endpoint board resets)
  refine ⟨?_, ?_⟩
  · intro earlier window later writes begins unmarked
    have first : dueAfter endpoint false earlier = endpoint.firstData1 := by
      rcases begins with marked | ⟨rfl, bulk⟩
      · obtain ⟨before, rfl⟩ := List.getLast?_eq_some_iff.mp marked
        rw [dueAfter, List.foldl_append]
        exact Write.nextDue_restart ..
      · exact bulk.symm
    rw [writes, timely_append, timely_append, first] at timely
    have turned := timely.1.2.kinds unmarked
    refine ⟨?_, ?_⟩
    · have front := congrArg List.dropLast turned
      rwa [List.dropLast_concat, dropLast_alternating] at front
    · rintro rfl
      have due : dueAfter endpoint false last.2.writes = dueAfter endpoint endpoint.firstData1 window := by
        rw [writes, List.append_nil, dueAfter, List.foldl_append]
        exact congrArg (dueAfter endpoint · window) first
      rw [next, due]
      exact turned
  · have none : (Controller.powerUp (bringUpWrites board resets)).writes.countP (Write.restarts endpoint) = 0 :=
      List.countP_eq_zero.mpr fun made present => Bool.eq_false_iff.mp (silent made present).1
    rw [advances.marks, none, Nat.zero_add]

/-- The host reads a block and collects two packets of it.  The three that have been handed over are of the
even kind, the odd kind and the even kind. -/
theorem toggles_in_step_reading :
    ∃ last, poweredUp [configuring, commanding (.reading 7 65 1), collecting, collecting] = some last ∧
      kinds (.toHost .disk) last.2.writes = [false, true, false] ∧
      (last.2.slot (.toHost .disk)).nextData1 = true := by
  have ran : (poweredUp [configuring, commanding (.reading 7 65 1), collecting, collecting]).any (fun last =>
      decide ((kinds (.toHost .disk) last.2.writes).length = 3)) = true := by
    decide +kernel
  simp only [Option.any_eq_true, decide_eq_true_eq] at ran
  obtain ⟨last, went, count⟩ := ran
  obtain ⟨device, -, wentOn⟩ := Option.bind_eq_some_iff.mp went
  obtain ⟨inStep, marks⟩ := toggles_in_step wentOn (.toHost .disk)
  have unmarked : ∀ made ∈ last.2.writes, made.restarts (.toHost .disk) = false := fun made present =>
    Bool.eq_false_iff.mpr (List.countP_eq_zero.mp (marks.trans (by decide)) made present)
  obtain ⟨alternate, due⟩ := inStep [] last.2.writes [] (List.append_nil _).symm (.inr ⟨rfl, rfl⟩) unmarked
  rw [count] at alternate due
  have next := due rfl
  rw [alternate] at next
  exact ⟨last, went, alternate, (List.cons.inj (List.append_cancel_left next)).1⟩

end Device

end ScriptDrive
