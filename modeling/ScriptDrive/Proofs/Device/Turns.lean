import ScriptDrive.Proofs.Device.Returned

/-!
# Whole turns

A turn halts exactly when a buffer of the control endpoint is found to be held, in the state that the
request of the turn has left behind: `turn_halts` and `turn_meets`.  Otherwise its acts are those of the
request, of the control endpoint and of a bus reset, in this order, and what is left of a control transfer
afterwards follows from the same three.
-/

set_option autoImplicit false

namespace ScriptDrive

def Unfinished.afterServing (left : Unfinished) (presented : Presented) : Unfinished :=
  let collected := if presented.Returns (.toHost .control) then left.collected.1 else left
  let served := if presented.Returns (.fromHost .control) then { collected with lineCodingDue := false }
    else collected
  if presented.busReset = true then {} else served

namespace Device

def asked (device : Device) : Option (Octets 8) → Device × Option ControlAct
  | some bytes => device.dropped.answered (.ofBytes bytes)
  | none => (device, none)

/-! ## Before and behind the buffers -/

theorem sound_requested {device : Device} (sound : device.Sound) (code : UInt8) :
    Sound { device with drive := (device.drive.requested code).1 } := by
  unfold Drive.requested
  split
  · exact sound
  · exact ⟨⟨.idle rfl, sound.drive.file⟩, sound.identity⟩
  · exact sound

theorem sound_answered {device : Device} (sound : device.Sound) (setup : Setup) :
    (device.answered setup).1.Sound := by
  have of_drive {next : Device} (driveIs : next.drive = device.drive) : next.Sound :=
    sound.of_drive driveIs
  unfold answered
  cases setup.asks with
  | disk code => exact sound_requested sound code
  | getDescriptor name => cases name <;> exact of_drive rfl
  | setAddress | setConfiguration | otherCommand | otherQuery | setLineCoding | getLineCoding
  | setControlLineState | foreign => exact of_drive rfl

theorem sound_asked {device : Device} (sound : device.Sound) (setup : Option (Octets 8)) :
    (device.asked setup).1.Sound := by
  cases setup with
  | none => exact sound
  | some bytes =>
    have droppedSound : device.dropped.Sound := sound.of_drive rfl
    exact sound_answered droppedSound (.ofBytes bytes)

theorem stepIf_meets_asked (device : Device) (setup : Option (Octets 8)) (start : Controller) :
    (device.stepIf onSetup setup).Meets start fun next after _ =>
      next = (device.asked setup).1 ∧ start.Did (device.asked setup).2 after := by
  cases setup with
  | none =>
    exact (Exchange.meets_pure ..).mpr
      ⟨rfl, fun _ => rfl, (List.append_nil _).symm, .refl start⟩
  | some bytes => exact device.onSetup_meets bytes start

theorem acts_disarm (controller : Controller) (endpoint : Endpoint) :
    (controller.disarm endpoint).acts = controller.acts := by
  rw [Controller.disarm, Controller.acts_setControl, Controller.acts_setNext]
  cases endpoint with
  | toHost endpoint => cases endpoint <;> exact List.append_nil _
  | fromHost endpoint => cases endpoint <;> exact List.append_nil _

theorem acts_disarmAll (endpoints : List Endpoint) (controller : Controller) :
    (endpoints.foldl Controller.disarm controller).acts = controller.acts := by
  induction endpoints generalizing controller with
  | nil => rfl
  | cons endpoint rest restInduction =>
    rw [List.foldl_cons, restInduction, acts_disarm]

/-- The device after a bus reset.  What the host wrote or typed stays. -/
def wiped (device : Device) : Device :=
  { device with
    drive := { device.drive with storage := device.drive.storage.reset }
    newAddress := none
    configured := false
    started := false
    stage := {}
    lineCodingDue := false }

def wipedController (board : Board) (controller : Controller) : Controller :=
  let raised := (controller.write (.register .pinRaise (bit board.lampPin))).write
    (.register .pinRaise (bit resetPin))
  let disarmed := Endpoint.bulk.foldl Controller.disarm
    (raised.write (.register .serialStatus (bit 19)))
  (disarmed.write (.register .deviceAddress 0)).write (.register .pinLower (bit resetPin))

theorem onBusReset_meets (device : Device) (controller : Controller) :
    device.onBusReset.Meets controller fun next after _ =>
      next = device.wiped ∧ after = wipedController device.board controller := by
  simp only [onBusReset, Exchange.meets_bind, meets_raisePin, meets_writeRegister]
  refine (device.drive.reset_meets _).mono ?_
  rintro drive after events ⟨rfl, rfl⟩
  simp only [disarmAll, Exchange.meets_modifyLink, Exchange.meets_pure, meets_lowerPin]
  exact ⟨rfl, rfl⟩

theorem sound_wiped {device : Device} (sound : device.Sound) : device.wiped.Sound :=
  ⟨⟨.idle rfl, sound.drive.file⟩, sound.identity⟩

theorem acts_wipedController (board : Board) (controller : Controller) :
    (wipedController board controller).acts = controller.acts ++ [.address 0] := by
  unfold wipedController
  dsimp only
  rw [Controller.acts_write_of_none _ rfl, Controller.acts_write, acts_disarmAll,
    Controller.acts_write_of_none _ rfl, Controller.acts_write_of_none _ rfl,
    Controller.acts_write_of_none _ rfl]
  rfl

def receiving (controller : Controller) : Controller :=
  (controller.armOut .console maxPacket).armOut .disk maxPacket

theorem start_meets (device : Device) (controller : Controller) :
    device.start.Meets controller fun next after _ =>
      if device.configured && !device.started then
        next = { device with started := true } ∧ after = receiving controller
      else
        next = device ∧ after = controller := by
  unfold start
  split
  · simp only [Exchange.meets_bind, meets_armOut _ _ _ (Nat.le_refl maxPacket), Exchange.meets_pure]
    exact ⟨trivial, rfl⟩
  · exact (Exchange.meets_pure ..).mpr ⟨rfl, rfl⟩

theorem controlSide_receiving (controller : Controller) :
    (receiving controller).controlSide = controller.controlSide := by
  rw [receiving, Controller.controlSide_armOut _ _ OutEndpoint.noConfusion,
    Controller.controlSide_armOut _ _ OutEndpoint.noConfusion]

/-! ## The drive's own work -/

theorem poll_meets {device : Device} (sound : device.Sound) (start : Controller) :
    device.drive.poll.Meets start fun result after _ =>
      Sound { device with drive := result.1 } ∧ result.2 = device.drive.queue.drain.1 ∧
        Controller.SentOn .disk start after := by
  have offers : Offered InEndpoint.disk.number start (device.drive.poll start).link := by
    rw [← sound.diskIn]
    exact device.drive.offering_poll.offered start
  refine ((Drive.polled_meets sound.drive.transfer start).withLink offers.sentOn).mono ?_
  rintro result after events ⟨⟨serves, inputIs⟩, sent⟩
  have does : device.drive.Does result.1 events .poll := .served (fun _ => Operation.noConfusion) serves
  exact ⟨sound.withDrive does, inputIs, sent⟩

/-- All that was queued fits one packet. -/
theorem echo_meets (queue : ConsoleQueue consoleCapacity) (start : Controller) :
    (echo queue.drain.1.flatten).Meets start fun _ after _ => Controller.SentOn .console start after := by
  have short : queue.drain.1.flatten.length ≤ maxPacket := by
    rw [queue.flatten_drain]
    exact queue.length_le
  unfold echo
  split
  · simp only [Exchange.meets_bind, Exchange.meets_lift, Packet.ofBytes_of_le short,
      Except.ok.injEq, exists_eq_left']
    have offers : Offered InEndpoint.console.number start
        (sendPolling boardEndpoints.consoleIn queue.drain.1.flatten consoleTries start).link :=
      (offering_sendPolling _ _ _).offered start
    refine ((sendPolling_meets _ _ _ start).withLink offers.sentOn).mono ?_
    rintro refusal after events ⟨-, sent⟩
    exact (Exchange.meets_pure ..).mpr sent
  · exact (Exchange.meets_pure ..).mpr (.refl start)

theorem Sound.consoleIn {device : Device} (sound : device.Sound) :
    device.drive.identity.endpoints.consoleIn = InEndpoint.console.number := by
  rw [sound.identity]
  rfl

theorem print_meets {device : Device} (sound : device.Sound) (text : String) (start : Controller) :
    (device.drive.print text).Meets start fun _ after _ => Controller.SentOn .console start after := by
  have offers : Offered InEndpoint.console.number start (device.drive.print text start).link := by
    rw [← sound.consoleIn]
    exact (device.drive.offering_print text).offered start
  refine ((Drive.printPackets_meets _ _ start).withLink offers.sentOn).mono ?_
  rintro _ after events ⟨-, sent⟩
  exact sent

theorem announce_meets {device : Device} (sound : device.Sound) (start : Controller) :
    (announce device.drive).Meets start fun _ after _ => Controller.SentOn .console start after := by
  rw [announce, Exchange.meets_bind]
  refine (print_meets sound _ start).mono ?_
  intro _ first _ sentFirst
  rw [Exchange.meets_bind]
  refine (print_meets sound _ first).mono ?_
  intro _ second _ sentSecond
  refine (print_meets sound _ second).mono ?_
  intro _ third _ sentThird
  exact (sentFirst.trans sentSecond).trans sentThird

theorem Sound.takeChanged {device : Device} {drive : Drive boardCapacity}
    (sound : Sound { device with drive := drive }) :
    Sound { device with drive := drive.takeChanged.1 } :=
  ⟨⟨sound.drive.transfer, sound.drive.file.size_le, sound.drive.file.cluster_ne_zero⟩, sound.identity⟩

/-- The drive's own work sends packets to the host and makes no room for any. -/
theorem run_meets {device : Device} (sound : device.Sound) (start : Controller) :
    device.run.Meets start fun next after _ =>
      device.Drove start next after ∧
        ∀ receiver : OutEndpoint, after.holds (.fromHost receiver) = start.holds (.fromHost receiver) := by
  unfold run
  split
  · rw [Exchange.meets_bind]
    refine (poll_meets sound start).mono ?_
    rintro ⟨drive, input⟩ polled events ⟨soundPolled, rfl, sentPolled⟩
    dsimp only
    rw [Exchange.meets_bind]
    refine (echo_meets device.drive.queue polled).mono ?_
    intro _ echoed _ sentEcho
    have soundClean : Sound { device with drive := drive.takeChanged.1 } := soundPolled.takeChanged
    have side : echoed.controlSide = start.controlSide :=
      (sentEcho.controlSide InEndpoint.noConfusion).trans
        (sentPolled.controlSide InEndpoint.noConfusion)
    have owned : start.Owned echoed := sentPolled.owned.trans sentEcho.owned
    have holds (receiver : OutEndpoint) :
        echoed.holds (.fromHost receiver) = start.holds (.fromHost receiver) :=
      (sentEcho.holds Endpoint.noConfusion).trans (sentPolled.holds Endpoint.noConfusion)
    split
    · rw [Exchange.meets_bind]
      refine (announce_meets soundClean echoed).mono ?_
      intro _ after _ sent
      rw [Exchange.meets_pure]
      exact ⟨⟨soundClean, rfl, (sent.controlSide InEndpoint.noConfusion).trans side,
        owned.trans sent.owned⟩,
        fun receiver => (sent.holds Endpoint.noConfusion).trans (holds receiver)⟩
    · exact (Exchange.meets_pure ..).mpr ⟨⟨soundClean, rfl, side, owned⟩, holds⟩
  · exact (Exchange.meets_pure ..).mpr ⟨⟨sound, rfl, rfl, .refl start⟩, fun _ => rfl⟩

/-! ## The turn -/

theorem mem_statusPlaces {presented : Presented} {endpoint : Endpoint} :
    endpoint.index ∈ statusPlaces presented.returned ↔ presented.Returns endpoint := by
  simp only [statusPlaces, List.mem_filter, List.mem_range, List.any_eq_true, beq_iff_eq,
    endpoint.index_lt, true_and, Presented.Returns]

theorem not_returns_of_isEmpty {presented : Presented}
    (none : (statusPlaces presented.returned).isEmpty = true) (endpoint : Endpoint) :
    ¬ presented.Returns endpoint := by
  intro returns
  have found := mem_statusPlaces.mpr returns
  rw [List.isEmpty_iff.mp none] at found
  cases found

def onBuffers (device : Device) (presented : Presented) : Exchange Controller Device :=
  if (statusPlaces presented.returned).isEmpty then
    pure device
  else
    device.onReturned (statusPlaces presented.returned)

/-- What the buffers of a turn come to is what serving them comes to, between the writes that begin and
end it. -/
theorem onBuffers_yields_serveAll (device : Device) (presented : Presented) (start : Controller)
    {post : Device → Controller → Prop}
    (nothing : (∀ endpoint, ¬ presented.Returns endpoint) → post device start)
    (served : (device.serveAll (statusPlaces presented.returned)).Yields
      ((start.write (.register .pinRaise (bit device.board.lampPin))).write
        (.register .pinRaise (bit bufferPin))) fun next after =>
      post next ((after.write (.register .bufferStatus
        (statusWord (statusPlaces presented.returned)))).write (.register .pinLower (bit bufferPin)))) :
    (device.onBuffers presented).Yields start post := by
  unfold onBuffers
  split
  · rename_i none
    exact Exchange.yields_pure _ _ (nothing (not_returns_of_isEmpty none))
  · unfold onReturned
    refine Exchange.Meets.thenYields ((meets_raisePin ..).mpr
      (Exchange.Meets.thenYields ((meets_raisePin ..).mpr (Exchange.Yields.bind (served.mono ?_)))))
    intro next after holds
    exact Exchange.Meets.thenYields ((meets_writeRegister ..).mpr
      (Exchange.Meets.thenYields ((meets_lowerPin ..).mpr (Exchange.yields_pure _ _ holds))))

theorem onBuffers_meets {asked : Device} (sound : asked.Sound) {presented : Presented}
    {start : Controller} (clear : ¬ asked.Blocked presented start)
    (free : ∀ endpoint : Endpoint, 2 ≤ endpoint.index → presented.Returns endpoint →
      start.holds endpoint = false) :
    (asked.onBuffers presented).Meets start fun next after _ =>
      next.Sound ∧
        (∃ packet, next = { asked.controlServed presented packet with drive := next.drive }) ∧
        after.acts = start.acts ++ asked.controlActs presented := by
  unfold onBuffers
  split
  · rename_i none
    have notIn := not_returns_of_isEmpty none (.toHost .control)
    have notOut := not_returns_of_isEmpty none (.fromHost .control)
    have servedIs (packet : List UInt8) : asked.controlServed presented packet = asked := by
      rw [controlServed, if_neg notOut, controlCollected, if_neg notIn]
    refine (Exchange.meets_pure ..).mpr ⟨sound, ⟨[], ?_⟩, ?_⟩
    · rw [servedIs]
    · simp only [controlActs, notIn, notOut, if_false, false_and, List.append_nil]
  · simp only [onReturned, Exchange.meets_bind, meets_raisePin]
    refine (serveReturned_meets sound ?_ ?_).mono ?_
    · exact clear
    · exact free
    rintro next after events ⟨soundNext, nextIs, acts⟩
    simp only [meets_writeRegister, meets_lowerPin, Exchange.meets_pure]
    refine ⟨soundNext, nextIs, ?_⟩
    rw [Controller.acts_write_of_none _ rfl, Controller.acts_write_of_none _ rfl, acts,
      Controller.acts_write_of_none _ rfl, Controller.acts_write_of_none _ rfl]

theorem onBuffers_halts {asked : Device} {presented : Presented} {start : Controller}
    (blocked : asked.Blocked presented start) :
    (asked.onBuffers presented).Halts start .bufferHeld := by
  unfold onBuffers
  split
  · rename_i none
    exact absurd (blocked.elim And.left fun second =>
      absurd second.1 (not_returns_of_isEmpty none _)) (not_returns_of_isEmpty none _)
  · unfold onReturned
    refine Exchange.Meets.halts ((meets_raisePin ..).mpr (Exchange.Meets.halts
      ((meets_raisePin ..).mpr (Exchange.Halts.bind (serveReturned_halts ?_) _))))
    exact blocked

def turnActs (device : Device) (presented : Presented) : List ControlAct :=
  (device.asked presented.setup).2.toList ++
    ((device.asked presented.setup).1.controlActs presented ++
      if presented.busReset = true then [.address 0] else [])

theorem unfinished_controlServed (asked : Device) (presented : Presented) (packet : List UInt8) :
    (if presented.busReset = true then {} else (asked.controlServed presented packet).unfinished) =
      asked.unfinished.afterServing presented := by
  have collected : (asked.controlCollected presented).unfinished =
      if presented.Returns (.toHost .control) then asked.unfinished.collected.1
      else asked.unfinished := by
    unfold controlCollected
    split <;> rfl
  unfold controlServed Unfinished.afterServing
  dsimp only
  rw [← collected]
  congr 1
  split
  · exact unfinished_tookControl _ _
  · rfl

def settle (device : Device) (presented : Presented) : Exchange Controller Device :=
  if presented.busReset then device.onBusReset else pure device

def proceed (asked : Device) (presented : Presented) (board : Board) : Exchange Controller Device :=
  asked.onBuffers presented >>= fun served =>
    served.settle presented >>= fun settled =>
      settled.start >>= fun started =>
        started.run >>= fun done => do
          lowerPin board.lampPin
          return done

theorem handle_eq (device : Device) (presented : Presented) :
    device.handle presented =
      device.stepIf onSetup presented.setup >>= fun asked =>
        asked.proceed presented device.board := by
  unfold handle
  refine congrArg (device.stepIf onSetup presented.setup >>= ·) (funext fun asked => ?_)
  unfold proceed onBuffers settle
  dsimp only
  split
  · refine congrArg (pure asked >>= ·) (funext fun served => ?_)
    split <;> rfl
  · refine congrArg (asked.onReturned _ >>= ·) (funext fun served => ?_)
    split <;> rfl

theorem settle_meets {served : Device} (sound : served.Sound) (presented : Presented)
    (start : Controller) :
    (served.settle presented).Meets start fun next after _ =>
      next.Sound ∧
        next.unfinished = (if presented.busReset = true then {} else served.unfinished) ∧
        after.acts = start.acts ++ if presented.busReset = true then [.address 0] else [] := by
  unfold settle
  split
  · refine (served.onBusReset_meets start).mono ?_
    rintro next after events ⟨rfl, rfl⟩
    exact ⟨sound_wiped sound, rfl, acts_wipedController ..⟩
  · rw [Exchange.meets_pure, List.append_nil]
    exact ⟨sound, rfl, rfl⟩

/-- The controller once it handed back the buffers of a turn. -/
def handed (controller : Controller) (presented : Presented) : Controller :=
  presented.returned.foldl Controller.handBack controller

theorem writes_handed (controller : Controller) (presented : Presented) :
    (handed controller presented).writes = controller.writes := by
  unfold handed
  induction presented.returned generalizing controller with
  | nil => rfl
  | cons buffer rest restInduction =>
    rw [List.foldl_cons, restInduction, Controller.writes_handBack]

theorem acts_handed (controller : Controller) (presented : Presented) :
    (handed controller presented).acts = controller.acts := by
  rw [Controller.acts, writes_handed]
  rfl

theorem holds_handed {controller : Controller} {presented : Presented}
    (released : presented.Released) {endpoint : Endpoint} (returns : presented.Returns endpoint) :
    (handed controller presented).holds endpoint = false := by
  refine Bool.eq_false_iff.mpr fun held => ?_
  obtain ⟨buffer, present, place⟩ := returns
  exact ((controller.holds_handBackAll endpoint released).mp held).1 buffer present place

/-- The controller when the buffers of a turn are looked at, as far as it matters to them. -/
def lookedAt (device : Device) (presented : Presented) (controller : Controller) : Controller :=
  (handed controller presented).acted (device.asked presented.setup).2

theorem proceed_meets {asked : Device} (sound : asked.Sound) {presented : Presented}
    {start : Controller} (clear : ¬ asked.Blocked presented start)
    (free : ∀ endpoint : Endpoint, 2 ≤ endpoint.index → presented.Returns endpoint →
      start.holds endpoint = false) (board : Board) :
    (asked.proceed presented board).Meets start fun next after _ =>
      next.Sound ∧
        next.unfinished = asked.unfinished.afterServing presented ∧
        after.acts = start.acts ++ (asked.controlActs presented ++
          if presented.busReset = true then [.address 0] else []) := by
  simp only [proceed, Exchange.meets_bind]
  refine (onBuffers_meets sound clear free).mono ?_
  rintro served between later ⟨soundServed, ⟨packet, servedIs⟩, actsServed⟩
  refine (settle_meets soundServed presented between).mono ?_
  rintro settled quiet more ⟨soundSettled, leftSettled, actsSettled⟩
  refine (settled.start_meets quiet).mono ?_
  intro begun armed more begins
  obtain ⟨soundBegun, leftBegun, actsBegun⟩ : begun.Sound ∧
      begun.unfinished = settled.unfinished ∧ armed.acts = quiet.acts := by
    split at begins
    · obtain ⟨rfl, rfl⟩ := begins
      exact ⟨soundSettled.of_drive rfl, rfl, Controller.acts_of_controlSide (controlSide_receiving quiet)⟩
    · obtain ⟨rfl, rfl⟩ := begins
      exact ⟨soundSettled, rfl, rfl⟩
  refine (run_meets soundBegun armed).mono ?_
  rintro done after more ⟨drove, -⟩
  have leftDone : done.unfinished = begun.unfinished := by
    rw [drove.rest]
    rfl
  simp only [meets_lowerPin, Exchange.meets_pure]
  refine ⟨drove.sound, ?_, ?_⟩
  · have leftServed : served.unfinished = (asked.controlServed presented packet).unfinished := by
      rw [servedIs]
      rfl
    rw [leftDone, leftBegun, leftSettled, leftServed, unfinished_controlServed]
  · rw [Controller.acts_write_of_none _ rfl, drove.acts, actsBegun, actsSettled, actsServed,
      List.append_assoc]

theorem turn_meets {device : Device} (sound : device.Sound) {presented : Presented}
    (released : presented.Released) {controller : Controller}
    (clear : ¬ (device.asked presented.setup).1.Blocked presented
      (device.lookedAt presented controller)) :
    (device.turn presented).Meets controller fun next after _ =>
      next.Sound ∧
        next.unfinished = (device.asked presented.setup).1.unfinished.afterServing presented ∧
        after.acts = controller.acts ++ device.turnActs presented := by
  simp only [turn, handle_eq, Exchange.meets_bind, Exchange.meets_modifyLink]
  refine (device.stepIf_meets_asked presented.setup (handed controller presented)).mono ?_
  rintro asked noticed events ⟨rfl, did⟩
  have clearHere : ¬ (device.asked presented.setup).1.Blocked presented noticed := by
    simp only [Blocked, did.holds]
    exact clear
  have free (endpoint : Endpoint) (bulk : 2 ≤ endpoint.index)
      (returns : presented.Returns endpoint) : noticed.holds endpoint = false := by
    rw [did.holds_of_ne (apart_control_in bulk) (apart_control_out bulk)]
    exact holds_handed released returns
  refine (proceed_meets (sound_asked sound presented.setup) clearHere free device.board).mono ?_
  rintro next after later ⟨soundNext, leftNext, acts⟩
  refine ⟨soundNext, leftNext, ?_⟩
  rw [acts, did.acts, acts_handed, turnActs, List.append_assoc]

theorem turn_halts (device : Device) {presented : Presented} {controller : Controller}
    (blocked : (device.asked presented.setup).1.Blocked presented
      (device.lookedAt presented controller)) :
    (device.turn presented).Halts controller .bufferHeld := by
  refine Exchange.Meets.halts ((Exchange.meets_modifyLink ..).mpr ?_)
  rw [handle_eq]
  refine ((device.stepIf_meets_asked presented.setup (handed controller presented)).mono ?_).halts
  rintro asked noticed events ⟨rfl, did⟩
  refine (onBuffers_halts ?_).bind _
  simp only [Blocked, did.holds]
  exact blocked

theorem not_blocked_of_turn {device next : Device} {presented : Presented} {controller : Controller}
    (turned : (device.turn presented controller).result = .ok next) :
    ¬ (device.asked presented.setup).1.Blocked presented (device.lookedAt presented controller) := by
  intro blocked
  have halted := device.turn_halts blocked
  rw [Exchange.Halts, turned] at halted
  cases halted

/-- What is left of a control transfer by a turn that does not halt, and its acts. -/
theorem turn_of_ok {device next : Device} (sound : device.Sound) {presented : Presented}
    (released : presented.Released) {controller : Controller}
    (turned : (device.turn presented controller).result = .ok next) :
    next.Sound ∧
      next.unfinished = (device.asked presented.setup).1.unfinished.afterServing presented ∧
      (device.turn presented controller).link.acts = controller.acts ++ device.turnActs presented := by
  obtain ⟨other, result, holds⟩ := turn_meets sound released (not_blocked_of_turn turned)
  rw [turned] at result
  cases result
  exact holds

end Device

end ScriptDrive
