import ScriptDrive.Proofs.Device.Runs

/-!
# Who owns the bulk buffers

A buffer that the device has armed is the controller's until the controller hands it back.  In the runs
where it hands back only what it holds, no turn arms a bulk buffer that is held, and after each turn there
is room for what the host sends exactly if the device is configured: `Fair.owned`.

The parts of a turn are followed whatever is handed back, and whether the turn goes on to halt or not.
`Carried` is what serving the buffers comes to, and `Noticed` what all comes to that happens before a bus
reset is handled.
-/

set_option autoImplicit false

namespace ScriptDrive

def Presented.configures (presented : Presented) : Bool :=
  presented.setup.any fun bytes => (Setup.ofBytes bytes).asks = .setConfiguration

/-- The controller hands back only buffers that it holds, and lets go of them. -/
def Presented.Armed (presented : Presented) (controller : Controller) : Prop :=
  ∀ buffer ∈ presented.returned, buffer.stuck = false ∧
    ∃ endpoint : Endpoint, endpoint.index = buffer.index ∧ controller.holds endpoint = true

theorem Presented.Armed.released {presented : Presented} {controller : Controller}
    (armed : presented.Armed controller) : presented.Released :=
  fun buffer present => (armed buffer present).1

/-- Once its buffer has been served, an endpoint from the host is held if it was when the turn began. -/
theorem Presented.Armed.holds_again {presented : Presented} {controller : Controller}
    (armed : presented.Armed controller) (endpoint : Endpoint) :
    (decide (presented.Returns endpoint) || (Device.handed controller presented).holds endpoint) =
      controller.holds endpoint := by
  by_cases returns : presented.Returns endpoint
  · obtain ⟨buffer, present, place⟩ := returns
    obtain ⟨-, other, otherPlace, held⟩ := armed buffer present
    have same : other = endpoint := Endpoint.index_injective (otherPlace.trans place)
    rw [decide_eq_true ⟨buffer, present, place⟩, Bool.true_or, ← held, same]
  · rw [decide_eq_false returns, Bool.false_or]
    refine Bool.eq_iff_iff.mpr ((controller.holds_handBackAll endpoint armed.released).trans ?_)
    exact and_iff_right fun buffer present place => returns ⟨buffer, present, place⟩


namespace Device

variable {device : Device}

structure Carried (device : Device) (start : Controller) (next : Device) (after : Controller) : Prop where
  sound : next.Sound
  board : next.board = device.board
  configured : next.configured = device.configured
  started : next.started = device.started
  owned : start.Owned after

theorem Carried.refl (sound : device.Sound) (start : Controller) : device.Carried start device start :=
  ⟨sound, rfl, rfl, rfl, .refl start⟩

theorem Carried.trans {middle next : Device} {start between after : Controller}
    (front : device.Carried start middle between) (back : middle.Carried between next after) :
    device.Carried start next after :=
  ⟨back.sound, back.board.trans front.board, back.configured.trans front.configured,
    back.started.trans front.started, front.owned.trans back.owned⟩

theorem Drove.carried {next : Device} {start after : Controller}
    (drove : device.Drove start next after) : device.Carried start next after := by
  have rest := drove.rest
  refine ⟨drove.sound, ?_, ?_, ?_, drove.owned⟩
  · rw [rest]
  · rw [rest]
  · rw [rest]

/-! ## The buffers -/

theorem carried_tookControl (sound : device.Sound) (packet : List UInt8) {start after : Controller}
    (owned : start.Owned after) : device.Carried start (device.tookControl packet).1 after := by
  unfold tookControl
  split
  · exact ⟨sound.of_drive rfl, rfl, rfl, rfl, owned⟩
  · exact ⟨sound, rfl, rfl, rfl, owned⟩

theorem serve_yields (sound : device.Sound) (endpoint : Endpoint) (start : Controller) :
    (device.serve endpoint).Yields start fun next after =>
      device.Carried start next after ∧ ∀ receiver : OutEndpoint, receiver ≠ .control →
        after.holds (.fromHost receiver) =
          (decide (endpoint = .fromHost receiver) || start.holds (.fromHost receiver)) := by
  have bulkServed (bulk : 2 ≤ endpoint.index) (free : start.holds endpoint = false) :=
    serve_meets sound bulk free
  cases held : start.holds endpoint with
  | true => exact (device.serve_halts held).yields _
  | false =>
    cases endpoint with
    | toHost endpoint =>
      cases endpoint with
      | control =>
        refine (device.serve_meets_collected held).yields ?_
        rintro next after events ⟨rfl, did⟩
        refine ⟨⟨sound.of_drive rfl, rfl, rfl, rfl, did.owned⟩, fun receiver bulk => ?_⟩
        refine did.holds_of_ne Endpoint.noConfusion ?_
        rintro ⟨⟩
        exact bulk rfl
      | notify | console | disk =>
        refine (bulkServed (by decide) held).yields ?_
        intro next after events served
        exact ⟨served.carried, fun receiver _ => served.receivers receiver⟩
    | fromHost endpoint =>
      cases endpoint with
      | control =>
        refine (device.serve_meets_control held).yields ?_
        rintro next after events ⟨packet, rfl, did⟩
        refine ⟨carried_tookControl sound packet did.owned, fun receiver bulk => ?_⟩
        have apart : Endpoint.fromHost receiver ≠ .fromHost .control := by
          rintro ⟨⟩
          exact bulk rfl
        rw [did.holds_of_ne Endpoint.noConfusion apart, decide_eq_false apart.symm, Bool.false_or]
      | console | disk =>
        refine (bulkServed (by decide) held).yields ?_
        intro next after events served
        exact ⟨served.carried, fun receiver _ => served.receivers receiver⟩

theorem serveAll_yields (sound : device.Sound) (places : List Nat) (start : Controller) :
    (device.serveAll places).Yields start fun next after =>
      device.Carried start next after ∧ ∀ receiver : OutEndpoint, receiver ≠ .control →
        after.holds (.fromHost receiver) =
          (decide ((Endpoint.fromHost receiver).index ∈ places) || start.holds (.fromHost receiver)) := by
  induction places generalizing device start with
  | nil => exact Exchange.yields_pure _ _ ⟨.refl sound start, fun _ _ => rfl⟩
  | cons index rest restInduction =>
    rw [serveAll]
    cases found : Endpoint.ofIndex? index with
    | none =>
      rw [pure_bind]
      refine (restInduction sound start).mono ?_
      rintro next after ⟨carried, held⟩
      refine ⟨carried, fun receiver bulk => ?_⟩
      have apart : (Endpoint.fromHost receiver).index ≠ index := by
        rintro rfl
        rw [Endpoint.ofIndex?_index] at found
        cases found
      rw [held receiver bulk]
      simp only [List.mem_cons, apart, false_or]
    | some endpoint =>
      have place := Endpoint.index_of_ofIndex? found
      refine Exchange.Yields.bind ((serve_yields sound endpoint start).mono ?_)
      rintro middle between ⟨carried, heldBetween⟩
      refine (restInduction carried.sound between).mono ?_
      rintro next after ⟨carriedRest, heldAfter⟩
      refine ⟨carried.trans carriedRest, fun receiver bulk => ?_⟩
      have same : endpoint = .fromHost receiver ↔ (Endpoint.fromHost receiver).index = index := by
        rw [← place]
        exact ⟨fun same => by rw [same], fun same => (Endpoint.index_injective same).symm⟩
      rw [heldAfter receiver bulk, heldBetween receiver bulk]
      simp only [same, List.mem_cons, Bool.decide_or, ← Bool.or_assoc, Bool.or_comm]

theorem onBuffers_yields (sound : device.Sound) (presented : Presented) (start : Controller) :
    (device.onBuffers presented).Yields start fun next after =>
      device.Carried start next after ∧ ∀ receiver : OutEndpoint, receiver ≠ .control →
        after.holds (.fromHost receiver) =
          (decide (presented.Returns (.fromHost receiver)) || start.holds (.fromHost receiver)) := by
  refine device.onBuffers_yields_serveAll presented start ?_ ?_
  · intro nothing
    refine ⟨.refl sound start, ?_⟩
    intro receiver _
    rw [decide_eq_false (nothing _), Bool.false_or]
  · refine (serveAll_yields sound _ _).mono ?_
    rintro next after ⟨carried, held⟩
    refine ⟨⟨carried.sound, carried.board, carried.configured, carried.started, ?_⟩, ?_⟩
    · exact .write (.write (.trans (.write (.write (.refl start) rfl) rfl) carried.owned) rfl) rfl
    · intro receiver bulk
      simp only [Controller.holds_write, held receiver bulk, mem_statusPlaces]

/-! ## Before a bus reset -/

/-- What a turn does before it handles a bus reset: the request, and then the buffers that came back. -/
def notice (device : Device) (presented : Presented) : Exchange Controller Device :=
  device.stepIf onSetup presented.setup >>= fun asked => asked.onBuffers presented

structure Noticed (device : Device) (presented : Presented) (start : Controller) (next : Device)
    (after : Controller) : Prop where
  sound : next.Sound
  board : next.board = device.board
  configured : next.configured = (presented.configures || device.configured)
  started : next.started = device.started
  owned : start.Owned after
  holds : ∀ receiver : OutEndpoint, receiver ≠ .control → after.holds (.fromHost receiver) =
    (decide (presented.Returns (.fromHost receiver)) || start.holds (.fromHost receiver))

theorem configured_asked (device : Device) (presented : Presented) :
    (device.asked presented.setup).1.board = device.board ∧
      (device.asked presented.setup).1.configured = (presented.configures || device.configured) ∧
      (device.asked presented.setup).1.started = device.started := by
  unfold asked Presented.configures
  cases presented.setup with
  | none => exact ⟨rfl, rfl, rfl⟩
  | some bytes =>
    rw [Option.any_some]
    dsimp only
    unfold answered
    cases (Setup.ofBytes bytes).asks with
    | getDescriptor name => cases name <;> exact ⟨rfl, rfl, rfl⟩
    | setAddress | setConfiguration | otherCommand | otherQuery | disk | setLineCoding | getLineCoding
    | setControlLineState | foreign => exact ⟨rfl, rfl, rfl⟩

theorem notice_yields (sound : device.Sound) (presented : Presented) (start : Controller) :
    (device.notice presented).Yields start fun next after => device.Noticed presented start next after := by
  refine Exchange.Meets.thenYields ((device.stepIf_meets_asked presented.setup start).mono ?_)
  rintro asked looked events ⟨rfl, did⟩
  obtain ⟨board, configured, started⟩ := device.configured_asked presented
  refine (onBuffers_yields (sound_asked sound presented.setup) presented looked).mono ?_
  rintro next after ⟨carried, held⟩
  refine ⟨carried.sound, carried.board.trans board, carried.configured.trans configured,
    carried.started.trans started, did.owned.trans carried.owned, fun receiver bulk => ?_⟩
  have apart : Endpoint.fromHost receiver ≠ .fromHost .control := by
    rintro ⟨⟩
    exact bulk rfl
  rw [held receiver bulk, did.holds_of_ne Endpoint.noConfusion apart]

/-! ## The whole turn -/

def finish (served : Device) (presented : Presented) (board : Board) : Exchange Controller Device :=
  served.settle presented >>= fun settled =>
    settled.start >>= fun started =>
      started.run >>= fun done => do
        lowerPin board.lampPin
        return done

theorem settle_sound (sound : device.Sound) (presented : Presented) (start : Controller) :
    (device.settle presented).Yields start fun next _ =>
      next.Sound ∧ next.board = device.board ∧
        next.configured = (!presented.busReset && device.configured) ∧
        next.lineCoding = device.lineCoding := by
  unfold settle
  cases presented.busReset with
  | true =>
    refine (device.onBusReset_meets start).yields ?_
    rintro next after events ⟨rfl, -⟩
    exact ⟨sound_wiped sound, rfl, rfl, rfl⟩
  | false => exact Exchange.yields_pure _ _ ⟨sound, rfl, rfl, rfl⟩

theorem start_sound (sound : device.Sound) (start : Controller) :
    device.start.Yields start fun next _ =>
      next.Sound ∧ next.board = device.board ∧ next.configured = device.configured ∧
        next.lineCoding = device.lineCoding := by
  refine (device.start_meets start).yields ?_
  intro next after events begins
  split at begins
  · obtain ⟨rfl, -⟩ := begins
    exact ⟨sound.of_drive rfl, rfl, rfl, rfl⟩
  · obtain ⟨rfl, -⟩ := begins
    exact ⟨sound, rfl, rfl, rfl⟩

theorem finish_sound (sound : device.Sound) (presented : Presented) (board : Board) (start : Controller) :
    (device.finish presented board).Yields start fun next _ =>
      next.Sound ∧ next.board = device.board ∧
        next.configured = (!presented.busReset && device.configured) ∧
        next.lineCoding = device.lineCoding := by
  refine Exchange.Yields.bind ((settle_sound sound presented start).mono ?_)
  rintro settled quiet ⟨soundSettled, boardSettled, configuredSettled, lineCodingSettled⟩
  refine Exchange.Yields.bind ((start_sound soundSettled quiet).mono ?_)
  rintro begun armed ⟨soundBegun, boardBegun, configuredBegun, lineCodingBegun⟩
  refine Exchange.Meets.thenYields ((run_meets soundBegun armed).mono ?_)
  rintro done after events ⟨drove, -⟩
  have carried := drove.carried
  refine Exchange.Meets.thenYields ((meets_lowerPin ..).mpr (Exchange.yields_pure _ _ ?_))
  have lineCoding : done.lineCoding = begun.lineCoding := by
    rw [drove.rest]
  exact ⟨drove.sound, carried.board.trans (boardBegun.trans boardSettled),
    carried.configured.trans (configuredBegun.trans configuredSettled),
    lineCoding.trans (lineCodingBegun.trans lineCodingSettled)⟩

theorem handle_parts (device : Device) (presented : Presented) :
    device.handle presented =
      device.notice presented >>= fun served => served.finish presented device.board := by
  rw [handle_eq, notice, bind_assoc]
  rfl

theorem turn_yields (sound : device.Sound) (presented : Presented) (controller : Controller)
    {post : Device → Controller → Prop}
    (finished : ∀ served between, device.Noticed presented (handed controller presented) served between →
      (served.finish presented device.board).Yields between post) :
    (device.turn presented).Yields controller post := by
  refine Exchange.Meets.thenYields ((Exchange.meets_modifyLink ..).mpr ?_)
  rw [handle_parts]
  refine Exchange.Yields.bind ((notice_yields sound presented _).mono ?_)
  exact finished

/-- There is room for packets from the host on both bulk endpoints, or on neither. -/
def Receives (controller : Controller) (room : Bool) : Prop :=
  ∀ receiver : OutEndpoint, receiver ≠ .control → controller.holds (.fromHost receiver) = room

theorem receives_receiving (controller : Controller) : Receives (receiving controller) true := by
  intro receiver bulk
  rw [receiving, Controller.holds_armOut, Controller.holds_armOut]
  cases receiver with
  | control => exact absurd rfl bulk
  | console | disk => rfl

theorem owned_receiving {controller : Controller} (free : Receives controller false) :
    controller.Owned (receiving controller) := by
  refine .armOut (.armOut (.refl controller) maxPacket ?_) maxPacket ?_
  · intro _
    exact free .console OutEndpoint.noConfusion
  · intro _
    rw [Controller.holds_armOut]
    exact free .disk OutEndpoint.noConfusion

theorem receives_wipedController (board : Board) (controller : Controller) :
    Receives (wipedController board controller) false := by
  intro receiver bulk
  cases receiver with
  | control => exact absurd rfl bulk
  | console | disk => rfl

theorem owned_wipedController (board : Board) (controller : Controller) :
    controller.Owned (wipedController board controller) :=
  .write (.write (.disarmAll (.write (.write (.write (.refl controller) rfl) rfl) rfl) _) rfl) rfl

/-- The device is started only if it is configured, and there is room for packets from the host exactly if
it is started. -/
structure Ready (device : Device) (controller : Controller) : Prop where
  started : device.started = true → device.configured = true
  receives : Receives controller device.started

structure Steady (device : Device) (controller : Controller) : Prop extends Ready device controller where
  configured : device.configured = true → device.started = true

theorem Steady.started_eq {controller : Controller} (steady : device.Steady controller) :
    device.started = device.configured :=
  Bool.eq_iff_iff.mpr ⟨steady.started, steady.configured⟩

section Finish

variable {served : Device} {start : Controller}

theorem settle_ready (sound : served.Sound) (presented : Presented) (ready : served.Ready start) :
    (served.settle presented).Meets start fun next after _ =>
      next.Sound ∧ next.Ready after ∧ next.configured = (!presented.busReset && served.configured) ∧
        start.Owned after := by
  unfold settle
  split
  · rename_i reset
    refine (served.onBusReset_meets start).mono ?_
    rintro next after events ⟨rfl, rfl⟩
    refine ⟨sound_wiped sound, ⟨id, receives_wipedController _ _⟩, ?_, owned_wipedController _ _⟩
    rw [reset]
    rfl
  · rename_i quiet
    refine (Exchange.meets_pure ..).mpr ⟨sound, ready, ?_, .refl start⟩
    rw [Bool.eq_false_iff.mpr quiet]
    rfl

theorem start_steady (sound : served.Sound) (ready : served.Ready start) :
    served.start.Meets start fun next after _ =>
      next.Sound ∧ next.Steady after ∧ next.configured = served.configured ∧ start.Owned after := by
  refine (served.start_meets start).mono ?_
  intro next after events begins
  split at begins
  · rename_i due
    obtain ⟨configured, notStarted⟩ := Bool.and_eq_true_iff.mp due
    have idle : served.started = false := by
      rw [← Bool.not_eq_true']
      exact notStarted
    obtain ⟨rfl, rfl⟩ := begins
    have free : Receives start false := by
      rw [← idle]
      exact ready.receives
    exact ⟨sound.of_drive rfl, ⟨⟨fun _ => configured, receives_receiving start⟩, fun _ => rfl⟩, rfl,
      owned_receiving free⟩
  · rename_i settled
    obtain ⟨rfl, rfl⟩ := begins
    refine ⟨sound, ⟨ready, fun configured => ?_⟩, rfl, .refl _⟩
    cases running : next.started with
    | true => rfl
    | false =>
      rw [configured, running] at settled
      exact absurd rfl settled

theorem run_steady (sound : served.Sound) (steady : served.Steady start) :
    served.run.Meets start fun next after _ =>
      next.Steady after ∧ next.configured = served.configured ∧ start.Owned after := by
  refine (run_meets sound start).mono ?_
  rintro next after events ⟨drove, held⟩
  have carried := drove.carried
  refine ⟨⟨⟨?_, ?_⟩, ?_⟩, carried.configured, carried.owned⟩
  · rw [carried.started, carried.configured]
    exact steady.started
  · intro receiver bulk
    rw [carried.started, held receiver]
    exact steady.receives receiver bulk
  · rw [carried.started, carried.configured]
    exact steady.configured

theorem finish_steady (sound : served.Sound) (presented : Presented) (board : Board)
    (ready : served.Ready start) :
    (served.finish presented board).Meets start fun next after _ =>
      next.Steady after ∧ next.configured = (!presented.busReset && served.configured) ∧
        start.Owned after := by
  unfold finish
  rw [Exchange.meets_bind]
  refine (settle_ready sound presented ready).mono ?_
  rintro settled quiet _ ⟨soundSettled, readySettled, configuredSettled, ownedSettled⟩
  rw [Exchange.meets_bind]
  refine (start_steady soundSettled readySettled).mono ?_
  rintro begun armed _ ⟨soundBegun, steadyBegun, configuredBegun, ownedBegun⟩
  rw [Exchange.meets_bind]
  refine (run_steady soundBegun steadyBegun).mono ?_
  rintro done after _ ⟨steadyDone, configuredDone, ownedDone⟩
  simp only [Exchange.meets_bind, meets_lowerPin, Exchange.meets_pure]
  exact ⟨⟨⟨steadyDone.started, steadyDone.receives⟩, steadyDone.configured⟩,
    configuredDone.trans (configuredBegun.trans configuredSettled),
    .write ((ownedSettled.trans ownedBegun).trans ownedDone) rfl⟩

end Finish

/-! ## Runs in which every buffer comes back once it was armed -/

/-- The states that turns lead to from power-up, with what the device saw in each turn, the newest in front.
In each turn the controller hands back only buffers that it holds. -/
inductive Fair (board : Board) : Device → Controller → List Presented → Prop
  | powerUp {device : Device} (resets : UInt32) (started : Device.powerUp board = .ok device) :
      Fair board device (.powerUp (bringUpWrites board resets)) []
  | turn {device next : Device} {controller : Controller} {history : List Presented}
      {presented : Presented} (before : Fair board device controller history)
      (armed : presented.Armed controller)
      (turned : (device.turn presented controller).result = .ok next) :
      Fair board next (device.turn presented controller).link (presented :: history)

/-- The device has been configured since the last bus reset, or since power-up if there was none. -/
def configuredIn : List Presented → Bool
  | [] => false
  | presented :: earlier =>
    !presented.busReset && (presented.configures || configuredIn earlier)

theorem turn_owned (sound : device.Sound) {presented : Presented} {controller : Controller}
    (steady : device.Steady controller) (armed : presented.Armed controller) :
    (device.turn presented).Yields controller fun next after =>
      next.Steady after ∧
        next.configured = (!presented.busReset && (presented.configures || device.configured)) ∧
        (handed controller presented).Owned after := by
  -- A turn that handles a request to configure the device starts it before it ends.
  refine turn_yields sound presented controller ?_
  intro served between noticed
  have ready : served.Ready between := by
    refine ⟨fun started => ?_, fun receiver bulk => ?_⟩
    · rw [noticed.started] at started
      rw [noticed.configured, steady.started started, Bool.or_true]
    · rw [noticed.holds receiver bulk, armed.holds_again, noticed.started]
      exact steady.receives receiver bulk
  refine (finish_steady noticed.sound presented device.board ready).yields ?_
  rintro next after events ⟨steadyNext, configured, owned⟩
  refine ⟨steadyNext, ?_, noticed.owned.trans owned⟩
  rw [configured, noticed.configured]

theorem Fair.after {board : Board} {controller : Controller} {history : List Presented}
    (fair : Fair board device controller history) : After board device controller history := by
  induction fair with
  | powerUp resets started => exact .powerUp resets started
  | turn before armed turned afterBefore => exact .turn afterBefore armed.released turned

theorem Fair.steady {board : Board} {controller : Controller} {history : List Presented}
    (fair : Fair board device controller history) :
    device.Steady controller ∧ device.configured = configuredIn history := by
  induction fair with
  | powerUp resets started =>
    obtain ⟨-, configured, begun⟩ := configured_of_powerUp started
    refine ⟨⟨⟨?_, ?_⟩, ?_⟩, configured⟩
    · rw [begun]
      exact fun impossible => absurd impossible Bool.false_ne_true
    · rw [begun]
      exact fun _ _ => rfl
    · rw [configured]
      exact fun impossible => absurd impossible Bool.false_ne_true
  | turn before armed turned beforeInduction =>
    obtain ⟨steady, configured⟩ := beforeInduction
    obtain ⟨steadyNext, configuredNext, -⟩ := turn_owned before.after.sound steady armed _ turned
    refine ⟨steadyNext, ?_⟩
    rw [configuredNext, configured, configuredIn]

/-- After every turn there is room for packets from the host on both bulk endpoints if the device has been
configured since the last bus reset, and on neither if not.  Bring-up arms nothing.  What a turn does to the
controller, its writes do, and none of them arms a bulk buffer that the controller holds. -/
theorem Fair.owned {board : Board} {controller : Controller} {history : List Presented}
    (fair : Fair board device controller history) :
    controller.holds (.fromHost .console) = configuredIn history ∧
      controller.holds (.fromHost .disk) = configuredIn history ∧
      (∀ resets, ∀ made ∈ bringUpWrites board resets,
        made.target.isBufferControl = true → made.value = 0) ∧
      ∀ presented next, presented.Armed controller →
        (device.turn presented controller).result = .ok next →
        ∃ made, (device.turn presented controller).link.writes = controller.writes ++ made ∧
          (handed controller presented).Exclusive made ∧
          (device.turn presented controller).link.Shows
            (made.foldl Controller.perform (handed controller presented)) := by
  obtain ⟨steady, configured⟩ := fair.steady
  refine ⟨?_, ?_, idle_bringUpWrites board, ?_⟩
  · rw [← configured, ← steady.started_eq]
    exact steady.receives .console OutEndpoint.noConfusion
  · rw [← configured, ← steady.started_eq]
    exact steady.receives .disk OutEndpoint.noConfusion
  · intro presented next armed turned
    obtain ⟨-, -, made, shows, exclusive⟩ := turn_owned fair.after.sound steady armed next turned
    refine ⟨made, ?_, exclusive, shows⟩
    rw [shows.writes, Controller.writes_performAll, writes_handed]

def configuring : Presented :=
  { setup := some ⟨[0, 9, 1, 0, 0, 0, 0, 0], rfl⟩ }

def typing : Presented :=
  { returned := [{ address := 2, data := [0x61], length := 1 }] }

/-- The host configures the device and types a letter, which comes back on the console. -/
theorem Fair.owned_typing :
    ∃ device next controller, Fair .pico device controller [configuring] ∧
      typing.Armed controller ∧ (device.turn typing controller).result = .ok next ∧
      controller.holds (.fromHost .console) = true ∧ controller.holds (.fromHost .disk) = true ∧
      ∃ made, (device.turn typing controller).link.writes = controller.writes ++ made ∧
        (handed controller typing).Exclusive made ∧
        (device.turn typing controller).link.Shows
          (made.foldl Controller.perform (handed controller typing)) := by
  obtain ⟨fresh, started, -, -⟩ := powerUp_ok .pico
  have armed : configuring.Armed (.powerUp (bringUpWrites .pico 0)) := List.forall_mem_nil _
  obtain ⟨device, after, turned, -⟩ :=
    (After.powerUp 0 started).go_on armed.released (not_blocked_of_bulk (by decide))
  have fair := (Fair.powerUp 0 started).turn armed turned
  obtain ⟨room, roomDisk, -, owned⟩ := fair.owned
  rw [show configuredIn [configuring] = true by decide] at room roomDisk
  have armedTyping : typing.Armed (fresh.turn configuring _).link :=
    List.forall_mem_cons.mpr ⟨⟨rfl, .fromHost .console, by decide, room⟩, List.forall_mem_nil _⟩
  obtain ⟨next, -, turnedTyping, -⟩ :=
    after.go_on armedTyping.released (not_blocked_of_bulk (by decide))
  exact ⟨device, next, _, fair, armedTyping, turnedTyping, room, roomDisk,
    owned typing next armedTyping turnedTyping⟩

end Device

end ScriptDrive
