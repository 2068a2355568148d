import ScriptDrive.Proofs.Device.SideBySide

/-!
# A bus reset erases what was in flight

Two runs that end in a bus reset with the same file, memory, queued console input and serial settings cannot
be told apart from then on, whatever went before: `Reset.watched_eq`.  The reset leaves the control endpoint
of the controller as it was, so the two states still differ; but a request sets it up anew, and until one
comes the device does not look at it.
-/

set_option autoImplicit false

namespace ScriptDrive.Device

/-- The states that turns lead to from power-up, whatever the device sees in them. -/
inductive Reached (board : Board) : Device → Controller → Prop
  | powerUp {device : Device} (resets : UInt32) (started : Device.powerUp board = .ok device) :
      Reached board device (.powerUp (bringUpWrites board resets))
  | turn {device next : Device} {controller : Controller} {presented : Presented}
      (before : Reached board device controller)
      (turned : (device.turn presented controller).result = .ok next) :
      Reached board next (device.turn presented controller).link

/-- The states at the end of a turn in which the device handled a bus reset. -/
inductive Reset (board : Board) : Device → Controller → Prop
  | turn {device next : Device} {controller : Controller} {presented : Presented}
      (before : Reached board device controller) (reset : presented.busReset = true)
      (turned : (device.turn presented controller).result = .ok next) :
      Reset board next (device.turn presented controller).link

/-- What an onlooker sees of some turns: what is written in each, and the fault if it halts.  After a halt
there is nothing more to see. -/
def watched (device : Device) (controller : Controller) :
    List Presented → List (List Write × Option Fault)
  | [] => []
  | presented :: later =>
    let reply := device.turn presented controller
    let made := reply.link.writes.drop controller.writes.length
    match reply.result with
    | .ok next => (made, none) :: next.watched reply.link later
    | .error fault => [(made, some fault)]

/-- No buffer of the control endpoint comes back before a request has come. -/
def Orderly : List Presented → Prop
  | [] => True
  | presented :: later =>
    presented.setup.isSome = true ∨
      (∀ buffer ∈ presented.returned, 2 ≤ buffer.index) ∧ Orderly later

/-! ## What a reset leaves -/

theorem finish_wiped (served : Device) {presented : Presented} (reset : presented.busReset = true)
    (board : Board) (start : Controller) :
    (served.finish presented board).Meets start fun next after _ =>
      next = served.wiped ∧
        after = (wipedController served.board start).write (.register .pinLower (bit board.lampPin)) := by
  unfold finish settle
  rw [if_pos reset, Exchange.meets_bind]
  refine (served.onBusReset_meets start).mono ?_
  rintro settled quiet _ ⟨rfl, rfl⟩
  have idle : served.wiped.start = pure served.wiped := rfl
  have still : served.wiped.run = pure served.wiped := rfl
  simp only [idle, still, pure_bind, Exchange.meets_bind, meets_lowerPin, Exchange.meets_pure, and_self]

theorem turn_sound {device : Device} (sound : device.Sound) (presented : Presented)
    (controller : Controller) :
    (device.turn presented).Yields controller fun next _ => next.Sound ∧ next.board = device.board := by
  refine turn_yields sound presented controller ?_
  intro served between noticed
  refine (finish_sound noticed.sound presented device.board between).mono ?_
  rintro next after ⟨soundNext, boardNext, -⟩
  exact ⟨soundNext, boardNext.trans noticed.board⟩

theorem Reached.sound {board : Board} {device : Device} {controller : Controller}
    (reached : Reached board device controller) : device.Sound ∧ device.board = board := by
  induction reached with
  | powerUp resets started => exact ⟨(of_powerUp started).1, (configured_of_powerUp started).1⟩
  | turn before turned beforeInduction =>
    obtain ⟨sound, boardIs⟩ := beforeInduction
    obtain ⟨soundNext, boardNext⟩ := turn_sound sound _ _ _ turned
    exact ⟨soundNext, boardNext.trans boardIs⟩

/-- The device is the board's and has nothing in flight, and no bulk buffer is armed. -/
structure Blank (board : Board) (device : Device) (controller : Controller) : Prop where
  sound : device.Sound
  wiped : ∃ served : Device, served.board = board ∧ device = served.wiped
  bulk : ∀ endpoint : Endpoint, 2 ≤ endpoint.index → controller.slot endpoint = {}

theorem slot_wipedController (board : Board) (controller : Controller) {endpoint : Endpoint}
    (bulk : 2 ≤ endpoint.index) : (wipedController board controller).slot endpoint = {} := by
  cases endpoint with
  | toHost endpoint =>
    cases endpoint with
    | control => exact absurd bulk (by decide)
    | notify | console | disk => rfl
  | fromHost endpoint =>
    cases endpoint with
    | control => exact absurd bulk (by decide)
    | console | disk => rfl

theorem Reset.blank {board : Board} {device : Device} {controller : Controller}
    (reset : Reset board device controller) : device.Blank board controller := by
  induction reset with
  | @turn device next controller presented before reset turned =>
    obtain ⟨sound, boardIs⟩ := before.sound
    refine turn_yields sound presented controller ?_ next turned
    intro served between noticed
    refine (served.finish_wiped reset device.board between).yields ?_
    rintro next after events ⟨rfl, rfl⟩
    refine ⟨sound_wiped noticed.sound, ⟨served, noticed.board.trans boardIs, rfl⟩, ?_⟩
    intro endpoint bulk
    exact slot_wipedController served.board between bulk

theorem Blank.twins {board : Board} {first second : Device} {here there : Controller}
    (blank : first.Blank board here) (otherBlank : second.Blank board there)
    (file : first.drive.file = second.drive.file)
    (ram : first.drive.storage.ram.bytes = second.drive.storage.ram.bytes)
    (queued : first.drive.queue.bytes = second.drive.queue.bytes)
    (lineCoding : first.lineCoding = second.lineCoding) : first.Twins second := by
  have identity : first.drive.identity = second.drive.identity :=
    blank.sound.identity.trans otherBlank.sound.identity.symm
  obtain ⟨served, rfl, rfl⟩ := blank.wiped
  obtain ⟨counterpart, boardIs, rfl⟩ := otherBlank.wiped
  have storage : counterpart.drive.storage.reset = served.drive.storage.reset := by
    unfold Storage.reset
    congr 1
    · exact identity.symm
    · exact file.symm
    · exact RamDisk.ext ram.symm
  refine ⟨counterpart.drive.queue, ?_, queued.symm⟩
  unfold Device.wiped
  rw [storage, boardIs]
  congr 1
  exact lineCoding.symm

theorem Blank.alike {board : Board} {first second : Device} {here there : Controller}
    (blank : first.Blank board here) (otherBlank : second.Blank board there) :
    Alike here.writes there.writes False (fun _ => False) here there := by
  refine ⟨⟨[], (List.append_nil _).symm, (List.append_nil _).symm⟩, ?_, False.elim, fun _ => False.elim,
    fun _ => False.elim⟩
  intro endpoint bulk
  rw [blank.bulk endpoint bulk, otherBlank.bulk endpoint bulk]

/-! ## What an onlooker sees from then on -/

/-- A turn only adds to the journal, so that `watched` misses nothing of what is written. -/
theorem writes_turn {device : Device} (sound : device.Sound) {presented : Presented}
    (released : presented.Released) (whole : presented.Whole) (controller : Controller) :
    ∃ made, (device.turn presented controller).link.writes = controller.writes ++ made := by
  have same : Alike controller.writes controller.writes True (fun _ => False) controller controller :=
    ⟨⟨[], (List.append_nil _).symm, (List.append_nil _).symm⟩, fun _ _ => rfl, fun _ _ => rfl,
      fun _ => False.elim, fun _ => False.elim⟩
  have twins : device.Twins device := ⟨device.drive.queue, rfl, rfl⟩
  rcases turn_together sound twins released whole (.inl trivial) same with
    ⟨fault, -, -, made, writes, -⟩ | ⟨next, counterpart, -, -, -, alike⟩
  · exact ⟨made, writes⟩
  · obtain ⟨made, writes, -⟩ := alike.journals
    exact ⟨made, writes⟩

theorem watched_eq_of_alike {first second : Device} {here there : Controller} {asked : Prop}
    (sound : first.Sound) (twins : first.Twins second) {later : List Presented}
    (released : ∀ presented ∈ later, presented.Released) (whole : ∀ presented ∈ later, presented.Whole)
    (known : asked ∨ Orderly later)
    (alike : Alike here.writes there.writes asked (fun _ => False) here there) :
    first.watched here later = second.watched there later := by
  induction later generalizing first second here there asked with
  | nil => rfl
  | cons presented later laterInduction =>
    obtain ⟨releasedFirst, releasedRest⟩ := List.forall_mem_cons.mp released
    obtain ⟨wholeFirst, wholeRest⟩ := List.forall_mem_cons.mp whole
    have knownFirst : asked ∨ presented.setup.isSome = true ∨
        ∀ buffer ∈ presented.returned, 2 ≤ buffer.index :=
      known.imp id fun orderly => orderly.imp id And.left
    have knownRest : (asked ∨ presented.setup.isSome = true) ∨ Orderly later := by
      rcases known with ask | setup | ⟨-, rest⟩
      · exact .inl (.inl ask)
      · exact .inl (.inr setup)
      · exact .inr rest
    unfold watched
    dsimp only
    rcases turn_together sound twins releasedFirst wholeFirst knownFirst alike with
      ⟨fault, halts, otherHalts, made, writes, otherWrites⟩ |
      ⟨next, counterpart, turned, otherTurned, twinsNext, alikeNext⟩
    · rw [halts, otherHalts, writes, otherWrites, List.drop_left, List.drop_left]
    · obtain ⟨made, writes, otherWrites⟩ := alikeNext.journals
      obtain ⟨soundNext, -⟩ := turn_sound sound presented here next turned
      rw [turned, otherTurned, writes, otherWrites, List.drop_left, List.drop_left]
      dsimp only
      rw [laterInduction soundNext twinsNext releasedRest wholeRest knownRest alikeNext.rebase]

/-- After a bus reset nothing can be seen of what went before it but the file, the memory, the queued
console input and the serial settings. -/
theorem Reset.watched_eq {board : Board} {first second : Device} {here there : Controller}
    (reset : Reset board first here) (otherReset : Reset board second there)
    (file : first.drive.file = second.drive.file)
    (ram : first.drive.storage.ram.bytes = second.drive.storage.ram.bytes)
    (queued : first.drive.queue.bytes = second.drive.queue.bytes)
    (lineCoding : first.lineCoding = second.lineCoding) {later : List Presented}
    (released : ∀ presented ∈ later, presented.Released) (whole : ∀ presented ∈ later, presented.Whole)
    (orderly : Orderly later) : first.watched here later = second.watched there later := by
  have blank := reset.blank
  have otherBlank := otherReset.blank
  have twins := blank.twins otherBlank file ram queued lineCoding
  exact watched_eq_of_alike blank.sound twins released whole (.inr orderly) (blank.alike otherBlank)

/-! ## Two runs that end in a reset -/

/-- A turn in which no buffer comes back answers its request and then handles the reset. -/
theorem turn_wiped (device : Device) {presented : Presented} (reset : presented.busReset = true)
    (nothing : presented.returned = []) (controller : Controller) :
    (device.turn presented).Meets controller fun next after _ =>
      next = (device.asked presented.setup).1.wiped ∧
        after.holds (.toHost .control) =
          (controller.acted (device.asked presented.setup).2).holds (.toHost .control) := by
  simp only [turn, handle_parts, notice, bind_assoc, Exchange.meets_bind, Exchange.meets_modifyLink, nothing,
    List.foldl_nil]
  refine (device.stepIf_meets_asked presented.setup controller).mono ?_
  rintro asked looked _ ⟨rfl, did⟩
  have none : (device.asked presented.setup).1.onBuffers presented =
      pure (device.asked presented.setup).1 := by
    unfold onBuffers
    rw [nothing]
    rfl
  rw [none, Exchange.meets_pure]
  refine (finish_wiped _ reset device.board looked).mono ?_
  rintro next after _ ⟨rfl, rfl⟩
  exact ⟨rfl, did.holds _⟩

def resetting : Presented :=
  { busReset := true }

def askingAndResetting : Presented :=
  { setup := some ⟨[0, 5, 7, 0, 0, 0, 0, 0], rfl⟩, busReset := true }

/-- One run only resets the bus.  In the other the acknowledgement of a request for an address still waits on
the control endpoint.  Then the host configures the device and types a letter. -/
theorem Reset.watched_eq_address :
    ∃ first second here there, Reset .pico first here ∧ Reset .pico second there ∧
      here.holds (.toHost .control) ≠ there.holds (.toHost .control) ∧
      first.watched here [configuring, typing] = second.watched there [configuring, typing] := by
  obtain ⟨device, started, -, -⟩ := powerUp_ok .pico
  have reached := Reached.powerUp 0 started
  have asks : (Setup.ofBytes ⟨[0, 5, 7, 0, 0, 0, 0, 0], rfl⟩).asks = .setAddress 7 := by decide
  have answered : device.asked askingAndResetting.setup =
      ({ device.dropped with newAddress := some 7 }, some (.send .empty)) := by
    unfold asked askingAndResetting Device.answered
    dsimp only
    rw [asks]
  have reset : resetting.busReset = true := rfl
  have alsoReset : askingAndResetting.busReset = true := rfl
  obtain ⟨first, turned, firstIs, held⟩ := device.turn_wiped reset rfl (.powerUp (bringUpWrites .pico 0))
  obtain ⟨second, otherTurned, secondIs, otherHeld⟩ :=
    device.turn_wiped alsoReset rfl (.powerUp (bringUpWrites .pico 0))
  rw [answered] at secondIs otherHeld
  have resetFirst := Reset.turn reached reset turned
  have resetSecond := Reset.turn reached alsoReset otherTurned
  refine ⟨first, second, _, _, resetFirst, resetSecond, ?_, ?_⟩
  · rw [held, otherHeld]
    exact Bool.false_ne_true
  · refine resetFirst.watched_eq resetSecond ?_ ?_ ?_ ?_ ?_ ?_ (.inl rfl)
    · rw [firstIs, secondIs]
      rfl
    · rw [firstIs, secondIs]
      rfl
    · rw [firstIs, secondIs]
      rfl
    · rw [firstIs, secondIs]
      rfl
    · unfold Presented.Released
      decide
    · unfold Presented.Whole
      decide

end ScriptDrive.Device
