import ScriptDrive.Proofs.Device.Turns

/-!
# Runs of the device

A run is a number of turns from power-up, none of which halts.  `After` lists what it leads to and what
happened on the way; what a turn does, it does in every run.
-/

set_option autoImplicit false

namespace ScriptDrive.Device

/-- The states of the device and its controller that turns lead to from power-up, with what the device saw
in each turn, the newest in front.  In no turn is a buffer stuck. -/
inductive After (board : Board) : Device → Controller → List Presented → Prop
  | powerUp {device : Device} (resets : UInt32) (started : Device.powerUp board = .ok device) :
      After board device (.powerUp (bringUpWrites board resets)) []
  | turn {device next : Device} {controller : Controller} {history : List Presented}
      {presented : Presented} (before : After board device controller history)
      (released : presented.Released)
      (turned : (device.turn presented controller).result = .ok next) :
      After board next (device.turn presented controller).link (presented :: history)

theorem powerUp_ok (board : Board) :
    ∃ device, Device.powerUp board = .ok device ∧ device.Sound ∧ device.unfinished = {} := by
  have small : boardCapacity ≤ clusterSize := by decide
  obtain ⟨drive, driveIs⟩ : ∃ drive, Drive.powerUp boardIdentity small = .ok drive := by
    obtain ⟨ram, driveIs, -⟩ := Drive.powerUp_eq boardIdentity small
    exact ⟨_, driveIs⟩
  obtain ⟨sound, identityIs⟩ := Drive.sound_of_powerUp driveIs
  have powered : Device.powerUp board = .ok { board := board, drive := drive } := by
    rw [powerUp, driveIs]
    rfl
  exact ⟨_, powered, ⟨sound, identityIs⟩, rfl⟩

/-- At power-up nothing is left of a control transfer. -/
theorem of_powerUp {board : Board} {device : Device} (started : Device.powerUp board = .ok device) :
    device.Sound ∧ device.unfinished = {} := by
  obtain ⟨device, startedAs, sound, nothing⟩ := powerUp_ok board
  rw [started] at startedAs
  cases startedAs
  exact ⟨sound, nothing⟩

theorem eq_of_powerUp {board : Board} {device : Device} (started : Device.powerUp board = .ok device) :
    ∃ drive, device = { board := board, drive := drive } := by
  have small : boardCapacity ≤ clusterSize := by decide
  cases driveIs : Drive.powerUp boardIdentity small with
  | error fault =>
    rw [powerUp, driveIs] at started
    cases started
  | ok drive =>
    rw [powerUp, driveIs] at started
    cases started
    exact ⟨drive, rfl⟩

/-- At power-up the device is not configured. -/
theorem configured_of_powerUp {board : Board} {device : Device}
    (started : Device.powerUp board = .ok device) :
    device.board = board ∧ device.configured = false ∧ device.started = false := by
  obtain ⟨drive, rfl⟩ := eq_of_powerUp started
  exact ⟨rfl, rfl, rfl⟩

theorem After.sound {board : Board} {device : Device} {controller : Controller}
    {history : List Presented} (after : After board device controller history) : device.Sound := by
  induction after with
  | powerUp resets started => exact (of_powerUp started).1
  | turn before released turned soundBefore => exact (turn_of_ok soundBefore released turned).1

/-- A turn in which no buffer of the control endpoint comes back finds none of them held. -/
theorem not_blocked_of_bulk {asked : Device} {presented : Presented} {start : Controller}
    (bulk : ∀ buffer ∈ presented.returned, 2 ≤ buffer.index) : ¬ asked.Blocked presented start := by
  have never {endpoint : Endpoint} (control : endpoint.index < 2) : ¬ presented.Returns endpoint := by
    rintro ⟨buffer, present, place⟩
    have notControl := bulk buffer present
    omega
  rintro (⟨returns, -⟩ | ⟨returns, -⟩)
  · exact never (by decide) returns
  · exact never (by decide) returns

/-- A turn that finds every buffer free goes on with the run. -/
theorem After.go_on {board : Board} {device : Device} {controller : Controller}
    {history : List Presented} (after : After board device controller history)
    {presented : Presented} (released : presented.Released)
    (clear : ¬ (device.asked presented.setup).1.Blocked presented
      (device.lookedAt presented controller)) :
    ∃ next, After board next (device.turn presented controller).link (presented :: history) ∧
      (device.turn presented controller).result = .ok next ∧
      (device.turn presented controller).link.acts = controller.acts ++ device.turnActs presented := by
  obtain ⟨next, turned, -, -, acts⟩ := turn_meets after.sound released clear
  exact ⟨next, .turn after released turned, turned, acts⟩

end ScriptDrive.Device
