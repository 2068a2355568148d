import ScriptDrive.Proofs.Device.Runs

/-!
# When a turn halts

The device arms the control endpoint while it handles a request, and again when the host has collected the
last packet; a buffer of the same endpoint that came back is looked at only afterwards.  `Collides` lists
the turns in which that goes wrong.  `After.halts_iff` says that in every run it goes wrong in these turns
and in no others, so that nothing else the host does halts the device.
-/

set_option autoImplicit false

namespace ScriptDrive.Device

/-- The turns in which a buffer that came back is armed before it is looked at. -/
inductive Collides (device : Device) (controller : Controller) (presented : Presented) : Prop
  | toHost {bytes : Octets 8} (setup : presented.setup = some bytes)
      (returns : presented.Returns (.toHost .control))
      (arms : (device.onSetup bytes (handed controller presented)).link.holds
        (.toHost .control) = true)
  | fromHost {bytes : Octets 8} (setup : presented.setup = some bytes)
      (returns : presented.Returns (.fromHost .control))
      (arms : (device.onSetup bytes (handed controller presented)).link.holds
        (.fromHost .control) = true)
  /-- Both halves came back, and nothing is left to be done or sent when they are looked at. -/
  | both {asked : Device}
      (looks : (device.stepIf onSetup presented.setup (handed controller presented)).result = .ok asked)
      (returnsIn : presented.Returns (.toHost .control))
      (returnsOut : presented.Returns (.fromHost .control)) (noAddress : asked.newAddress = none)
      (noData : asked.stage.rest = []) (noEmpty : asked.stage.emptyDue = false)

/-! ## The two ways to say it -/

def makesRoom : ControlAct → Bool
  | .room _ => true
  | _ => false

theorem makesRoom_answered (device : Device) (setup : Setup) :
    (device.answered setup).2.any makesRoom = decide (setup.asks = .setLineCoding) := by
  unfold answered
  cases setup.asks with
  | getDescriptor name => cases name <;> rfl
  | disk code =>
    simp only [diskAnswered, Prod.map_snd, Option.any_some]
    cases (device.drive.requested code).2 <;> rfl
  | setAddress | setConfiguration | otherCommand | otherQuery | setLineCoding | getLineCoding
  | setControlLineState | foreign => rfl

theorem holds_acted_fromHost {controller : Controller} (made : Option ControlAct)
    (free : controller.holds (.fromHost .control) = false) :
    (controller.acted made).holds (.fromHost .control) = made.any makesRoom := by
  cases made with
  | none => exact free
  | some made =>
    rw [Controller.acted, Option.elim_some, Controller.holds_act, Option.any_some]
    cases made with
    | send => exact free
    | address => exact free
    | room => rfl
    | refuse => rfl

theorem collected_eq_room_iff (left : Unfinished) :
    left.collected.2 = .room 0 ↔
      left.address = none ∧ left.stage.rest = [] ∧ left.stage.emptyDue = false := by
  unfold Unfinished.collected DataStage.next?
  cases left.address with
  | some address => simp only [reduceCtorEq, false_and]
  | none =>
    cases left.stage.rest with
    | cons byte rest => simp only [List.isEmpty_cons, Bool.false_eq_true, if_false, reduceCtorEq,
        false_and, and_false]
    | nil => cases left.stage.emptyDue <;> simp

section

variable {device : Device} {presented : Presented} {controller : Controller}

/-- The request of a turn is handled without a halt. -/
theorem asked_of_stepIf :
    (device.stepIf onSetup presented.setup (handed controller presented)).result =
        .ok (device.asked presented.setup).1 ∧
      ∀ other, (device.stepIf onSetup presented.setup (handed controller presented)).link.holds other =
        (device.lookedAt presented controller).holds other := by
  obtain ⟨asked, result, rfl, did⟩ :=
    device.stepIf_meets_asked presented.setup (handed controller presented)
  exact ⟨result, did.holds⟩

theorem collides_iff_blocked (released : presented.Released) :
    device.Collides controller presented ↔
      (device.asked presented.setup).1.Blocked presented (device.lookedAt presented controller) := by
  obtain ⟨result, holds⟩ := @asked_of_stepIf device presented controller
  have atRest : (device.asked presented.setup).1.unfinished.collected.2 = .room 0 ↔
      (device.asked presented.setup).1.newAddress = none ∧
        (device.asked presented.setup).1.stage.rest = [] ∧
        (device.asked presented.setup).1.stage.emptyDue = false := collected_eq_room_iff _
  constructor
  · intro collides
    cases collides with
    | toHost setup returns arms =>
      refine .inl ⟨returns, (holds _).symm.trans ?_⟩
      rw [setup]
      exact arms
    | fromHost setup returns arms =>
      refine .inr ⟨returns, .inl ((holds _).symm.trans ?_)⟩
      rw [setup]
      exact arms
    | both looks returnsIn returnsOut noAddress noData noEmpty =>
      rw [result] at looks
      cases looks
      exact .inr ⟨returnsOut, .inr ⟨returnsIn, atRest.mpr ⟨noAddress, noData, noEmpty⟩⟩⟩
  · -- A buffer that came back is held only if the request armed it, so there was one.
    have armed {endpoint : Endpoint} (returns : presented.Returns endpoint)
        (held : (device.lookedAt presented controller).holds endpoint = true) :
        ∃ bytes, presented.setup = some bytes ∧
          (device.onSetup bytes (handed controller presented)).link.holds endpoint = true := by
      have arms := (holds endpoint).trans held
      cases setup : presented.setup with
      | none =>
        rw [setup] at arms
        exact absurd arms (Bool.eq_false_iff.mp (holds_handed released returns))
      | some bytes =>
        rw [setup] at arms
        exact ⟨bytes, rfl, arms⟩
    rintro (⟨returns, held⟩ | ⟨returnsOut, held | ⟨returnsIn, nothing⟩⟩)
    · obtain ⟨bytes, setup, arms⟩ := armed returns held
      exact .toHost setup returns arms
    · obtain ⟨bytes, setup, arms⟩ := armed returnsOut held
      exact .fromHost setup returnsOut arms
    · obtain ⟨noAddress, noData, noEmpty⟩ := atRest.mp nothing
      exact .both result returnsIn returnsOut noAddress noData noEmpty

end

/-- The one request that arms the buffer from the host is the one that brings serial settings. -/
theorem arms_fromHost_iff {device : Device} {presented : Presented} {controller : Controller}
    (released : presented.Released) (returns : presented.Returns (.fromHost .control))
    (bytes : Octets 8) :
    (device.onSetup bytes (handed controller presented)).link.holds (.fromHost .control) = true ↔
      (Setup.ofBytes bytes).asks = .setLineCoding := by
  obtain ⟨asked, -, -, did⟩ := device.onSetup_meets bytes (handed controller presented)
  rw [did.holds, holds_acted_fromHost _ (holds_handed released returns), makesRoom_answered,
    decide_eq_true_iff]

/-- In every run, a turn halts exactly if it arms a buffer of the control endpoint before it looks at it:
whatever else the host sends, and however long, never halts it. -/
theorem After.halts_iff {board : Board} {device : Device} {controller : Controller}
    {history : List Presented} (after : After board device controller history)
    {presented : Presented} (released : presented.Released) :
    ((∃ fault, (device.turn presented controller).result = .error fault) ↔
        device.Collides controller presented) ∧
      (∀ fault, (device.turn presented controller).result = .error fault → fault = .bufferHeld) ∧
      ∀ bytes, presented.Returns (.fromHost .control) →
        ((device.onSetup bytes (handed controller presented)).link.holds (.fromHost .control) = true ↔
          (Setup.ofBytes bytes).asks = .setLineCoding) := by
  rw [collides_iff_blocked released]
  by_cases blocked : (device.asked presented.setup).1.Blocked presented
      (device.lookedAt presented controller)
  · have halted : (device.turn presented controller).result = .error .bufferHeld :=
      device.turn_halts blocked
    refine ⟨⟨fun _ => blocked, fun _ => ⟨_, halted⟩⟩, fun fault result => ?_,
      fun bytes returns => arms_fromHost_iff released returns bytes⟩
    rw [halted] at result
    exact (Except.error.inj result).symm
  · have never (fault : Fault) : (device.turn presented controller).result ≠ .error fault :=
      (turn_meets after.sound released blocked).not_halts
    exact ⟨⟨fun ⟨fault, result⟩ => absurd result (never fault), fun other => absurd other blocked⟩,
      fun fault result => absurd result (never fault),
      fun bytes returns => arms_fromHost_iff released returns bytes⟩

/-- Both halves of the control endpoint come back in the first turn, with nothing asked for. -/
theorem After.halts_iff_both :
    let presented : Presented := { returned := [{ address := 0x80 }, { address := 0 }] }
    ∃ device controller, After .pico device controller [] ∧
      ((∃ fault, (device.turn presented controller).result = .error fault) ∧
        device.Collides controller presented) ∧
      ∀ fault, (device.turn presented controller).result = .error fault → fault = .bufferHeld := by
  intro presented
  obtain ⟨device, started, -, nothing⟩ := powerUp_ok .pico
  have released : presented.Released := by
    rw [Presented.Released]
    decide
  have after := After.powerUp 0 started
  obtain ⟨halts, held, -⟩ := after.halts_iff released
  have collides : device.Collides (.powerUp (bringUpWrites .pico 0)) presented := by
    refine (collides_iff_blocked released).mpr (.inr ⟨by decide, .inr ⟨by decide, ?_⟩⟩)
    rw [show (device.asked presented.setup).1.unfinished = {} from nothing]
    rfl
  exact ⟨device, _, after, ⟨halts.mpr collides, collides⟩, held⟩

end ScriptDrive.Device
