import ScriptDrive.Proofs.Controller.ControlSide
import ScriptDrive.Proofs.Device.Control
import ScriptDrive.Proofs.Drive.Calls

/-!
# Serving the buffers that came back

`serve` halts exactly when the controller holds the buffer after all.  Otherwise one lemma says what comes
of it for each half of the control endpoint, and `serve_meets` what comes of it for every other endpoint:
the drive moves on, nothing happens on the control endpoint, and no buffer is armed that is still to be
served.  `serveAll_meets` carries the latter over all of them.
-/

set_option autoImplicit false

namespace ScriptDrive

variable {capacity : Nat}

namespace Drive

variable {π : Type} [Link π]

theorem onCollected_elsewhere {drive : Drive capacity} {endpoint : UInt8}
    (apart : endpoint ≠ drive.identity.endpoints.diskIn) :
    (drive.onCollected endpoint : Exchange π _) = pure drive :=
  if_neg apart

/-- Packets for the console stay in the device. -/
theorem link_onPacket_elsewhere {drive : Drive capacity} {endpoint : UInt8} (packet : List UInt8)
    (apart : endpoint ≠ drive.identity.endpoints.diskOut) (start : π) :
    (drive.onPacket endpoint packet start).link = start := by
  by_cases console : endpoint = drive.identity.endpoints.consoleOut
  · rw [drive.onPacket_console packet apart console]
    rfl
  · rw [drive.onPacket_unclaimed packet apart console]
    rfl

end Drive

namespace Device

/-- The drive is in a state that can come about, and it is the board's. -/
structure Sound (device : Device) : Prop where
  drive : device.drive.Sound
  identity : device.drive.identity = boardIdentity

theorem serve_halts (device : Device) {endpoint : Endpoint} {start : Controller}
    (held : start.holds endpoint = true) : (device.serve endpoint).Halts start .bufferHeld := by
  unfold serve
  refine Exchange.Meets.halts ((meets_raisePin ..).mpr (Exchange.Meets.halts
    ((Exchange.meets_link ..).mpr ?_)))
  rw [Controller.holds_write, if_pos held]
  exact (Exchange.halts_halt _ _).bind _

/-- Raising and lowering a pin around an act changes nothing about it. -/
theorem did_between {start after : Controller} {made : Option ControlAct} {pin : Nat}
    (acted : after = (start.write (.register .pinRaise (bit pin))).acted made) :
    start.Did made (after.write (.register .pinLower (bit pin))) := by
  rw [acted]
  exact .after_write rfl rfl (.before_acted (fun _ => rfl) (Controller.acts_write_of_none _ rfl)
    (.write (.refl start) rfl))

theorem serve_meets_collected (device : Device) {start : Controller}
    (free : start.holds (.toHost .control) = false) :
    (device.serve (.toHost .control)).Meets start fun next after _ =>
      next = device.resume device.unfinished.collected.1 ∧
        start.Did (some device.unfinished.collected.2) after := by
  simp only [serve, Exchange.meets_bind, meets_raisePin, Exchange.meets_link,
    Controller.holds_write, free, Bool.false_eq_true, if_false]
  refine (device.onControlCollected_meets _).mono ?_
  rintro next after events ⟨rfl, afterIs⟩
  simp only [meets_lowerPin, Exchange.meets_pure, true_and]
  exact did_between afterIs

theorem serve_control (device : Device) {start : Controller}
    (free : start.holds (.fromHost .control) = false) :
    let took := device.tookControl (start.received (.fromHost .control))
    let pin := bit (servicePin (.fromHost .control))
    device.serve (.fromHost .control) start =
      ⟨.ok took.1,
        ((start.write (.register .pinRaise pin)).acted took.2).write (.register .pinLower pin), []⟩ := by
  intro took pin
  have served : (device.serve (.fromHost .control)).Meets start fun next after events =>
      next = took.1 ∧
        after = ((start.write (.register .pinRaise pin)).acted took.2).write (.register .pinLower pin) ∧
        events = [] := by
    simp only [serve, Exchange.meets_bind, meets_raisePin, Exchange.meets_link, Controller.holds_write, free,
      Bool.false_eq_true, if_false, onControlPacket, took, tookControl]
    split
    · simp only [Exchange.meets_bind, acknowledge_meets, meets_lowerPin, Exchange.meets_pure]
      exact ⟨rfl, rfl, rfl⟩
    · simp only [meets_lowerPin, Exchange.meets_pure]
      exact ⟨trivial, rfl, rfl⟩
  obtain ⟨next, result, rfl, link, events⟩ := served
  rw [← result, ← link, ← events]

theorem serve_meets_control (device : Device) {start : Controller}
    (free : start.holds (.fromHost .control) = false) :
    (device.serve (.fromHost .control)).Meets start fun next after _ =>
      ∃ packet, next = (device.tookControl packet).1 ∧
        start.Did (device.tookControl packet).2 after := by
  have served := device.serve_control free
  refine ⟨_, congrArg Reply.result served, start.received (.fromHost .control), rfl, ?_⟩
  rw [served]
  exact did_between rfl

/-! ## The other endpoints -/

/-- The drive has moved on, and the device has done nothing else that a control transfer could tell. -/
structure Drove (device : Device) (start : Controller) (next : Device) (after : Controller) : Prop where
  sound : next.Sound
  rest : next = { device with drive := next.drive }
  side : after.controlSide = start.controlSide
  owned : start.Owned after

theorem Drove.acts {device next : Device} {start after : Controller}
    (drove : device.Drove start next after) : after.acts = start.acts :=
  Controller.acts_of_controlSide drove.side

/-- Serving an endpoint arms no buffer that is served later in the same turn, and of the buffers from the
host only its own. -/
structure Served (device : Device) (endpoint : Endpoint) (start : Controller) (next : Device)
    (after : Controller) : Prop extends Drove device start next after where
  holds : ∀ other : Endpoint, other.index < 2 ∨ endpoint.index < other.index →
    after.holds other = start.holds other
  receivers : ∀ receiver : OutEndpoint, after.holds (.fromHost receiver) =
    (decide (endpoint = .fromHost receiver) || start.holds (.fromHost receiver))

section Bulk

variable {device : Device}

theorem Sound.diskIn (sound : device.Sound) :
    device.drive.identity.endpoints.diskIn = InEndpoint.disk.number := by
  rw [sound.identity]
  rfl

theorem Sound.diskOut (sound : device.Sound) :
    device.drive.identity.endpoints.diskOut = OutEndpoint.disk.number := by
  rw [sound.identity]
  rfl

theorem Sound.withDrive (sound : device.Sound) {drive : Drive boardCapacity} {events : List Event}
    {operation : Operation} (does : device.drive.Does drive events operation) :
    Sound { device with drive := drive } :=
  ⟨does.sound sound.drive, does.identity.trans sound.identity⟩

/-- A drive sends on the disk's endpoint, and only while the disk is served: `place` is the place of the
endpoint that is served. -/
structure Sends (place : Nat) (start after : Controller) : Prop where
  sent : Controller.SentOn .disk start after
  before : place < (Endpoint.toHost .disk).index → after = start

theorem Sends.holds {place : Nat} {start after : Controller} (sends : Sends place start after)
    {other : Endpoint} (later : other.index < 2 ∨ place < other.index) :
    after.holds other = start.holds other := by
  have diskPlace : (Endpoint.toHost .disk).index = 10 := rfl
  by_cases front : place < 10
  · rw [sends.before front]
  · refine sends.sent.holds fun same => ?_
    rw [same] at later
    omega

theorem onCollected_sends (sound : device.Sound) (endpoint : InEndpoint) (start : Controller) :
    (device.drive.onCollected endpoint.number).Meets start fun drive after _ =>
      Sound { device with drive := drive } ∧ Sends (Endpoint.toHost endpoint).index start after := by
  have offers : Offered InEndpoint.disk.number start
      (device.drive.onCollected endpoint.number start).link := by
    rw [← sound.diskIn]
    exact (device.drive.offering_onCollected endpoint.number).offered start
  have sends : Sends (Endpoint.toHost endpoint).index start
      (device.drive.onCollected endpoint.number start).link := by
    refine ⟨offers.sentOn, fun before => ?_⟩
    have apart : endpoint.number ≠ device.drive.identity.endpoints.diskIn := by
      rw [sound.diskIn]
      intro same
      rw [Endpoint.index, Endpoint.index, same] at before
      exact Nat.lt_irrefl _ before
    rw [Drive.onCollected_elsewhere apart]
    rfl
  refine ((Drive.collected_meets sound.drive.transfer endpoint.number start).withLink sends).mono ?_
  rintro drive after events ⟨serves, sends⟩
  have does : device.drive.Does drive events (.collected endpoint.number) :=
    .served (fun _ => Operation.noConfusion) serves
  exact ⟨sound.withDrive does, sends⟩

theorem onPacket_sends (sound : device.Sound) (endpoint : OutEndpoint) (packet : List UInt8)
    (start : Controller) :
    (device.drive.onPacket endpoint.number packet).Meets start fun drive after _ =>
      Sound { device with drive := drive } ∧
        Sends (Endpoint.fromHost endpoint).index start after := by
  have offers : Offered InEndpoint.disk.number start
      (device.drive.onPacket endpoint.number packet start).link := by
    rw [← sound.diskIn]
    exact (device.drive.offering_onPacket endpoint.number packet).offered start
  have sends : Sends (Endpoint.fromHost endpoint).index start
      (device.drive.onPacket endpoint.number packet start).link := by
    refine ⟨offers.sentOn, fun before => ?_⟩
    refine Drive.link_onPacket_elsewhere packet ?_ start
    rw [sound.diskOut]
    cases endpoint with
    | disk => exact absurd before (by decide)
    | control | console => decide
  refine ((Drive.packet_meets sound.drive.transfer endpoint.number packet start).withLink
    sends).mono ?_
  rintro drive after events ⟨does, sends⟩
  exact ⟨sound.withDrive does, sends⟩

theorem serve_meets_toHost (sound : device.Sound) {endpoint : InEndpoint}
    (bulk : endpoint ≠ .control) {start : Controller}
    (free : start.holds (.toHost endpoint) = false) :
    (device.serve (.toHost endpoint)).Meets start fun next after _ =>
      device.Served (.toHost endpoint) start next after := by
  cases endpoint with
  | control => exact absurd rfl bulk
  | notify | console | disk =>
    simp only [serve, Exchange.meets_bind, meets_raisePin, Exchange.meets_link,
      Controller.holds_write, free, Bool.false_eq_true, if_false]
    refine (onCollected_sends sound _ _).mono ?_
    rintro drive after events ⟨soundNext, sends⟩
    simp only [meets_lowerPin, Exchange.meets_pure]
    refine ⟨⟨soundNext, rfl, ?_, ?_⟩, fun other later => sends.holds later, fun receiver => ?_⟩
    · rw [Controller.controlSide_write _ rfl, sends.sent.controlSide InEndpoint.noConfusion,
        Controller.controlSide_write _ rfl]
    · exact .write (.trans (.write (.refl start) rfl) sends.sent.owned) rfl
    · exact sends.sent.holds Endpoint.noConfusion

theorem serve_meets_fromHost (sound : device.Sound) {endpoint : OutEndpoint}
    (bulk : endpoint ≠ .control) {start : Controller}
    (free : start.holds (.fromHost endpoint) = false) :
    (device.serve (.fromHost endpoint)).Meets start fun next after _ =>
      device.Served (.fromHost endpoint) start next after := by
  cases endpoint with
  | control => exact absurd rfl bulk
  | console | disk =>
    simp only [serve, Exchange.meets_bind, meets_raisePin, Exchange.meets_link,
      Controller.holds_write, free, Bool.false_eq_true, if_false]
    refine (onPacket_sends sound _ _ _).mono ?_
    rintro drive after events ⟨soundNext, sends⟩
    simp only [meets_armOut _ _ _ (Nat.le_refl maxPacket), meets_lowerPin, Exchange.meets_pure]
    refine ⟨⟨soundNext, rfl, ?_, ?_⟩, ?_, ?_⟩
    · rw [Controller.controlSide_write _ rfl,
        Controller.controlSide_armOut _ _ OutEndpoint.noConfusion,
        sends.sent.controlSide InEndpoint.noConfusion, Controller.controlSide_write _ rfl]
    · refine .write (.armOut (.trans (.write (.refl start) rfl) sends.sent.owned) maxPacket ?_) rfl
      intro _
      rw [sends.sent.holds Endpoint.noConfusion]
      exact free
    · intro other later
      rw [Controller.holds_write, Controller.holds_armOut, if_neg, sends.holds later,
        Controller.holds_write]
      intro same
      rw [same] at later
      exact absurd later (by decide)
    · intro receiver
      rw [Controller.holds_write, Controller.holds_armOut, sends.sent.holds Endpoint.noConfusion,
        Controller.holds_write]
      cases receiver <;> rfl

theorem serve_meets (sound : device.Sound) {endpoint : Endpoint} (bulk : 2 ≤ endpoint.index)
    {start : Controller} (free : start.holds endpoint = false) :
    (device.serve endpoint).Meets start fun next after _ =>
      device.Served endpoint start next after := by
  cases endpoint with
  | toHost endpoint =>
    refine serve_meets_toHost sound ?_ free
    rintro rfl
    exact absurd bulk (by decide)
  | fromHost endpoint =>
    refine serve_meets_fromHost sound ?_ free
    rintro rfl
    exact absurd bulk (by decide)

end Bulk

/-! ## All buffers of a turn -/

theorem Drove.trans {device middle next : Device} {start between after : Controller}
    (before : device.Drove start middle between) (later : middle.Drove between next after) :
    device.Drove start next after := by
  refine ⟨later.sound, ?_, later.side.trans before.side, before.owned.trans later.owned⟩
  rw [later.rest, before.rest]

/-- Whatever buffers of the bulk endpoints come back, in rising order, none of them is found to be held. -/
theorem serveAll_meets {device : Device} (sound : device.Sound) {places : List Nat}
    (rising : places.Pairwise (· < ·)) (bulk : ∀ index ∈ places, 2 ≤ index) {start : Controller}
    (free : ∀ endpoint : Endpoint, endpoint.index ∈ places → start.holds endpoint = false) :
    (device.serveAll places).Meets start fun next after _ =>
      device.Drove start next after ∧
        ∀ other : Endpoint, other.index < 2 → after.holds other = start.holds other := by
  induction places generalizing device start with
  | nil => exact (Exchange.meets_pure ..).mpr ⟨⟨sound, rfl, rfl, .refl start⟩, fun _ _ => rfl⟩
  | cons index rest restInduction =>
    obtain ⟨first, risingRest⟩ := List.pairwise_cons.mp rising
    obtain ⟨bulkFirst, bulkRest⟩ := List.forall_mem_cons.mp bulk
    rw [serveAll]
    cases found : Endpoint.ofIndex? index with
    | none =>
      rw [pure_bind]
      refine restInduction sound risingRest bulkRest fun endpoint present => ?_
      exact free endpoint (List.mem_cons_of_mem _ present)
    | some endpoint =>
      have place := Endpoint.index_of_ofIndex? found
      have freeFirst := free endpoint (by rw [place]; exact List.mem_cons_self)
      rw [← place] at bulkFirst
      rw [Exchange.meets_bind]
      refine (serve_meets sound bulkFirst freeFirst).mono ?_
      intro middle between events served
      have freeRest : ∀ other : Endpoint, other.index ∈ rest → between.holds other = false := by
        intro other present
        rw [served.holds other (.inr (by rw [place]; exact first _ present))]
        exact free other (List.mem_cons_of_mem _ present)
      refine (restInduction served.sound risingRest bulkRest freeRest).mono ?_
      rintro next after events ⟨drove, held⟩
      exact ⟨served.toDrove.trans drove,
        fun other control => (held other control).trans (served.holds other (.inl control))⟩

end Device

end ScriptDrive
