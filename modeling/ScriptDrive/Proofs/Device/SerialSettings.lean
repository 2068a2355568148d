import ScriptDrive.Proofs.Device.Answers
import ScriptDrive.Proofs.Device.Leftover

/-!
# Serial settings

The host announces serial settings by a request and sends them in the packet that comes back on the control
endpoint next.  `Completes` says which packets bring settings in this way, and `settings` which settings the
packets of a run leave.  `Ran` lists runs with the packets that were heard.

`turn_of_packet` cuts a turn in which a packet comes back at the place where the packet is served.
`packet_served` says what happens there, from `Settled`, which every turn keeps: settings are due exactly
while they are announced, and as long as they are, no data stage can overwrite the buffer they come in.
-/

set_option autoImplicit false

namespace ScriptDrive

/-! ## What is heard -/

/-- A turn of a run, and what lies in the control endpoint's buffer once the buffers have been handed back:
the packet from the host, if one came back. -/
structure Heard where
  presented : Presented
  packet : List UInt8

namespace Heard

def of (controller : Controller) (presented : Presented) : Heard :=
  ⟨presented, (Device.handed controller presented).received (.fromHost .control)⟩

def Announces (heard : Heard) : Prop :=
  heard.presented.request.map Setup.asks = some .setLineCoding

instance (heard : Heard) : Decidable heard.Announces :=
  inferInstanceAs (Decidable (_ = _))

/-- Neither a packet from the host on the control endpoint nor a bus reset ends what was announced. -/
def Waits (heard : Heard) : Prop :=
  ¬ heard.presented.Returns (.fromHost .control) ∧ heard.presented.busReset = false

instance (heard : Heard) : Decidable heard.Waits :=
  inferInstanceAs (Decidable (_ ∧ _))

end Heard

/-- The host has announced settings and neither sent them yet nor asked for anything else since. -/
def Announced : List Heard → Prop
  | [] => False
  | heard :: earlier => heard.Waits ∧ (heard.Announces ∨ heard.presented.setup = none ∧ Announced earlier)

instance decidableAnnounced : (history : List Heard) → Decidable (Announced history)
  | [] => inferInstanceAs (Decidable False)
  | heard :: earlier =>
    have := decidableAnnounced earlier
    inferInstanceAs (Decidable (heard.Waits ∧ (_ ∨ _ ∧ Announced earlier)))

theorem announced_iff (history : List Heard) :
    Announced history ↔ ∃ quiet asking before, history = quiet ++ asking :: before ∧ asking.Announces ∧
      (∀ turn ∈ quiet, turn.presented.setup = none) ∧ ∀ turn ∈ asking :: quiet, turn.Waits := by
  induction history with
  | nil =>
    refine iff_of_false id ?_
    rintro ⟨quiet, asking, before, parts, -⟩
    exact List.append_ne_nil_of_right_ne_nil quiet (List.cons_ne_nil asking before) parts.symm
  | cons heard earlier earlierInduction =>
    rw [Announced, earlierInduction]
    constructor
    · rintro ⟨waits, announces | ⟨noRequest, quiet, asking, before, rfl, announces, noRequests, waiting⟩⟩
      · exact ⟨[], heard, earlier, rfl, announces, List.forall_mem_nil _, List.forall_mem_singleton.mpr waits⟩
      · obtain ⟨waitsAsking, waitsQuiet⟩ := List.forall_mem_cons.mp waiting
        exact ⟨heard :: quiet, asking, before, rfl, announces,
          List.forall_mem_cons.mpr ⟨noRequest, noRequests⟩,
          List.forall_mem_cons.mpr ⟨waitsAsking, List.forall_mem_cons.mpr ⟨waits, waitsQuiet⟩⟩⟩
    · rintro ⟨quiet, asking, before, parts, announces, noRequests, waiting⟩
      obtain ⟨waitsAsking, waitsQuiet⟩ := List.forall_mem_cons.mp waiting
      cases quiet with
      | nil =>
        obtain ⟨rfl, rfl⟩ := List.cons.inj parts
        exact ⟨waitsAsking, .inl announces⟩
      | cons latest quiet =>
        obtain ⟨rfl, rest⟩ := List.cons.inj parts
        obtain ⟨noRequest, noRequests⟩ := List.forall_mem_cons.mp noRequests
        obtain ⟨waits, waitsQuiet⟩ := List.forall_mem_cons.mp waitsQuiet
        exact ⟨waits, .inr ⟨noRequest, quiet, asking, before, rest, announces, noRequests,
          List.forall_mem_cons.mpr ⟨waitsAsking, waitsQuiet⟩⟩⟩

/-- The packet of a turn is the first to come back since settings were announced in an earlier turn, and there
was no other request, not even in the same turn, and no bus reset between. -/
def Heard.Completes (heard : Heard) (earlier : List Heard) : Prop :=
  heard.presented.setup = none ∧ heard.presented.Returns (.fromHost .control) ∧
    ∃ quiet asking before, earlier = quiet ++ asking :: before ∧ asking.Announces ∧
      (∀ turn ∈ quiet, turn.presented.setup = none) ∧ ∀ turn ∈ asking :: quiet, turn.Waits

theorem Heard.completes_iff (heard : Heard) (earlier : List Heard) :
    heard.Completes earlier ↔
      heard.presented.setup = none ∧ heard.presented.Returns (.fromHost .control) ∧ Announced earlier := by
  rw [Completes, announced_iff]

instance (heard : Heard) (earlier : List Heard) : Decidable (heard.Completes earlier) :=
  decidable_of_iff _ (heard.completes_iff earlier).symm

def completing : List Heard → List (List UInt8)
  | [] => []
  | heard :: earlier =>
    if heard.Completes earlier then heard.packet :: completing earlier else completing earlier

/-- The first seven bytes of the latest packet that brings so many, and else what holds at power-up. -/
def settings (history : List Heard) : LineCoding :=
  ((completing history).findSome? fun packet => Octets.ofList? 7 (packet.take 7)).getD defaultLineCoding

theorem settings_cons (heard : Heard) (earlier : List Heard) :
    settings (heard :: earlier) =
      if heard.Completes earlier then (Octets.ofList? 7 (heard.packet.take 7)).getD (settings earlier)
      else settings earlier := by
  unfold settings
  rw [completing]
  split
  · rw [List.findSome?_cons]
    cases Octets.ofList? 7 (heard.packet.take 7) <;> rfl
  · rfl

namespace Device

/-! ## What a request and the other buffers leave -/

variable {device next : Device} {presented : Presented} {controller : Controller}

theorem lineCodingDue_asked (device : Device) (presented : Presented) :
    (device.asked presented.setup).1.lineCodingDue = true ↔
      presented.request.map Setup.asks = some .setLineCoding ∨
        presented.setup = none ∧ device.lineCodingDue = true := by
  unfold asked Presented.request
  cases presented.setup with
  | none => simp only [Option.map_none, reduceCtorEq, false_or, true_and]
  | some bytes =>
    simp only [lineCodingDue_answered, decide_eq_true_eq, Option.map_some, Option.some.injEq, reduceCtorEq,
      false_and, or_false]

theorem stage_asked (still : device.lineCodingDue = true → device.stage = {}) (setup : Option (Octets 8))
    (due : (device.asked setup).1.lineCodingDue = true) : (device.asked setup).1.stage = {} := by
  cases setup with
  | none => exact still due
  | some bytes =>
    rw [asked, lineCodingDue_answered, decide_eq_true_iff] at due
    simp only [asked, answered, due]
    rfl

theorem lineCoding_asked (device : Device) (setup : Option (Octets 8)) :
    (device.asked setup).1.lineCoding = device.lineCoding := by
  cases setup with
  | none => rfl
  | some bytes => exact device.dropped.lineCoding_answered _

theorem lineCoding_controlCollected (asked : Device) (presented : Presented) :
    (asked.controlCollected presented).lineCoding = asked.lineCoding := by
  unfold controlCollected
  split <;> rfl

/-! ## A turn with a packet -/

def beforePacket (device : Device) (presented : Presented) : Exchange Controller Device := do
  Exchange.modifyLink fun controller => presented.returned.foldl Controller.handBack controller
  let asked ← device.stepIf onSetup presented.setup
  raisePin asked.board.lampPin
  raisePin bufferPin
  asked.serveIf presented (.toHost .control)

def afterPacket (took : Device) (presented : Presented) (board : Board) : Exchange Controller Device := do
  let served ← took.serveAll (bulkPlaces presented.returned)
  writeRegister .bufferStatus (statusWord (statusPlaces presented.returned))
  lowerPin bufferPin
  served.finish presented board

theorem turn_of_packet (device : Device) (returns : presented.Returns (.fromHost .control)) :
    device.turn presented =
      device.beforePacket presented >>= fun collected =>
        collected.serve (.fromHost .control) >>= fun took => took.afterPacket presented device.board := by
  have some : ¬ (statusPlaces presented.returned).isEmpty = true := fun none =>
    not_returns_of_isEmpty none _ returns
  simp only [turn, handle_parts, notice, onBuffers, if_neg some, onReturned, serveAll_statusPlaces,
    beforePacket, afterPacket, bind_assoc, pure_bind]
  simp only [serveIf, if_pos returns]

theorem beforePacket_meets (clear : ¬ (device.asked presented.setup).1.Blocked presented
      (device.lookedAt presented controller)) (returns : presented.Returns (.fromHost .control)) :
    (device.beforePacket presented).Meets controller fun collected between _ =>
      collected = (device.asked presented.setup).1.controlCollected presented ∧
        between.holds (.fromHost .control) = false ∧
        between.acts = controller.acts ++ ((device.asked presented.setup).2.toList ++
          if presented.Returns (.toHost .control) then
            [(device.asked presented.setup).1.unfinished.collected.2]
          else []) := by
  simp only [beforePacket, Exchange.meets_bind, Exchange.meets_modifyLink, meets_raisePin]
  refine (device.stepIf_meets_asked presented.setup (handed controller presented)).mono ?_
  rintro asked looked events ⟨rfl, did⟩
  refine ((device.asked presented.setup).1.serveIf_meets_collected ?_).mono ?_
  · intro returnsIn
    refine Bool.eq_false_iff.mpr fun held => clear (.inl ⟨returnsIn, ?_⟩)
    exact (did.holds _).symm.trans held
  · rintro collected between more ⟨collectedIs, acts, -, heldOut⟩
    refine ⟨collectedIs, ?_, ?_⟩
    · refine Bool.eq_false_iff.mpr fun held => clear (.inr ⟨returns, ?_⟩)
      exact (heldOut.mp held).imp (did.holds _).symm.trans id
    · rw [acts, Controller.acts_write_of_none _ rfl, Controller.acts_write_of_none _ rfl, did.acts,
        acts_handed, List.append_assoc]

/-- While no data stage is open, nothing overwrites the packet before it is served. -/
theorem beforePacket_received (noRequest : presented.setup = none) (still : device.stage = {})
    (noRoom : presented.Returns (.toHost .control) → device.unfinished.collected.2 ≠ .room 0)
    (controller : Controller) :
    (device.beforePacket presented).Yields controller fun _ between =>
      between.received (.fromHost .control) = (handed controller presented).received (.fromHost .control) := by
  unfold beforePacket serveIf
  rw [noRequest, stepIf]
  refine Exchange.Meets.thenYields ((Exchange.meets_modifyLink ..).mpr ?_)
  rw [pure_bind]
  refine Exchange.Meets.thenYields ((meets_raisePin ..).mpr (Exchange.Meets.thenYields
    ((meets_raisePin ..).mpr ?_)))
  split
  · rename_i returnsIn
    refine device.serve_yields_attend (.toHost .control) _ fun _ => ?_
    refine (device.onControlCollected_meets _).yields ?_
    rintro collected between events ⟨-, rfl⟩
    have unsent (packet : Packet) : device.unfinished.collected.2 ≠ .send packet := by
      unfold Unfinished.collected unfinished
      dsimp only
      rw [still]
      cases device.newAddress <;> exact ControlAct.noConfusion
    rcases act_collected device.unfinished with ⟨value, actIs⟩ | ⟨packet, actIs⟩ | actIs
    · rw [actIs]
      rfl
    · exact absurd actIs (unsent packet)
    · exact absurd actIs (noRoom returnsIn)
  · exact Exchange.yields_pure _ _ rfl

/-- What serving a packet comes to.  Settings that complete an announcement are taken over if they are long
enough, and acknowledged.  Any other packet changes and arms nothing. -/
def packetServed (collected : Device) (heard : Heard) (earlier : List Heard) (between : Controller) :
    Reply Controller Device :=
  let pin := bit (servicePin (.fromHost .control))
  let raised := between.write (.register .pinRaise pin)
  if heard.Completes earlier then
    ⟨.ok { collected with lineCodingDue := false, lineCoding := settings (heard :: earlier) },
      (raised.armIn .control .empty).write (.register .pinLower pin), []⟩
  else
    ⟨.ok collected, raised.write (.register .pinLower pin), []⟩

structure Settled (device : Device) (history : List Heard) : Prop where
  due : device.lineCodingDue = true ↔ Announced history
  /-- A request for settings drops the data stage before it and opens none. -/
  still : device.lineCodingDue = true → device.stage = {}
  lineCoding : device.lineCoding = settings history

/-- There is room for the settings from the request for them on. -/
theorem holds_lookedAt (announces : presented.request.map Setup.asks = some .setLineCoding)
    (controller : Controller) :
    (device.lookedAt presented controller).holds (.fromHost .control) = true := by
  obtain ⟨setup, requested, asks⟩ := Option.map_eq_some_iff.mp announces
  obtain ⟨bytes, brought, rfl⟩ := Option.map_eq_some_iff.mp requested
  rw [lookedAt, brought]
  simp only [asked, answered, asks]
  exact (Controller.holds_act _ (.room maxPacket) _).trans (if_pos rfl)

/-- Of the packets that come back, settings are due in those that complete an announcement. -/
theorem Settled.due_asked {history : List Heard} (settled : device.Settled history)
    (clear : ¬ (device.asked presented.setup).1.Blocked presented (device.lookedAt presented controller))
    (returns : presented.Returns (.fromHost .control)) :
    (device.asked presented.setup).1.lineCodingDue = true ↔
      (Heard.of controller presented).Completes history := by
  rw [lineCodingDue_asked, settled.due, Heard.completes_iff]
  constructor
  · rintro (announces | ⟨noRequest, announced⟩)
    · -- The room that this request makes is still the controller's.
      exact absurd (.inr ⟨returns, .inl (holds_lookedAt announces controller)⟩) clear
    · exact ⟨noRequest, returns, announced⟩
  · rintro ⟨noRequest, -, announced⟩
    exact .inr ⟨noRequest, announced⟩

/-- A packet is served as what was heard before demands. -/
theorem Settled.packet_served {history : List Heard} (settled : device.Settled history)
    (clear : ¬ (device.asked presented.setup).1.Blocked presented (device.lookedAt presented controller))
    (returns : presented.Returns (.fromHost .control)) :
    ∃ collected, (device.beforePacket presented controller).result = .ok collected ∧
      collected = (device.asked presented.setup).1.controlCollected presented ∧
      collected.serve (.fromHost .control) (device.beforePacket presented controller).link =
        collected.packetServed (.of controller presented) history
          (device.beforePacket presented controller).link := by
  obtain ⟨collected, result, collectedIs, free, -⟩ := beforePacket_meets clear returns
  refine ⟨collected, result, collectedIs, ?_⟩
  rw [serve_control collected free, packetServed]
  have due : collected.lineCodingDue = true ↔ (Heard.of controller presented).Completes history := by
    rw [collectedIs, lineCodingDue_controlCollected]
    exact settled.due_asked clear returns
  by_cases completes : (Heard.of controller presented).Completes history
  · obtain ⟨noRequest, -, announced⟩ : presented.setup = none ∧ _ := (Heard.completes_iff _ _).mp completes
    have askedIs : (device.asked presented.setup).1 = device := by
      rw [noRequest]
      rfl
    rw [askedIs] at clear collectedIs
    have noRoom (returnsIn : presented.Returns (.toHost .control)) :
        device.unfinished.collected.2 ≠ .room 0 := fun room =>
      clear (.inr ⟨returns, .inr ⟨returnsIn, room⟩⟩)
    have received : (device.beforePacket presented controller).link.received (.fromHost .control) =
        (Heard.of controller presented).packet :=
      beforePacket_received noRequest (settled.still (settled.due.mpr announced)) noRoom controller collected
        result
    have lineCoding : collected.lineCoding = settings history := by
      rw [collectedIs, lineCoding_controlCollected, settled.lineCoding]
    rw [if_pos completes, settings_cons, if_pos completes, tookControl, if_pos (due.mpr completes), received,
      lineCoding]
    rfl
  · rw [if_neg completes, tookControl, if_neg fun isDue => completes (due.mp isDue)]
    rfl

/-! ## Turns -/

theorem of_packetServed {collected took : Device} {heard : Heard} {earlier : List Heard} {between : Controller}
    (before : collected.lineCoding = settings earlier)
    (served : (collected.packetServed heard earlier between).result = .ok took) :
    took.drive = collected.drive ∧ took.lineCoding = settings (heard :: earlier) := by
  unfold packetServed at served
  dsimp only at served
  split at served
  · obtain rfl := Except.ok.inj served
    exact ⟨rfl, rfl⟩
  · rename_i apart
    obtain rfl := Except.ok.inj served
    rw [settings_cons, if_neg apart]
    exact ⟨rfl, before⟩

theorem sound_controlCollected {asked : Device} (sound : asked.Sound) (presented : Presented) :
    (asked.controlCollected presented).Sound :=
  sound.of_drive (asked.drive_controlCollected presented)

theorem afterPacket_lineCoding (sound : device.Sound) (presented : Presented) (board : Board)
    (start : Controller) :
    (device.afterPacket presented board).Yields start fun next _ => next.lineCoding = device.lineCoding := by
  refine Exchange.Yields.bind ((serveAll_drove sound bulk_of_mem_bulkPlaces start).mono ?_)
  intro served between drove
  refine Exchange.Meets.thenYields ((meets_writeRegister ..).mpr (Exchange.Meets.thenYields
    ((meets_lowerPin ..).mpr ((finish_sound drove.sound presented board _).mono ?_))))
  rintro next after ⟨-, -, -, kept⟩
  rw [kept, drove.rest]

theorem serveIf_controlCollected (device : Device) (presented : Presented) (start : Controller) :
    (device.serveIf presented (.toHost .control)).Yields start fun next _ =>
      next = device.controlCollected presented := by
  unfold serveIf controlCollected
  split
  · cases held : start.holds (.toHost .control) with
    | true => exact (device.serve_halts held).yields _
    | false =>
      refine (device.serve_meets_collected held).yields ?_
      rintro next after events ⟨nextIs, -⟩
      exact nextIs
  · exact Exchange.yields_pure _ _ rfl

/-- Without a packet from the host the settings stay. -/
theorem turn_lineCoding (sound : device.Sound) (noPacket : ¬ presented.Returns (.fromHost .control))
    (controller : Controller) :
    (device.turn presented).Yields controller fun next _ => next.lineCoding = device.lineCoding := by
  refine Exchange.Meets.thenYields ((Exchange.meets_modifyLink ..).mpr ?_)
  rw [handle_eq]
  refine Exchange.Meets.thenYields ((device.stepIf_meets_asked presented.setup _).mono ?_)
  rintro asked looked events ⟨rfl, -⟩
  have soundAsked := sound_asked sound presented.setup
  have kept := device.lineCoding_asked presented.setup
  refine Exchange.Yields.bind (onBuffers_yields_serveAll _ presented looked ?_ ?_)
  · intro _
    refine (finish_sound soundAsked presented device.board _).mono ?_
    rintro next after ⟨-, -, -, same⟩
    exact same.trans kept
  · rw [serveAll_statusPlaces]
    refine Exchange.Yields.bind ((serveIf_controlCollected _ presented _).mono ?_)
    rintro collected between rfl
    rw [serveIf, if_neg noPacket, pure_bind]
    have soundCollected := sound_controlCollected soundAsked presented
    refine (serveAll_drove soundCollected bulk_of_mem_bulkPlaces between).mono ?_
    intro served after drove
    refine (finish_sound drove.sound presented device.board _).mono ?_
    rintro next last ⟨-, -, -, same⟩
    rw [same, drove.rest]
    exact (lineCoding_controlCollected _ presented).trans kept

theorem lineCodingDue_afterServing (left : Unfinished) (presented : Presented) :
    (left.afterServing presented).lineCodingDue = true ↔
      (¬ presented.Returns (.fromHost .control) ∧ presented.busReset = false) ∧ left.lineCodingDue = true := by
  have collected := left.lineCodingDue_collected
  unfold Unfinished.afterServing
  dsimp only
  cases presented.busReset with
  | true => simp
  | false =>
    rw [if_neg Bool.false_ne_true]
    by_cases returns : presented.Returns (.fromHost .control)
    · simp [returns]
    · rw [if_neg returns]
      split
      · simp [returns, collected]
      · simp [returns]

theorem stage_afterServing {left : Unfinished} (still : left.stage = {}) (presented : Presented) :
    (left.afterServing presented).stage = {} := by
  obtain ⟨address, stage, due⟩ := left
  obtain rfl : stage = {} := still
  have collected : (Unfinished.collected ⟨address, {}, due⟩).1.stage = {} := by
    cases address <;> rfl
  have served : (if presented.Returns (.toHost .control) then (Unfinished.collected ⟨address, {}, due⟩).1
      else ⟨address, {}, due⟩).stage = {} := by
    split
    · exact collected
    · rfl
  unfold Unfinished.afterServing
  dsimp only
  split
  · rfl
  · split
    · exact served
    · exact served

theorem Settled.turn {history : List Heard} (settled : device.Settled history) (sound : device.Sound)
    (released : presented.Released) (turned : (device.turn presented controller).result = .ok next) :
    next.Settled (.of controller presented :: history) := by
  obtain ⟨-, left, -⟩ := turn_of_ok sound released turned
  have leftDue : next.lineCodingDue = _ := congrArg Unfinished.lineCodingDue left
  have leftStage : next.stage = _ := congrArg Unfinished.stage left
  have due := lineCodingDue_afterServing (device.asked presented.setup).1.unfinished presented
  rw [← leftDue] at due
  refine ⟨?_, fun isDue => ?_, ?_⟩
  · rw [due, Announced, ← settled.due]
    exact and_congr_right fun _ => device.lineCodingDue_asked presented
  · rw [leftStage]
    exact stage_afterServing (stage_asked settled.still _ (due.mp isDue).2) presented
  · by_cases returns : presented.Returns (.fromHost .control)
    · have clear := not_blocked_of_turn turned
      obtain ⟨collected, result, collectedIs, served⟩ := settled.packet_served clear returns
      rw [turn_of_packet device returns] at turned
      obtain ⟨other, otherResult, goesOn, -⟩ := Exchange.of_bind_ok turned
      rw [result] at otherResult
      obtain rfl := Except.ok.inj otherResult
      obtain ⟨took, tookResult, finished, -⟩ := Exchange.of_bind_ok goesOn
      have before : collected.lineCoding = settings history := by
        rw [collectedIs, lineCoding_controlCollected, lineCoding_asked, settled.lineCoding]
      rw [served] at tookResult
      obtain ⟨sameDrive, lineCoding⟩ := of_packetServed before tookResult
      have soundCollected : collected.Sound :=
        collectedIs ▸ sound_controlCollected (sound_asked sound presented.setup) presented
      rw [← lineCoding]
      exact afterPacket_lineCoding (soundCollected.of_drive sameDrive) presented device.board _ next finished
    · have apart : ¬ (Heard.of controller presented).Completes history := fun completes =>
        returns completes.2.1
      rw [settings_cons, if_neg apart, ← settled.lineCoding]
      exact turn_lineCoding sound returns controller next turned

/-- A request for the settings is answered by them, and nothing else is done but for a bus reset. -/
theorem acts_of_getLineCoding (sound : device.Sound) (released : presented.Released)
    (turned : (device.turn presented controller).result = .ok next) {bytes : Octets 8}
    (brought : presented.setup = some bytes) (asks : (Setup.ofBytes bytes).asks = .getLineCoding) :
    (device.turn presented controller).link.acts = controller.acts ++
      (.send (.front (device.lineCoding.bytes.take (Setup.ofBytes bytes).length.toNat)) ::
        if presented.busReset = true then [.address 0] else []) := by
  obtain ⟨-, -, acts⟩ := turn_of_ok sound released turned
  have answer : (device.asked presented.setup).2 =
      some (.send (.front (device.lineCoding.bytes.take (Setup.ofBytes bytes).length.toNat))) := by
    rw [brought]
    simp only [asked, answered, asks]
    rfl
  have notCollected : ¬ presented.Returns (.toHost .control) := by
    intro returnsIn
    refine not_blocked_of_turn turned (.inl ⟨returnsIn, ?_⟩)
    rw [lookedAt, answer]
    exact (Controller.holds_act _ (.send _) _).trans (if_pos rfl)
  have notDue : ¬ (device.asked presented.setup).1.lineCodingDue = true := by
    rw [brought, asked, lineCodingDue_answered, asks]
    decide
  rw [acts, turnActs, controlActs, if_neg notCollected, if_neg fun both => notDue both.2, answer]
  rfl

/-- Behind what a turn does before it serves a packet, only an acknowledgement follows, if the packet completes
an announcement, and the address that a bus reset takes away. -/
theorem Settled.acts_of_packet {history : List Heard} (settled : device.Settled history) (sound : device.Sound)
    (released : presented.Released) (turned : (device.turn presented controller).result = .ok next)
    (returns : presented.Returns (.fromHost .control)) :
    (device.turn presented controller).link.acts = (device.beforePacket presented controller).link.acts ++
      ((if (Heard.of controller presented).Completes history then [.send .empty] else []) ++
        if presented.busReset = true then [.address 0] else []) := by
  have clear := not_blocked_of_turn turned
  obtain ⟨-, -, acts⟩ := turn_of_ok sound released turned
  obtain ⟨-, -, -, -, before⟩ := beforePacket_meets clear returns
  rw [acts, before, turnActs, controlActs]
  simp only [settled.due_asked clear returns, returns, true_and, List.append_assoc]

/-! ## Runs -/

/-- The states that turns lead to from power-up, with what was heard in each, the newest in front.  In no turn
is a buffer stuck. -/
inductive Ran (board : Board) : Device → Controller → List Heard → Prop
  | powerUp {device : Device} (resets : UInt32) (started : Device.powerUp board = .ok device) :
      Ran board device (.powerUp (bringUpWrites board resets)) []
  | turn {device next : Device} {controller : Controller} {history : List Heard} {presented : Presented}
      (before : Ran board device controller history) (released : presented.Released)
      (turned : (device.turn presented controller).result = .ok next) :
      Ran board next (device.turn presented controller).link (.of controller presented :: history)

theorem Ran.settled {board : Board} {history : List Heard} (ran : Ran board device controller history) :
    device.Sound ∧ device.Settled history := by
  induction ran with
  | powerUp resets started =>
    obtain ⟨sound, -⟩ := of_powerUp started
    obtain ⟨drive, rfl⟩ := eq_of_powerUp started
    exact ⟨sound, iff_of_false Bool.false_ne_true id, fun _ => rfl, rfl⟩
  | turn before released turned settledBefore =>
    obtain ⟨sound, settled⟩ := settledBefore
    exact ⟨(turn_of_ok sound released turned).1, settled.turn sound released turned⟩

/-- In every run, what the host is told of the serial settings is what the latest packet set that completed an
announcement and was long enough.  Every packet that completes one is acknowledged, and any other packet from
the host changes and arms nothing. -/
theorem Ran.latest_settings {board : Board} {history : List Heard} (ran : Ran board device controller history)
    (released : presented.Released) (turned : (device.turn presented controller).result = .ok next) :
    let heard := Heard.of controller presented
    let before := (device.beforePacket presented controller).link
    let after := (device.turn presented controller).link
    let reset : List ControlAct := if presented.busReset = true then [.address 0] else []
    (∀ bytes, presented.setup = some bytes → (Setup.ofBytes bytes).asks = .getLineCoding →
      after.acts = controller.acts ++
        (.send (.front ((settings history).bytes.take (Setup.ofBytes bytes).length.toNat)) :: reset)) ∧
    next.lineCoding = settings (heard :: history) ∧
    (presented.Returns (.fromHost .control) →
      (device.turn presented = device.beforePacket presented >>= fun collected =>
        collected.serve (.fromHost .control) >>= fun took => took.afterPacket presented device.board) ∧
      (∃ collected, (device.beforePacket presented controller).result = .ok collected ∧
        collected.serve (.fromHost .control) before = collected.packetServed heard history before) ∧
      after.acts = before.acts ++
        ((if heard.Completes history then [.send .empty] else []) ++ reset)) := by
  intro heard before after reset
  obtain ⟨sound, settled⟩ := ran.settled
  refine ⟨fun bytes brought asks => ?_, (settled.turn sound released turned).lineCoding, fun returns => ?_⟩
  · rw [← settled.lineCoding]
    exact acts_of_getLineCoding sound released turned brought asks
  · obtain ⟨collected, result, -, served⟩ := settled.packet_served (not_blocked_of_turn turned) returns
    exact ⟨turn_of_packet device returns, ⟨collected, result, served⟩,
      settled.acts_of_packet sound released turned returns⟩

def announcing : Presented :=
  { setup := some ⟨[0x21, 0x20, 0, 0, 0, 0, 7, 0], rfl⟩ }

/-- The host sends 9600 bits per second, one stop bit, no parity, eight data bits. -/
def sending : Presented :=
  { returned := [{ data := [0x80, 0x25, 0, 0, 0, 0, 8], length := 7, address := 0 }] }

def askingBack : Presented :=
  { setup := some ⟨[0xA1, 0x21, 0, 0, 0, 0, 5, 0], rfl⟩ }

theorem Ran.latest_settings_sent :
    ∃ device next controller history, Ran .pico device controller history ∧
      (device.turn askingBack controller).result = .ok next ∧
      (device.turn askingBack controller).link.acts =
        controller.acts ++ [.send (.front [0x80, 0x25, 0, 0, 0])] := by
  have ran : (poweredUp [announcing, sending, askingBack]).any (fun last =>
      decide (last.1.lineCoding.bytes = [0x80, 0x25, 0, 0, 0, 0, 8])) = true := by
    decide +kernel
  simp only [Option.any_eq_true, decide_eq_true_eq] at ran
  obtain ⟨last, went, lineCoding⟩ := ran
  obtain ⟨device, started, -⟩ := powerUp_ok .pico
  rw [poweredUp, started] at went
  obtain ⟨announced, announcedIs, goesOn⟩ := of_turns_cons went
  obtain ⟨sent, sentIs, asksBack⟩ := of_turns_cons goesOn
  obtain ⟨next, turned, finished⟩ := of_turns_cons asksBack
  obtain rfl := Option.some.inj finished
  have releasedSending : sending.Released := by
    rw [Presented.Released]
    decide
  have begun := (Ran.powerUp 0 started).turn (released_of_returned rfl) announcedIs
  have history := begun.turn releasedSending sentIs
  obtain ⟨answers, leaves, -⟩ := history.latest_settings (released_of_returned rfl) turned
  -- The request that asks back brings no settings itself.
  rw [settings_cons, if_neg fun completes => Option.some_ne_none _ completes.1] at leaves
  refine ⟨sent, next, _, _, history, turned, ?_⟩
  rw [answers _ rfl (by decide), ← leaves, lineCoding]
  rfl

end Device

end ScriptDrive
