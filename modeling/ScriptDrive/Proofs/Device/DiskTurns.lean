import ScriptDrive.Proofs.Device.Address
import ScriptDrive.Proofs.Device.DiskService
import ScriptDrive.Proofs.Device.Erasure

/-!
# The disk in a turn

The parts of a turn around its buffers, and then the whole turn, as far as the disk is concerned.  Of all
requests only one touches the transport; the drive's own work tends the disk as serving it does; and a bus
reset drops what is in flight and takes back the packet that waits.  `turn_handles` puts the parts together.
-/

set_option autoImplicit false

namespace ScriptDrive

open Exchange

def Presented.AsksReset (presented : Presented) : Prop :=
  presented.request.map Setup.asks = some (.disk 0xFF)

instance (presented : Presented) : Decidable presented.AsksReset :=
  inferInstanceAs (Decidable (_ = _))

theorem ClassRequest.ofCode?_eq_bulkOnlyReset_iff (code : UInt8) :
    ClassRequest.ofCode? code.toNat = some .bulkOnlyReset ↔ code = 0xFF := by
  constructor
  · intro found
    unfold ofCode? at found
    split at found
    · cases found
    · rename_i codeIs
      exact UInt8.toNat_inj.mp codeIs
    · cases found
  · rintro rfl
    rfl

namespace Device

variable {device next : Device} {start between : Controller}

/-! ## The request of a turn -/

theorem storage_requested (drive : Drive boardCapacity) (code : UInt8) :
    (drive.requested code).1.storage = if code = 0xFF then drive.storage.reset else drive.storage := by
  have resets := ClassRequest.ofCode?_eq_bulkOnlyReset_iff code
  unfold Drive.requested
  split
  · rename_i other
    rw [other] at resets
    have apart : code ≠ 0xFF := fun same => ClassRequest.noConfusion (Option.some.inj (resets.mpr same))
    rw [if_neg apart]
  · rename_i other
    rw [if_pos (resets.mp other)]
  · rename_i other
    rw [other] at resets
    have apart : code ≠ 0xFF := fun same => Option.some_ne_none _ (resets.mpr same).symm
    rw [if_neg apart]

/-- Of all requests only that one touches the transport. -/
theorem storage_asked (device : Device) (presented : Presented) :
    (device.asked presented.setup).1.drive.storage =
      if presented.AsksReset then device.drive.storage.reset else device.drive.storage := by
  split
  · rename_i resets
    obtain ⟨setup, requested, asksIs⟩ := Option.map_eq_some_iff.mp resets
    obtain ⟨bytes, brought, rfl⟩ := Option.map_eq_some_iff.mp requested
    rw [brought]
    unfold asked answered
    dsimp only
    rw [asksIs]
    exact (storage_requested _ _).trans (if_pos rfl)
  · rename_i noReset
    unfold asked
    cases brought : presented.setup with
    | none => rfl
    | some bytes =>
      have apart : (Setup.ofBytes bytes).asks ≠ .disk 0xFF := by
        intro asksIs
        apply noReset
        rw [Presented.AsksReset, Presented.request, brought, Option.map_some, Option.map_some, asksIs]
      unfold answered
      dsimp only
      revert apart
      cases (Setup.ofBytes bytes).asks with
      | disk code =>
        intro apart
        exact (storage_requested _ _).trans (if_neg fun same => apart (congrArg _ same))
      | getDescriptor name => cases name <;> exact fun _ => rfl
      | setAddress | setConfiguration | otherCommand | otherQuery | setLineCoding | getLineCoding
      | setControlLineState | foreign => exact fun _ => rfl

theorem stepIf_leaves (device : Device) (setup : Option (Octets 8)) (start : Controller) :
    (device.stepIf onSetup setup).Meets start fun next after _ =>
      next = (device.asked setup).1 ∧
        ∀ endpoint : Endpoint, 2 ≤ endpoint.index → Controller.Leaves endpoint start after := by
  cases setup with
  | none => exact (Exchange.meets_pure ..).mpr ⟨rfl, fun _ _ => .refl start⟩
  | some bytes =>
    refine (device.onSetup_meets_acted bytes start).mono ?_
    rintro next after events ⟨rfl, rfl⟩
    refine ⟨rfl, fun endpoint bulk => .write (.acted ?_ bulk _) rfl⟩
    exact .setNext (.setNext (.write (.write (.write (.refl start) rfl) rfl) rfl)
      (apart_control_in bulk) true) (apart_control_out bulk) true

theorem stepIf_tends (sound : device.Sound) (presented : Presented) (start : Controller) :
    (device.stepIf onSetup presented.setup).Meets start fun next after _ =>
      next = (device.asked presented.setup).1 ∧ device.Tends start next after ∧
        Controller.Leaves (.toHost .disk) start after ∧ Controller.Leaves (.fromHost .disk) start after := by
  refine (device.stepIf_leaves presented.setup start).mono ?_
  rintro next after events ⟨rfl, leaves⟩
  have disk := leaves (.toHost .disk) (by decide)
  refine ⟨rfl, ⟨sound_asked sound presented.setup, .of_leaves disk ?_, fun idle => ⟨?_, disk.slot⟩⟩, disk,
    leaves (.fromHost .disk) (by decide)⟩
  · rw [storage_asked]
    split
    · exact List.nil_prefix
    · exact List.prefix_rfl
  · rw [storage_asked]
    split
    · rfl
    · exact idle

/-! ## The drive's own work -/

theorem poll_tends (sound : device.Sound) (start : Controller) :
    device.drive.poll.Meets start fun result after _ =>
      device.Tends start { device with drive := result.1 } after := by
  have offers : Offering InEndpoint.disk.number (device.drive.poll : Exchange Controller _) := by
    rw [← sound.diskIn]
    exact device.drive.offering_poll
  obtain ⟨result, resultIs, serves, -⟩ := Drive.polled_meets sound.drive.transfer start
  have does : device.drive.Does result.1 _ .poll := .served (fun _ => Operation.noConfusion) serves
  exact ⟨result, resultIs, tends_of_does sound does not_false rfl (offers.grows start)⟩

theorem Tends.takeChanged (sound : device.Sound) (start : Controller) :
    device.Tends start { device with drive := device.drive.takeChanged.1 } start :=
  tends_of_does sound (.cleaned rfl rfl rfl) not_false rfl (.nothing start)

/-- What goes to the console does not go to the disk. -/
theorem Tends.console {α : Type} {work : Exchange Controller α}
    (offers : Offering InEndpoint.console.number work) (tends : device.Tends start next between) :
    work.Yields between fun _ after => device.Tends start next after := by
  intro _ _
  exact tends.trans (.of_leaves tends.sound rfl (offers.leaves (by decide) (by decide) between))

theorem run_tends (sound : device.Sound) (start : Controller) :
    device.run.Yields start fun next after => device.Tends start next after := by
  unfold run
  split
  · refine Exchange.Meets.thenYields ((poll_tends sound start).mono ?_)
    rintro ⟨polled, input⟩ between events tends
    dsimp only at tends ⊢
    refine Exchange.Yields.bind ((tends.console (offering_echo input.flatten)).mono ?_)
    intro _ echoed tendsEchoed
    have clean : device.Tends start { device with drive := polled.takeChanged.1 } echoed :=
      tendsEchoed.trans (.takeChanged tendsEchoed.sound echoed)
    split
    · refine Exchange.Yields.bind ((clean.console (offering_announce clean.sound)).mono ?_)
      intro _ announced tendsAnnounced
      exact Exchange.yields_pure _ _ tendsAnnounced
    · exact Exchange.yields_pure _ _ clean
  · exact Exchange.yields_pure _ _ (.of_leaves sound rfl (.refl start))

theorem start_tends (sound : device.Sound) (start : Controller) :
    device.start.Yields start fun next after => device.Tends start next after := by
  refine (device.start_meets start).yields ?_
  intro next after events begins
  split at begins
  · obtain ⟨rfl, rfl⟩ := begins
    have room : Controller.Leaves (.toHost .disk) start (receiving start) :=
      ((Controller.Leaves.refl start).armOut Endpoint.noConfusion maxPacket).armOut
        Endpoint.noConfusion maxPacket
    exact .of_leaves (sound.of_drive rfl) rfl room
  · obtain ⟨rfl, rfl⟩ := begins
    exact .of_leaves sound rfl (.refl _)

theorem finish_tends (sound : device.Sound) {presented : Presented} (kept : presented.busReset = false)
    (board : Board) (start : Controller) :
    (device.finish presented board).Yields start fun next after => device.Tends start next after := by
  unfold finish settle
  rw [kept, if_neg Bool.false_ne_true, pure_bind]
  refine Exchange.Yields.bind ((start_tends sound start).mono ?_)
  intro begun armed tends
  refine Exchange.Yields.bind ((run_tends tends.sound armed).mono ?_)
  intro done after later
  have both := tends.trans later
  have lowered : Controller.Leaves (.toHost .disk) after
      (after.write (.register .pinLower (bit board.lampPin))) := (Controller.Leaves.refl after).write rfl
  exact Exchange.Meets.thenYields ((meets_lowerPin ..).mpr
    (Exchange.yields_pure _ _ (both.trans (.of_leaves both.sound rfl lowered))))

/-! ## A bus reset -/

theorem packetsFor_disarm (controller : Controller) (endpoint other : Endpoint) :
    (controller.disarm other).packetsFor endpoint = controller.packetsFor endpoint :=
  (Controller.packetsFor_write ..).trans (List.append_nil _)

theorem packetsFor_disarmAll (controller : Controller) (endpoint : Endpoint) (endpoints : List Endpoint) :
    (endpoints.foldl Controller.disarm controller).packetsFor endpoint =
      controller.packetsFor endpoint := by
  induction endpoints generalizing controller with
  | nil => rfl
  | cons other rest restInduction => rw [List.foldl_cons, restInduction, packetsFor_disarm]

theorem packetsFor_wipedController (board : Board) (controller : Controller) (endpoint : Endpoint) :
    (wipedController board controller).packetsFor endpoint = controller.packetsFor endpoint := by
  have silent (controller : Controller) (register : Register) (value : UInt32) :
      (controller.write (.register register value)).packetsFor endpoint =
        controller.packetsFor endpoint :=
    (Controller.packetsFor_write ..).trans (List.append_nil _)
  simp only [wipedController, silent, packetsFor_disarmAll]

/-- A bus reset leaves the transport idle and nothing to be collected from the disk. -/
theorem finish_drops (served : Device) {presented : Presented} (reset : presented.busReset = true)
    (board : Board) (start : Controller) :
    (served.finish presented board).Yields start fun next after =>
      next.drive.storage.transfer = .idle ∧ after.holds (.toHost .disk) = false ∧
        Supplies served.drive.storage.due start next.drive.storage.due after := by
  refine (served.finish_wiped reset board start).yields ?_
  rintro next after events ⟨rfl, rfl⟩
  refine ⟨rfl, rfl, .of_packets ?_ List.nil_prefix⟩
  exact (Controller.packetsFor_write ..).trans
    ((List.append_nil _).trans (packetsFor_wipedController ..))

/-! ## The whole turn -/

theorem slot_handed {presented : Presented} {endpoint : Endpoint} (kept : ¬ presented.Returns endpoint)
    (controller : Controller) : (handed controller presented).slot endpoint = controller.slot endpoint := by
  have elsewhere : ∀ buffer ∈ presented.returned, buffer.index ≠ endpoint.index :=
    fun buffer present same => kept ⟨buffer, present, same⟩
  unfold handed
  generalize presented.returned = returned at elsewhere
  induction returned generalizing controller with
  | nil => rfl
  | cons buffer rest restInduction =>
    obtain ⟨first, others⟩ := List.forall_mem_cons.mp elsewhere
    rw [List.foldl_cons, restInduction _ others, Controller.slot_handBack, if_neg first]

theorem packetsFor_handed (controller : Controller) (presented : Presented) (endpoint : Endpoint) :
    (handed controller presented).packetsFor endpoint = controller.packetsFor endpoint := by
  rw [Controller.packetsFor, writes_handed]
  rfl

/-- Unless the controller holds on to it, a buffer that came back is the device's. -/
theorem holds_handed_of_free {presented : Presented} {controller : Controller} {endpoint : Endpoint}
    (free : presented.Returns endpoint → (handed controller presented).holds endpoint = false) :
    (handed controller presented).holds endpoint =
      (controller.holds endpoint && !decide (presented.Returns endpoint)) := by
  by_cases returns : presented.Returns endpoint
  · rw [free returns, decide_eq_true returns, Bool.not_true, Bool.and_false]
  · rw [Controller.holds, slot_handed returns, decide_eq_false returns, Bool.not_false, Bool.and_true]
    rfl

/-- What a turn does to the transport and to the packet that waits on the disk's endpoint.  `reset` tells
whether a bus reset has been handled already. -/
structure Handles (device : Device) (presented : Presented) (controller : Controller) (reset : Bool)
    (next : Device) (after : Controller) : Prop where
  rests : reset = true ∨ presented.command? (handed controller presented) = none ∧
      (device.drive.storage.transfer = .idle ∨ presented.AsksReset) →
    next.drive.storage.transfer = .idle ∧ after.holds (.toHost .disk) =
      (controller.holds (.toHost .disk) && (!reset && !decide (presented.Returns (.toHost .disk))))
  supplies : presented.command? (handed controller presented) = none →
    Supplies device.drive.storage.due controller next.drive.storage.due after
  answers : ∀ wrapper, presented.command? (handed controller presented) = some wrapper →
    device.drive.storage.transfer = .idle →
      Supplies (device.drive.storage.response wrapper) controller next.drive.storage.due after

theorem notice_handles (sound : device.Sound) (presented : Presented) (controller : Controller) :
    (device.notice presented).Yields (handed controller presented) fun next after =>
      next.Sound ∧ device.Handles presented controller false next after := by
  refine Exchange.Meets.thenYields ((stepIf_tends sound presented _).mono ?_)
  rintro asked looked events ⟨rfl, tends, leavesIn, leavesOut⟩
  refine (onBuffers_attends tends.sound presented looked).mono ?_
  intro next after attends
  have command : presented.command? looked = presented.command? (handed controller presented) := by
    rw [Presented.command?, leavesOut.received]
    rfl
  have packets := packetsFor_handed controller presented (.toHost .disk)
  refine ⟨attends.sound, ?_, fun none => ?_, fun wrapper delivered idle => ?_⟩
  · rintro (reset | ⟨none, drops⟩)
    · cases reset
    · have idle : (device.asked presented.setup).1.drive.storage.transfer = .idle := by
        rw [storage_asked]
        split
        · rfl
        · exact drops.resolve_right ‹_›
      obtain ⟨idleNext, slot⟩ := (attends.tends (command.trans none)).idle idle
      refine ⟨idleNext, ?_⟩
      rw [Controller.holds, slot]
      exact leavesIn.holds.trans
        (holds_handed_of_free fun returns => leavesIn.holds.symm.trans (attends.free returns))
  · exact (Supplies.of_packets packets List.prefix_rfl).trans
      (tends.trans (attends.tends (command.trans none))).supplies
  · have storage : (device.asked presented.setup).1.drive.storage = device.drive.storage := by
      rw [storage_asked]
      split
      · rw [Storage.reset, ← idle]
      · rfl
    rw [← storage] at idle ⊢
    exact (Supplies.of_packets (leavesIn.packets.trans packets) List.prefix_rfl).trans
      (attends.answers wrapper (command.trans delivered) idle)

theorem turn_handles (sound : device.Sound) (presented : Presented) (controller : Controller) :
    (device.turn presented).Yields controller fun next after =>
      device.Handles presented controller presented.busReset next after := by
  refine Exchange.Meets.thenYields ((Exchange.meets_modifyLink ..).mpr ?_)
  rw [handle_parts]
  refine Exchange.Yields.bind ((notice_handles sound presented controller).mono ?_)
  rintro served between ⟨soundServed, handles⟩
  cases reset : presented.busReset with
  | true =>
    refine (served.finish_drops reset device.board between).mono ?_
    rintro next after ⟨idle, free, supplies⟩
    refine ⟨fun _ => ⟨idle, ?_⟩, fun none => (handles.supplies none).trans supplies,
      fun wrapper delivered quiet => (handles.answers wrapper delivered quiet).trans supplies⟩
    rw [free, Bool.not_true, Bool.false_and, Bool.and_false]
  | false =>
    refine (finish_tends soundServed reset device.board between).mono ?_
    intro next after tends
    refine ⟨fun quiet => ?_, fun none => (handles.supplies none).trans tends.supplies,
      fun wrapper delivered quiet => (handles.answers wrapper delivered quiet).trans tends.supplies⟩
    obtain ⟨idle, held⟩ := handles.rests quiet
    obtain ⟨idleNext, slot⟩ := tends.idle idle
    refine ⟨idleNext, ?_⟩
    rw [Controller.holds, slot]
    exact held

end Device

end ScriptDrive
