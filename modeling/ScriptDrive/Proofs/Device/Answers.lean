import ScriptDrive.Proofs.Device.DiskTurns

/-!
# Answers to requests

Whatever eight bytes a request has, the device answers it once: with one packet, with room for one, with a
refusal, or, for a few queries it does not know, not at all.  `Setup.Admits` says which answer a request can
get and `answered_admits` that it gets such a one; `ControlAct.opens` lists what is written for it, since the
packets of a transfer begin with the odd kind.  `request_answered_once` adds what else handling a request
does, and what it leaves alone.
-/

set_option autoImplicit false

namespace ScriptDrive

/-! ## What is asked -/

namespace Setup

variable {setup : Setup}

theorem standardRequest_ne_disk (code : UInt8) : setup.standardRequest ≠ .disk code := by
  unfold standardRequest
  split <;> exact ControlRequest.noConfusion

theorem standardRequest_ne_setLineCoding : setup.standardRequest ≠ .setLineCoding := by
  unfold standardRequest
  split <;> exact ControlRequest.noConfusion

theorem standardRequest_eq_otherQuery_iff :
    setup.standardRequest = .otherQuery ↔ setup.toHost = true ∧ setup.request ≠ 0x06 := by
  have number : setup.request = 0x06 ↔ setup.request.toNat = 6 := UInt8.toNat_inj.symm
  unfold standardRequest
  rw [ne_eq, number]
  split <;> simp_all

theorem classRequest_eq_disk_iff (code : UInt8) :
    setup.classRequest = .disk code ↔ setup.index.toUInt8 = diskInterface ∧ setup.request = code := by
  unfold classRequest
  split
  · simp_all
  · split <;> simp_all

theorem classRequest_eq_setLineCoding_iff :
    setup.classRequest = .setLineCoding ↔ setup.index.toUInt8 ≠ diskInterface ∧ setup.request = 0x20 := by
  have number : setup.request = 0x20 ↔ setup.request.toNat = 32 := UInt8.toNat_inj.symm
  unfold classRequest
  rw [number]
  split
  · simp_all
  · split <;> simp_all

theorem classRequest_ne_otherQuery : setup.classRequest ≠ .otherQuery := by
  unfold classRequest
  split
  · exact ControlRequest.noConfusion
  · split <;> exact ControlRequest.noConfusion

/-- What the device knows is asked for by a standard request or by a request to an interface. -/
theorem asks_eq_iff {request : ControlRequest} (known : request ≠ .foreign) :
    setup.asks = request ↔
      setup.kind = 0 ∧ setup.standardRequest = request ∨ setup.kind = 1 ∧ setup.classRequest = request := by
  unfold asks
  split
  · simp_all only [true_and, Nat.zero_ne_one, false_and, or_false]
  · simp_all only [Nat.one_ne_zero, false_and, true_and, false_or]
  · rename_i notStandard notClass
    constructor
    · intro same
      exact absurd same.symm known
    · rintro (⟨standard, -⟩ | ⟨toInterface, -⟩)
      · exact (notStandard standard).elim
      · exact (notClass toInterface).elim

theorem asks_eq_disk_iff (code : UInt8) :
    setup.asks = .disk code ↔
      setup.kind = 1 ∧ setup.index.toUInt8 = diskInterface ∧ setup.request = code := by
  rw [asks_eq_iff ControlRequest.noConfusion, classRequest_eq_disk_iff]
  simp only [standardRequest_ne_disk, and_false, false_or]

theorem asks_eq_setLineCoding_iff :
    setup.asks = .setLineCoding ↔
      setup.kind = 1 ∧ setup.index.toUInt8 ≠ diskInterface ∧ setup.request = 0x20 := by
  rw [asks_eq_iff ControlRequest.noConfusion, classRequest_eq_setLineCoding_iff]
  simp only [standardRequest_ne_setLineCoding, and_false, false_or]

theorem asks_eq_otherQuery_iff :
    setup.asks = .otherQuery ↔ setup.kind = 0 ∧ setup.toHost = true ∧ setup.request ≠ 0x06 := by
  rw [asks_eq_iff ControlRequest.noConfusion, standardRequest_eq_otherQuery_iff]
  simp only [classRequest_ne_otherQuery, and_false, or_false]

/-- The answers that a request can get: a packet of no more bytes than the host takes, room for a packet if
the host is to send serial settings, a refusal, and nothing at all for a query that is not known. -/
def Admits (setup : Setup) : Option ControlAct → Prop
  | some (.send packet) => packet.bytes.length ≤ min maxPacket setup.length.toNat
  | some (.room length) =>
    length = maxPacket ∧ setup.kind = 1 ∧ setup.index.toUInt8 ≠ diskInterface ∧ setup.request = 0x20
  | some .refuse => True
  | some (.address _) => False
  | none => setup.kind = 0 ∧ setup.toHost = true ∧ setup.request ≠ 0x06

theorem admits_empty : setup.Admits (some (.send .empty)) :=
  Nat.zero_le _

theorem admits_front {data : List UInt8} :
    setup.Admits (some (.send (.front (data.take setup.length.toNat)))) := by
  simp only [Admits, Packet.bytes_front, List.length_take]
  omega

theorem admits_opened {data : List UInt8} :
    setup.Admits (some (.send (DataStage.opened data setup.length.toNat).1)) := by
  unfold DataStage.opened DataStage.next?
  split
  · split <;> exact admits_empty
  · exact admits_front

end Setup

namespace Device

/-- Every request gets an answer that it can get. -/
theorem answered_admits (device : Device) (setup : Setup) : setup.Admits (device.answered setup).2 := by
  unfold answered
  cases asksIs : setup.asks with
  | setAddress | setConfiguration | otherCommand | setControlLineState => exact Setup.admits_empty
  | getDescriptor name =>
    cases name with
    | device | configuration => exact Setup.admits_opened
    | languages | vendor | product => exact Setup.admits_front
    | unknown => trivial
  | otherQuery => exact Setup.asks_eq_otherQuery_iff.mp asksIs
  | disk code =>
    simp only [diskAnswered, Prod.map_snd]
    cases (device.drive.requested code).2 with
    | data byte => exact Setup.admits_front
    | acknowledge => exact Setup.admits_empty
    | unsupported => trivial
  | setLineCoding => exact ⟨rfl, Setup.asks_eq_setLineCoding_iff.mp asksIs⟩
  | getLineCoding => exact Setup.admits_front
  | foreign => trivial

end Device

/-! ## What is written -/

/-- What is written for an act when the packets of the transfer begin with the odd kind, DATA1. -/
def ControlAct.opens : ControlAct → List Write
  | .send packet =>
    [.buffer (.toHost .control)
      { full := true, data1 := true, available := true, length := packet.bytes.length } (some packet)]
  | .room length =>
    [.buffer (.fromHost .control) { data1 := true, available := true, length := length } none]
  | .refuse =>
    [.register .stallArm 3, .buffer (.toHost .control) { stall := true } none,
      .buffer (.fromHost .control) { stall := true } none]
  | .address value => [.register .deviceAddress value]

namespace Device

def requestWrites (board : Board) (answer : Option ControlAct) : List Write :=
  [.register .pinRaise (bit board.lampPin), .register .pinRaise (bit setupPin),
      .register .serialStatus (bit 17)] ++
    answer.elim [] ControlAct.opens ++ [.register .pinLower (bit setupPin)]

/-- The answer can be read off what is written. -/
theorem acts_requestWrites (board : Board) (answer : Option ControlAct) :
    (requestWrites board answer).filterMap Write.act? = answer.toList := by
  cases answer with
  | none => rfl
  | some made => cases made <;> rfl

theorem requestWrites_injective {board : Board} {first second : Option ControlAct}
    (same : requestWrites board first = requestWrites board second) : first = second := by
  have acts := congrArg (List.filterMap Write.act?) same
  rw [acts_requestWrites, acts_requestWrites] at acts
  have heads := congrArg List.head? acts
  rwa [Option.head?_toList, Option.head?_toList] at heads

theorem writes_answered (board : Board) (controller : Controller) (answer : Option ControlAct) :
    (((takenUp board controller).acted answer).write (.register .pinLower (bit setupPin))).writes =
      controller.writes ++ requestWrites board answer := by
  have taken : (takenUp board controller).writes = controller.writes ++
      ([.register .pinRaise (bit board.lampPin)] ++ ([.register .pinRaise (bit setupPin)] ++
        [.register .serialStatus (bit 17)])) :=
    (List.append_assoc ..).trans (List.append_assoc ..)
  have acted : ((takenUp board controller).acted answer).writes =
      (takenUp board controller).writes ++ answer.elim [] ControlAct.opens := by
    cases answer with
    | none => exact (List.append_nil _).symm
    | some made =>
      cases made with
      | send packet => rfl
      | room length => rfl
      | refuse => exact (List.append_assoc ..).trans (List.append_assoc ..)
      | address value => rfl
  rw [Controller.write, acted, taken, List.append_assoc, List.append_assoc]
  rfl

/-! ## What is left, and what is left alone -/

/-- Serial settings are awaited once they are announced, and else they are not. -/
theorem lineCodingDue_answered (device : Device) (setup : Setup) :
    (device.dropped.answered setup).1.lineCodingDue = decide (setup.asks = .setLineCoding) := by
  unfold answered
  cases setup.asks with
  | getDescriptor name => cases name <;> rfl
  | setAddress | setConfiguration | otherCommand | otherQuery | disk | setLineCoding | getLineCoding
  | setControlLineState | foreign => rfl

theorem lineCoding_answered (device : Device) (setup : Setup) :
    (device.answered setup).1.lineCoding = device.lineCoding := by
  unfold answered
  cases setup.asks with
  | getDescriptor name => cases name <;> rfl
  | setAddress | setConfiguration | otherCommand | otherQuery | disk | setLineCoding | getLineCoding
  | setControlLineState | foreign => rfl

/-- Of the drive, only the transfer is touched, and only by the one request that ends it. -/
theorem drive_answered (device : Device) (setup : Setup) :
    (device.answered setup).1.drive =
      let storage := device.drive.storage
      let transfer := if setup.asks = .disk 0xFF then .idle else storage.transfer
      { device.drive with storage := { storage with transfer := transfer } } := by
  unfold answered
  cases setup.asks with
  | getDescriptor name => cases name <;> rfl
  | disk code =>
    have storageIs := storage_requested device.drive code
    have queueIs : (device.drive.requested code).1.queue = device.drive.queue := by
      unfold Drive.requested
      split <;> rfl
    dsimp only [diskAnswered, Prod.map_fst, id]
    generalize (device.drive.requested code).1 = drive at storageIs queueIs ⊢
    obtain ⟨storage, queue⟩ := drive
    obtain rfl : storage = _ := storageIs
    obtain rfl : queue = _ := queueIs
    by_cases resets : code = 0xFF
    · rw [if_pos resets, if_pos (congrArg _ resets)]
      rfl
    · rw [if_neg resets, if_neg fun same => resets (ControlRequest.disk.inj same)]
  | setAddress | setConfiguration | otherCommand | otherQuery | setLineCoding | getLineCoding
  | setControlLineState | foreign => rfl

/-- In every state and for any eight bytes, a request is answered by exactly one of the answers it can get.  It
drops the data stage and the settings that were announced before, and leaves all else alone but for the
transfer, which a bulk-only reset ends. -/
theorem request_answered_once (device : Device) (bytes : Octets 8) (controller : Controller) :
    let setup := Setup.ofBytes bytes
    let went := device.onSetup bytes controller
    ∃ next, went.result = .ok next ∧
      (∃ answer, setup.Admits answer ∧
        ∀ other, went.link.writes = controller.writes ++ requestWrites device.board other ↔
          other = answer) ∧
      (∀ endpoint : Endpoint, 2 ≤ endpoint.index → Controller.Leaves endpoint controller went.link) ∧
      (∀ stage due, { device with stage := stage, lineCodingDue := due }.onSetup bytes = device.onSetup bytes) ∧
      next.stage.packets = (setup.stage?.elim [] fun stage => stage.packets.tail) ∧
      (next.lineCodingDue = true ↔
        setup.kind = 1 ∧ setup.index.toUInt8 ≠ diskInterface ∧ setup.request = 0x20) ∧
      next.lineCoding = device.lineCoding ∧
      next.drive =
        let storage := device.drive.storage
        let resets := setup.kind = 1 ∧ setup.index.toUInt8 = diskInterface ∧ setup.request = 0xFF
        let transfer := if resets then .idle else storage.transfer
        { device.drive with storage := { storage with transfer := transfer } } := by
  intro setup went
  obtain ⟨next, result, nextIs, afterIs⟩ := device.onSetup_meets_acted bytes controller
  obtain ⟨-, -, -, leaves⟩ := device.stepIf_leaves (some bytes) controller
  have packets := device.packets_answered setup
  refine ⟨next, result, ⟨_, device.dropped.answered_admits setup, fun other => ?_⟩, leaves,
    fun _ _ => rfl, ?_, ?_, ?_, ?_⟩
  · rw [show went.link.writes = _ from congrArg Controller.writes afterIs, writes_answered]
    constructor
    · intro same
      exact (requestWrites_injective (List.append_cancel_left same)).symm
    · rintro rfl
      rfl
  · rw [nextIs]
    cases opens : setup.stage? with
    | some stage =>
      rw [opens] at packets
      exact packets.1
    | none =>
      rw [opens] at packets
      exact packets
  · rw [nextIs, ← Setup.asks_eq_setLineCoding_iff]
    rw [lineCodingDue_answered, decide_eq_true_iff]
  · rw [nextIs]
    exact device.dropped.lineCoding_answered setup
  · have resets : (Setup.ofBytes bytes).asks = .disk 0xFF ↔ _ := Setup.asks_eq_disk_iff 0xFF
    rw [nextIs, drive_answered]
    simp only [resets]
    rfl

end Device

end ScriptDrive
