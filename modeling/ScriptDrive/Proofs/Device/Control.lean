import ScriptDrive.Device.Turn
import ScriptDrive.Proofs.Controller.Acts

/-!
# Control transfers

Everything the device does on its control endpoint is one act, or none, for each thing that happens there:
a request, a packet the host collected, a packet from the host.  `answered`, `Unfinished.collected` and
`tookControl` say which, as functions of the state, and the lemmas about `onSetup`, `onControlCollected`
and `onControlPacket` that the device does just that.
-/

set_option autoImplicit false

namespace ScriptDrive

namespace DataStage

/-- The first packet of a data stage and what is left after it.  Data without a byte still takes an empty
packet. -/
def opened (data : List UInt8) (requested : Nat) : Packet × DataStage :=
  ((opening data requested).next?).getD (.empty, opening data requested)

end DataStage

namespace Drive

variable {capacity : Nat}

def requested (drive : Drive capacity) (code : UInt8) : Drive capacity × ClassAnswer :=
  match ClassRequest.ofCode? code.toNat with
  | some .getMaxLun => (drive, .data 0)
  | some .bulkOnlyReset => ({ drive with storage := drive.storage.reset }, .acknowledge)
  | none => (drive, .unsupported)

theorem reset_meets {π : Type} (drive : Drive capacity) (start : π) :
    (drive.reset : Exchange π (Drive capacity)).Meets start fun next after _ =>
      next = { drive with storage := drive.storage.reset } ∧ after = start := by
  simp only [reset, Exchange.meets_bind, Exchange.meets_logAll, Exchange.meets_pure, and_self]

theorem requested_meets {π : Type} (drive : Drive capacity) (code : UInt8) (start : π) :
    (drive.classRequest code : Exchange π _).Meets start fun result after _ =>
      result = drive.requested code ∧ after = start := by
  unfold classRequest requested
  cases ClassRequest.ofCode? code.toNat with
  | none => exact (Exchange.meets_pure ..).mpr ⟨rfl, rfl⟩
  | some request =>
    cases request with
    | getMaxLun => exact (Exchange.meets_pure ..).mpr ⟨rfl, rfl⟩
    | bulkOnlyReset =>
      simp only [Exchange.meets_bind, Exchange.meets_log]
      refine (drive.reset_meets start).mono ?_
      rintro next after events ⟨nextIs, afterIs⟩
      rw [Exchange.meets_pure]
      exact ⟨by rw [nextIs], afterIs⟩

end Drive

structure Unfinished where
  address : Option UInt8 := none
  stage : DataStage := {}
  lineCodingDue : Bool := false
  deriving DecidableEq

/-- What is left after the host collected a packet of the transfer, and the act then: the new address if
one is awaited, the next packet of the data stage, and room for the host's status behind the last. -/
def Unfinished.collected (left : Unfinished) : Unfinished × ControlAct :=
  match left.address with
  | some address =>
    ({ left with address := none }, .address (UInt32.ofNat (address.toNat % 128)))
  | none =>
    match left.stage.next? with
    | some (packet, stage) => ({ left with stage := stage }, .send packet)
    | none => (left, .room 0)

theorem Unfinished.lineCodingDue_collected (left : Unfinished) :
    left.collected.1.lineCodingDue = left.lineCodingDue := by
  unfold collected
  split
  · rfl
  · split <;> rfl

namespace Device

def unfinished (device : Device) : Unfinished :=
  ⟨device.newAddress, device.stage, device.lineCodingDue⟩

def resume (device : Device) (left : Unfinished) : Device :=
  { device with newAddress := left.address, stage := left.stage, lineCodingDue := left.lineCodingDue }

/-! ## Requests -/

def described (device : Device) (name : DescriptorName) (requested : Nat) : Device × ControlAct :=
  let staged (data : List UInt8) : Device × ControlAct :=
    ({ device with stage := (DataStage.opened data requested).2 },
      .send (DataStage.opened data requested).1)
  let sent (data : List UInt8) : Device × ControlAct :=
    (device, .send (.front (data.take requested)))
  match name with
  | .device => staged Descriptor.device
  | .configuration => staged Descriptor.configuration
  | .languages => sent Descriptor.languages
  | .vendor => sent (Descriptor.ofText device.drive.identity.vendor.bytes)
  | .product => sent (Descriptor.ofText device.drive.identity.product.bytes)
  | .unknown => (device, .refuse)

def diskAnswered (device : Device) (code : UInt8) (requested : Nat) : Device × ControlAct :=
  ({ device with drive := (device.drive.requested code).1 },
    match (device.drive.requested code).2 with
    | .data byte => .send (.front ([byte].take requested))
    | .acknowledge => .send .empty
    | .unsupported => .refuse)

def answered (device : Device) (setup : Setup) : Device × Option ControlAct :=
  let requested := setup.length.toNat
  match setup.asks with
  | .setAddress address => ({ device with newAddress := some address }, some (.send .empty))
  | .setConfiguration => ({ device with configured := true }, some (.send .empty))
  | .otherCommand | .setControlLineState => (device, some (.send .empty))
  | .getDescriptor name => (device.described name requested).map id some
  | .otherQuery => (device, none)
  | .disk code => (device.diskAnswered code requested).map id some
  | .setLineCoding => ({ device with lineCodingDue := true }, some (.room maxPacket))
  | .getLineCoding => (device, some (.send (.front (device.lineCoding.bytes.take requested))))
  | .foreign => (device, some .refuse)

def dropped (device : Device) : Device :=
  { device with stage := {}, lineCodingDue := false }

theorem acknowledge_meets (start : Controller) (post : Unit → Controller → List Event → Prop) :
    acknowledge.Meets start post ↔ post () (start.act (.send .empty)) [] :=
  meets_armIn start post .control (Nat.zero_le _)

theorem refuse_meets (start : Controller) (post : Unit → Controller → List Event → Prop) :
    refuse.Meets start post ↔ post () (start.act .refuse) [] :=
  Exchange.meets_modifyLink ..

theorem sendNext_meets (device : Device) (start : Controller) :
    device.sendNext.Meets start fun result after _ =>
      match device.stage.next? with
      | some (packet, stage) =>
        result = ({ device with stage := stage }, true) ∧ after = start.act (.send packet)
      | none => result = (device, false) ∧ after = start := by
  unfold sendNext
  cases device.stage.next? with
  | none => exact (Exchange.meets_pure ..).mpr ⟨rfl, rfl⟩
  | some next =>
    simp only [Exchange.meets_bind, meets_armIn _ _ _ next.1.length_le, Exchange.meets_pure,
      Packet.front_bytes, true_and]
    rfl

theorem openStage_meets (device : Device) (data : List UInt8) (requested : Nat)
    (start : Controller) :
    (device.openStage data requested).Meets start fun next after _ =>
      next = { device with stage := (DataStage.opened data requested).2 } ∧
        after = start.act (.send (DataStage.opened data requested).1) := by
  unfold openStage
  rw [Exchange.meets_bind]
  refine (sendNext_meets { device with stage := .opening data requested } start).mono ?_
  dsimp only
  unfold DataStage.opened
  cases (DataStage.opening data requested).next? with
  | none =>
    rintro result after events ⟨rfl, rfl⟩
    have empty : ([] : List UInt8).length ≤ maxPacket := Nat.zero_le _
    simp only [Bool.not_false, if_true, Exchange.meets_bind, Exchange.meets_pure,
      meets_armIn _ _ _ empty, Option.getD_none, true_and]
    rfl
  | some next =>
    rintro result after events ⟨rfl, rfl⟩
    simp only [Bool.not_true, Bool.false_eq_true, if_false, Exchange.meets_pure, Option.getD_some,
      and_self]

theorem length_ofText_le (text : List UInt8) : (Descriptor.ofText text).length ≤ maxPacket := by
  have size : (((Descriptor.trimmed text).take 31).flatMap fun character => [character, 0]).length =
      2 * ((Descriptor.trimmed text).take 31).length := by
    generalize (Descriptor.trimmed text).take 31 = characters
    induction characters with
    | nil => rfl
    | cons character rest restInduction =>
      simp only [List.flatMap_cons, List.length_append, List.length_cons, List.length_nil,
        restInduction]
      omega
  simp only [Descriptor.ofText, Descriptor.framed, List.length_cons, size, List.length_take, maxPacket]
  omega

theorem sendDescriptor_meets (device : Device) (name : DescriptorName) (requested : Nat)
    (start : Controller) :
    (device.sendDescriptor name requested).Meets start fun next after _ =>
      next = (device.described name requested).1 ∧
        after = start.act (device.described name requested).2 := by
  have cut {data : List UInt8} (short : data.length ≤ maxPacket) :
      (data.take requested).length ≤ maxPacket := by
    rw [List.length_take]
    exact Nat.le_trans (Nat.min_le_right ..) short
  have languages : Descriptor.languages.length ≤ maxPacket := by decide
  cases name with
  | device | configuration => exact device.openStage_meets _ requested start
  | languages =>
    simp only [sendDescriptor, Exchange.meets_bind, meets_armIn _ _ _ (cut languages),
      Exchange.meets_pure]
    exact ⟨rfl, rfl⟩
  | vendor | product =>
    simp only [sendDescriptor, Exchange.meets_bind, meets_armIn _ _ _ (cut (length_ofText_le _)),
      Exchange.meets_pure]
    exact ⟨rfl, rfl⟩
  | unknown =>
    simp only [sendDescriptor, Exchange.meets_bind, refuse_meets, Exchange.meets_pure]
    exact ⟨rfl, rfl⟩

theorem answerDisk_meets (device : Device) (code : UInt8) (requested : Nat) (start : Controller) :
    (device.answerDisk code requested).Meets start fun next after _ =>
      next = (device.diskAnswered code requested).1 ∧
        after = start.act (device.diskAnswered code requested).2 := by
  rw [answerDisk, Exchange.meets_bind]
  refine (device.drive.requested_meets code start).mono ?_
  rintro ⟨drive, answer⟩ after events ⟨resultIs, rfl⟩
  simp only [diskAnswered, ← resultIs]
  cases answer with
  | data byte =>
    have short : ([byte].take requested).length ≤ maxPacket := by
      rw [List.length_take]
      exact Nat.le_trans (Nat.min_le_right ..) (Nat.le_add_left 1 63)
    simp only [Exchange.meets_bind, meets_armIn _ _ _ short, Exchange.meets_pure]
    exact ⟨trivial, rfl⟩
  | acknowledge =>
    simp only [Exchange.meets_bind, acknowledge_meets, Exchange.meets_pure, and_self]
  | unsupported =>
    simp only [Exchange.meets_bind, refuse_meets, Exchange.meets_pure, and_self]

theorem answer_meets (device : Device) (setup : Setup) (start : Controller) :
    (device.answer setup).Meets start fun next after _ =>
      next = (device.answered setup).1 ∧ after = start.acted (device.answered setup).2 := by
  unfold answer answered
  cases setup.asks with
  | setAddress | setConfiguration | otherCommand | setControlLineState =>
    simp only [Exchange.meets_bind, acknowledge_meets, Exchange.meets_pure]
    exact ⟨trivial, rfl⟩
  | getDescriptor name => exact device.sendDescriptor_meets name setup.length.toNat start
  | otherQuery => exact (Exchange.meets_pure ..).mpr ⟨rfl, rfl⟩
  | disk code => exact device.answerDisk_meets code setup.length.toNat start
  | setLineCoding =>
    simp only [Exchange.meets_bind, meets_armOut _ _ _ (Nat.le_refl maxPacket), Exchange.meets_pure]
    exact ⟨trivial, rfl⟩
  | getLineCoding =>
    have short : (device.lineCoding.bytes.take setup.length.toNat).length ≤ maxPacket := by
      rw [List.length_take, device.lineCoding.length_bytes]
      exact Nat.le_trans (Nat.min_le_right ..) (by decide)
    simp only [Exchange.meets_bind, meets_armIn _ _ _ short, Exchange.meets_pure]
    exact ⟨trivial, rfl⟩
  | foreign =>
    simp only [Exchange.meets_bind, refuse_meets, Exchange.meets_pure]
    exact ⟨trivial, rfl⟩

def takenUp (board : Board) (controller : Controller) : Controller :=
  let raised := (controller.write (.register .pinRaise (bit board.lampPin))).write
    (.register .pinRaise (bit setupPin))
  ((raised.write (.register .serialStatus (bit 17))).setNext (.toHost .control) true).setNext
    (.fromHost .control) true

theorem holds_takenUp (board : Board) (controller : Controller) (other : Endpoint) :
    (takenUp board controller).holds other = controller.holds other := by
  simp only [takenUp, Controller.holds_setNext, Controller.holds_write]

def onRequest (device : Device) (answer : Device → Exchange Controller Device) :
    Exchange Controller Device := do
  raisePin device.board.lampPin
  raisePin setupPin
  writeRegister .serialStatus (bit 17)
  Exchange.modifyLink fun controller =>
    (controller.setNext (.toHost .control) true).setNext (.fromHost .control) true
  let answered ← answer device.dropped
  lowerPin setupPin
  return answered

theorem onSetup_eq (device : Device) (bytes : Octets 8) :
    device.onSetup bytes = device.onRequest fun fresh => fresh.answer (.ofBytes bytes) := rfl

/-- What was left of the transfer before is dropped, whatever the answer. -/
theorem onRequest_meets (device : Device) {answer : Device → Exchange Controller Device}
    {start : Controller} {post : Device → Controller → List Event → Prop}
    (answers : (answer device.dropped).Meets (takenUp device.board start) fun next after events =>
      post next (after.write (.register .pinLower (bit setupPin))) events) :
    (device.onRequest answer).Meets start post := by
  simp only [onRequest, Exchange.meets_bind, meets_raisePin, meets_writeRegister,
    Exchange.meets_modifyLink, meets_lowerPin, Exchange.meets_pure, List.nil_append, List.append_nil]
  exact answers

/-- A request drops what was left of the transfer before, and is answered by its act. -/
theorem onSetup_meets_acted (device : Device) (bytes : Octets 8) (start : Controller) :
    (device.onSetup bytes).Meets start fun next after _ =>
      next = (device.dropped.answered (.ofBytes bytes)).1 ∧
        after = ((takenUp device.board start).acted (device.dropped.answered (.ofBytes bytes)).2).write
          (.register .pinLower (bit setupPin)) := by
  rw [onSetup_eq]
  refine device.onRequest_meets ((device.dropped.answer_meets (.ofBytes bytes) _).mono ?_)
  rintro next after events ⟨rfl, rfl⟩
  exact ⟨rfl, rfl⟩

theorem onSetup_meets (device : Device) (bytes : Octets 8) (start : Controller) :
    (device.onSetup bytes).Meets start fun next after _ =>
      next = (device.dropped.answered (.ofBytes bytes)).1 ∧
        start.Did (device.dropped.answered (.ofBytes bytes)).2 after := by
  refine (device.onSetup_meets_acted bytes start).mono ?_
  rintro next after events ⟨rfl, rfl⟩
  refine ⟨rfl, .after_write rfl rfl (.before_acted (holds_takenUp device.board start) ?_ ?_)⟩
  · rw [takenUp, Controller.acts_setNext, Controller.acts_setNext]
    exact (Controller.acts_write_of_none _ rfl).trans
      ((Controller.acts_write_of_none _ rfl).trans (Controller.acts_write_of_none _ rfl))
  · exact .setNext (.setNext (.write (.write (.write (.refl start) rfl) rfl) rfl) _ _) _ _

/-! ## Packets on the control endpoint -/

theorem onControlCollected_meets (device : Device) (start : Controller) :
    device.onControlCollected.Meets start fun next after _ =>
      next = device.resume device.unfinished.collected.1 ∧
        after = start.act device.unfinished.collected.2 := by
  unfold onControlCollected Unfinished.collected unfinished
  dsimp only
  cases awaited : device.newAddress with
  | some address =>
    simp only [Exchange.meets_bind, meets_writeRegister, Exchange.meets_pure]
    exact ⟨rfl, rfl⟩
  | none =>
    dsimp only
    rw [Exchange.meets_bind]
    refine (device.sendNext_meets start).mono ?_
    cases device.stage.next? with
    | some next =>
      rintro result after events ⟨rfl, rfl⟩
      simp only [Bool.not_true, Bool.false_eq_true, if_false, Exchange.meets_pure, resume, awaited,
        and_self]
    | none =>
      rintro result after events ⟨rfl, rfl⟩
      simp only [Bool.not_false, if_true, Exchange.meets_bind, meets_armOut _ _ _ (Nat.zero_le _),
        Exchange.meets_pure, resume, ← awaited]
      exact ⟨trivial, rfl⟩

/-- The device after a packet from the host on the control endpoint, and its act: serial settings are
taken over and acknowledged if they are due. -/
def tookControl (device : Device) (packet : List UInt8) : Device × Option ControlAct :=
  if device.lineCodingDue then
    ({ device with
        lineCodingDue := false
        lineCoding := (Octets.ofList? 7 (packet.take 7)).getD device.lineCoding },
      some (.send .empty))
  else
    (device, none)

theorem onControlPacket_meets (device : Device) (packet : List UInt8) (start : Controller) :
    (device.onControlPacket packet).Meets start fun next after _ =>
      next = (device.tookControl packet).1 ∧ after = start.acted (device.tookControl packet).2 := by
  unfold onControlPacket tookControl
  split
  · simp only [Exchange.meets_bind, acknowledge_meets, Exchange.meets_pure, true_and]
    rfl
  · exact (Exchange.meets_pure ..).mpr ⟨rfl, rfl⟩

theorem unfinished_tookControl (device : Device) (packet : List UInt8) :
    (device.tookControl packet).1.unfinished = { device.unfinished with lineCodingDue := false } := by
  unfold tookControl
  split
  · rfl
  · rename_i notDue
    simp only [unfinished, Bool.eq_false_iff.mpr notDue]

end Device

end ScriptDrive
