import ScriptDrive.Proofs.Controller.Acts
import ScriptDrive.Proofs.Together

/-!
# Controllers that the device cannot tell apart

Two controllers may differ in the control endpoint and in what lies in their buffers, and still the device
does the same to both: it looks at a buffer only after the controller has handed it back, and a request
sets the kind of packet that comes next on the control endpoint.  `Alike` says what two controllers then
have in common, and has one lemma for each thing that is done to a controller.
-/

set_option autoImplicit false

namespace ScriptDrive

/-- The same has been written to both controllers since they had these journals. -/
def Journals (earlier otherEarlier : List Write) (first second : Controller) : Prop :=
  ∃ made, first.writes = earlier ++ made ∧ second.writes = otherEarlier ++ made

/-- The controllers differ only where the device does not look: in the control endpoint, except for the kind
of its next packet once a request has come, and in buffers that have not come back. -/
structure Alike (earlier otherEarlier : List Write) (asked : Prop) (returned : Endpoint → Prop)
    (first second : Controller) : Prop where
  journals : Journals earlier otherEarlier first second
  bulk : ∀ endpoint : Endpoint, 2 ≤ endpoint.index → first.slot endpoint = second.slot endpoint
  next : asked → ∀ endpoint, (first.slot endpoint).nextData1 = (second.slot endpoint).nextData1
  holds : ∀ endpoint, returned endpoint → first.holds endpoint = second.holds endpoint
  received : ∀ endpoint : OutEndpoint, returned (.fromHost endpoint) →
    first.holds (.fromHost endpoint) = false →
    first.received (.fromHost endpoint) = second.received (.fromHost endpoint)

/-! ## What a buffer holds -/

theorem Endpoint.bulk_of_ne {endpoint : Endpoint} (notIn : endpoint ≠ .toHost .control)
    (notOut : endpoint ≠ .fromHost .control) : 2 ≤ endpoint.index := by
  cases endpoint with
  | toHost endpoint =>
    cases endpoint with
    | control => exact absurd rfl notIn
    | notify | console | disk => decide
  | fromHost endpoint =>
    cases endpoint with
    | control => exact absurd rfl notOut
    | console | disk => decide

theorem Returned.fromHost_of_index {buffer : Returned} {endpoint : OutEndpoint}
    (place : buffer.index = (Endpoint.fromHost endpoint).index) : buffer.address < 0x80 := by
  rw [Returned.index, Endpoint.index] at place
  split at place
  · assumption
  · omega

theorem OutEndpoint.bufferOffset_injective {first second : OutEndpoint}
    (same : (Endpoint.fromHost first).bufferOffset = (Endpoint.fromHost second).bufferOffset) :
    first = second := by
  revert same
  cases first <;> cases second <;> decide

def Slot.handedBack (slot : Slot) (endpoint : Endpoint) (buffer : Returned) : Slot :=
  let available := slot.control.available && buffer.stuck
  match endpoint with
  | .toHost _ => { slot with control := { slot.control with available := available } }
  | .fromHost _ =>
    { slot with
      control := { slot.control with available := available, length := buffer.length % 1 <<< 10 } }

theorem Slot.nextData1_handedBack (slot : Slot) (endpoint : Endpoint) (buffer : Returned) :
    (slot.handedBack endpoint buffer).nextData1 = slot.nextData1 := by
  cases endpoint <;> rfl

namespace Controller

variable (controller : Controller) (endpoint other : Endpoint)

theorem slot_setNext (data1 : Bool) :
    (controller.setNext endpoint data1).slot other =
      if other = endpoint then { controller.slot other with nextData1 := data1 }
      else controller.slot other := by
  unfold setNext
  by_cases same : other = endpoint
  · rw [if_pos same, same, slot_setSlot_same]
  · rw [if_neg same, slot_setSlot_of_ne _ _ same]

theorem slot_setControl (control : BufferControl) (packet : Option Packet) :
    (controller.setControl endpoint control packet).slot other =
      if other = endpoint then { controller.slot other with control := control }
      else controller.slot other := by
  unfold setControl
  rw [slot_write]
  by_cases same : other = endpoint
  · rw [if_pos same, same, slot_setSlot_same]
  · rw [if_neg same, slot_setSlot_of_ne _ _ same]

theorem received_write (made : Write) : (controller.write made).received other = controller.received other :=
  rfl

theorem received_setSlot (slot : Slot) :
    (controller.setSlot endpoint slot).received other =
      if other = endpoint then
        (controller.memory other.bufferOffset).bytes.take (min slot.control.length maxPacket)
      else controller.received other := by
  unfold received
  by_cases same : other = endpoint
  · rw [if_pos same, same, slot_setSlot_same]
    rfl
  · rw [if_neg same, slot_setSlot_of_ne _ _ same]
    rfl

theorem length_received :
    (controller.received other).length = min (controller.slot other).control.length maxPacket := by
  rw [received, List.length_take, (controller.memory other.bufferOffset).length_bytes, maxPacket]
  exact Nat.min_eq_left (Nat.min_le_right ..)

theorem bytes_fill (bytes : List UInt8) :
    ((controller.fill endpoint bytes).memory endpoint.bufferOffset).bytes =
      bytes.take 64 ++
        (controller.memory endpoint.bufferOffset).bytes.drop (bytes.take 64).length := by
  simp only [fill, if_true]

theorem received_fill (bytes : List UInt8) :
    (controller.fill endpoint bytes).received other =
      if other.bufferOffset = endpoint.bufferOffset then
        (bytes.take 64).take (controller.received other).length ++
          (controller.received other).drop (bytes.take 64).length
      else controller.received other := by
  rw [length_received]
  unfold received fill
  dsimp only
  by_cases same : other.bufferOffset = endpoint.bufferOffset
  · rw [if_pos same, if_pos same, List.take_append, same, List.drop_take]
  · rw [if_neg same, if_neg same]

theorem received_setNext (data1 : Bool) :
    (controller.setNext endpoint data1).received other = controller.received other := by
  rw [setNext, received_setSlot]
  split
  · rename_i same
    rw [same]
    rfl
  · rfl

theorem received_setControl (control : BufferControl) (packet : Option Packet) :
    (controller.setControl endpoint control packet).received other =
      if other = endpoint then
        (controller.memory other.bufferOffset).bytes.take (min control.length maxPacket)
      else controller.received other := by
  rw [setControl, received_write, received_setSlot]

theorem slot_handBack (buffer : Returned) :
    (controller.handBack buffer).slot other =
      if buffer.index = other.index then (controller.slot other).handedBack other buffer
      else controller.slot other := by
  unfold handBack
  cases found : Endpoint.ofIndex? buffer.index with
  | none =>
    rw [if_neg]
    intro place
    rw [place, Endpoint.ofIndex?_index] at found
    cases found
  | some endpoint =>
    have place := Endpoint.index_of_ofIndex? found
    by_cases same : other = endpoint
    · rw [if_pos (by rw [same, place]), same]
      cases endpoint with
      | toHost endpoint => exact slot_setSlot_same ..
      | fromHost endpoint => exact slot_setSlot_same ..
    · rw [if_neg fun back => same (Endpoint.index_injective (back.symm.trans place.symm))]
      cases endpoint with
      | toHost endpoint => exact slot_setSlot_of_ne _ _ same
      | fromHost endpoint => exact slot_setSlot_of_ne _ _ same

theorem received_handBack (endpoint : OutEndpoint) {buffer : Returned}
    (whole : buffer.address < 0x80 → buffer.length = buffer.data.length) :
    (controller.handBack buffer).received (.fromHost endpoint) =
      if buffer.index = (Endpoint.fromHost endpoint).index then
        buffer.data.take (min (buffer.length % 1 <<< 10) maxPacket)
      else controller.received (.fromHost endpoint) := by
  unfold handBack
  cases named : Endpoint.ofIndex? buffer.index with
  | none =>
    rw [if_neg]
    intro place
    rw [place, Endpoint.ofIndex?_index] at named
    cases named
  | some source =>
    have place := Endpoint.index_of_ofIndex? named
    cases source with
    | toHost other =>
      have apart : buffer.index ≠ (Endpoint.fromHost endpoint).index := by
        intro back
        cases Endpoint.index_injective (place.trans back)
      rw [if_neg apart, received_setSlot, if_neg Endpoint.noConfusion]
    | fromHost other =>
      dsimp only
      rw [received_setSlot]
      by_cases same : endpoint = other
      · subst same
        rw [if_pos rfl, if_pos place.symm]
        have fits : min (buffer.length % 1 <<< 10) maxPacket ≤ (buffer.data.take 64).length := by
          rw [List.length_take, whole (Returned.fromHost_of_index place.symm), maxPacket]
          have small := Nat.mod_le buffer.data.length (1 <<< 10)
          omega
        rw [bytes_fill, List.take_append_of_le_length fits, List.take_take, maxPacket, Nat.min_assoc, Nat.min_self]
      · have apart : Endpoint.fromHost endpoint ≠ .fromHost other := by
          rintro ⟨⟩
          exact same rfl
        have elsewhere : (Endpoint.fromHost endpoint).bufferOffset ≠
            (Endpoint.fromHost other).bufferOffset :=
          fun offsets => same (OutEndpoint.bufferOffset_injective offsets)
        rw [if_neg apart, if_neg fun back => apart (Endpoint.index_injective (back.symm.trans place.symm)),
          received_fill, if_neg elsewhere]

end Controller

/-! ## The same done to both -/

namespace Alike

variable {earlier otherEarlier : List Write} {asked : Prop} {returned : Endpoint → Prop}
  {first second : Controller}

theorem weaken (alike : Alike earlier otherEarlier asked returned first second) {fewer : Endpoint → Prop}
    (among : ∀ endpoint, fewer endpoint → returned endpoint) :
    Alike earlier otherEarlier asked fewer first second :=
  ⟨alike.journals, alike.bulk, alike.next, fun endpoint back => alike.holds endpoint (among _ back),
    fun endpoint back => alike.received endpoint (among _ back)⟩

theorem ofAsked (alike : Alike earlier otherEarlier asked returned first second) {less : Prop}
    (only : less → asked) : Alike earlier otherEarlier less returned first second :=
  ⟨alike.journals, alike.bulk, fun ask => alike.next (only ask), alike.holds, alike.received⟩

theorem rebase (alike : Alike earlier otherEarlier asked returned first second) :
    Alike first.writes second.writes asked returned first second :=
  ⟨⟨[], (List.append_nil _).symm, (List.append_nil _).symm⟩, alike.bulk, alike.next, alike.holds,
    alike.received⟩

theorem next_eq (alike : Alike earlier otherEarlier asked returned first second) {endpoint : Endpoint}
    (known : asked ∨ 2 ≤ endpoint.index) :
    (first.slot endpoint).nextData1 = (second.slot endpoint).nextData1 := by
  rcases known with ask | bulk
  · exact alike.next ask endpoint
  · rw [alike.bulk endpoint bulk]

theorem write (alike : Alike earlier otherEarlier asked returned first second) (made : Write) :
    Alike earlier otherEarlier asked returned (first.write made) (second.write made) := by
  obtain ⟨written, writes, otherWrites⟩ := alike.journals
  refine ⟨⟨written ++ [made], ?_, ?_⟩, alike.bulk, alike.next, alike.holds, alike.received⟩
  · rw [Controller.write, writes, List.append_assoc]
  · rw [Controller.write, otherWrites, List.append_assoc]

theorem setNext (alike : Alike earlier otherEarlier asked returned first second) (endpoint : Endpoint)
    (data1 : Bool) :
    Alike earlier otherEarlier asked returned (first.setNext endpoint data1)
      (second.setNext endpoint data1) := by
  refine ⟨alike.journals, ?_, ?_, ?_, ?_⟩
  · intro other bulk
    rw [Controller.slot_setNext, Controller.slot_setNext, alike.bulk other bulk]
  · intro ask other
    rw [Controller.slot_setNext, Controller.slot_setNext]
    split
    · rfl
    · exact alike.next ask other
  · intro other back
    rw [Controller.holds_setNext, Controller.holds_setNext]
    exact alike.holds other back
  · intro other back free
    rw [Controller.holds_setNext] at free
    rw [Controller.received_setNext, Controller.received_setNext]
    exact alike.received other back free

/-- The device looks at a buffer only if it is free, and at no more of it than its control word says. -/
theorem setControl (alike : Alike earlier otherEarlier asked returned first second) (endpoint : Endpoint)
    {control : BufferControl} (packet : Option Packet)
    (unread : control.available = true ∨ control.length = 0) :
    Alike earlier otherEarlier asked returned (first.setControl endpoint control packet)
      (second.setControl endpoint control packet) := by
  have journals := (alike.write (.buffer endpoint control packet)).journals
  refine ⟨journals, ?_, ?_, ?_, ?_⟩
  · intro other bulk
    rw [Controller.slot_setControl, Controller.slot_setControl, alike.bulk other bulk]
  · intro ask other
    rw [Controller.slot_setControl, Controller.slot_setControl]
    split
    · exact alike.next ask other
    · exact alike.next ask other
  · intro other back
    rw [Controller.holds_setControl, Controller.holds_setControl]
    split
    · rfl
    · exact alike.holds other back
  · intro other back free
    rw [Controller.holds_setControl] at free
    rw [Controller.received_setControl, Controller.received_setControl]
    split
    · rename_i same
      rw [if_pos same] at free
      rcases unread with arms | empty
      · rw [arms] at free
        cases free
      · rw [empty, Nat.zero_min, List.take_zero, List.take_zero]
    · rename_i apart
      rw [if_neg apart] at free
      exact alike.received other back free

theorem fill (alike : Alike earlier otherEarlier asked returned first second) (endpoint : Endpoint)
    (bytes : List UInt8) :
    Alike earlier otherEarlier asked returned (first.fill endpoint bytes) (second.fill endpoint bytes) := by
  refine ⟨alike.journals, alike.bulk, alike.next, alike.holds, ?_⟩
  intro other back free
  rw [Controller.received_fill, Controller.received_fill, alike.received other back free]

theorem armIn (alike : Alike earlier otherEarlier asked returned first second) {endpoint : InEndpoint}
    (packet : Packet) (known : asked ∨ 2 ≤ (Endpoint.toHost endpoint).index) :
    Alike earlier otherEarlier asked returned (first.armIn endpoint packet)
      (second.armIn endpoint packet) := by
  have same := alike.next_eq known
  unfold Controller.armIn
  rw [same]
  exact ((alike.fill _ packet.bytes).setControl _ (some packet) (.inl rfl)).setNext _ _

theorem armOut (alike : Alike earlier otherEarlier asked returned first second) {endpoint : OutEndpoint}
    (length : Nat) (known : asked ∨ 2 ≤ (Endpoint.fromHost endpoint).index) :
    Alike earlier otherEarlier asked returned (first.armOut endpoint length)
      (second.armOut endpoint length) := by
  have same := alike.next_eq known
  unfold Controller.armOut
  rw [same]
  exact (alike.setControl _ none (.inl rfl)).setNext _ _

theorem stallControl (alike : Alike earlier otherEarlier asked returned first second) :
    Alike earlier otherEarlier asked returned first.stallControl second.stallControl :=
  ((alike.write _).setControl _ none (.inr rfl)).setControl _ none (.inr rfl)

theorem disarm (alike : Alike earlier otherEarlier asked returned first second) (endpoint : Endpoint) :
    Alike earlier otherEarlier asked returned (first.disarm endpoint) (second.disarm endpoint) :=
  (alike.setNext endpoint false).setControl endpoint none (.inr rfl)

theorem disarmAll (alike : Alike earlier otherEarlier asked returned first second)
    (endpoints : List Endpoint) :
    Alike earlier otherEarlier asked returned (endpoints.foldl Controller.disarm first)
      (endpoints.foldl Controller.disarm second) := by
  induction endpoints generalizing first second with
  | nil => exact alike
  | cons endpoint rest restInduction => exact restInduction (alike.disarm endpoint)

theorem acted (alike : Alike earlier otherEarlier asked returned first second) (ask : asked)
    (made : Option ControlAct) :
    Alike earlier otherEarlier asked returned (first.acted made) (second.acted made) := by
  cases made with
  | none => exact alike
  | some made =>
    cases made with
    | send packet => exact alike.armIn packet (.inl ask)
    | room length => exact alike.armOut length (.inl ask)
    | refuse => exact alike.stallControl
    | address value => exact alike.write _

/-- A request settles what comes next on the control endpoint. -/
theorem setNextControl (alike : Alike earlier otherEarlier asked returned first second) (data1 : Bool) :
    Alike earlier otherEarlier True returned
      ((first.setNext (.toHost .control) data1).setNext (.fromHost .control) data1)
      ((second.setNext (.toHost .control) data1).setNext (.fromHost .control) data1) := by
  have both := (alike.setNext (.toHost .control) data1).setNext (.fromHost .control) data1
  refine ⟨both.journals, both.bulk, fun _ other => ?_, both.holds, both.received⟩
  simp only [Controller.slot_setNext]
  split
  · rfl
  · split
    · rfl
    · rename_i notOut notIn
      rw [alike.bulk other (Endpoint.bulk_of_ne notIn notOut)]

/-- Whatever the control endpoint was about, a buffer that comes back is free and holds what came with
it. -/
theorem handBack (alike : Alike earlier otherEarlier asked returned first second) {buffer : Returned}
    (released : buffer.stuck = false)
    (whole : buffer.address < 0x80 → buffer.length = buffer.data.length) :
    Alike earlier otherEarlier asked (fun endpoint => returned endpoint ∨ buffer.index = endpoint.index)
      (first.handBack buffer) (second.handBack buffer) := by
  refine ⟨?_, ?_, ?_, ?_, ?_⟩
  · obtain ⟨made, writes, otherWrites⟩ := alike.journals
    refine ⟨made, ?_, ?_⟩
    · rw [Controller.writes_handBack, writes]
    · rw [Controller.writes_handBack, otherWrites]
  · intro other bulk
    rw [Controller.slot_handBack, Controller.slot_handBack, alike.bulk other bulk]
  · intro ask other
    rw [Controller.slot_handBack, Controller.slot_handBack]
    split
    · rw [Slot.nextData1_handedBack, Slot.nextData1_handedBack]
      exact alike.next ask other
    · exact alike.next ask other
  · intro other back
    rw [Controller.holds_handBack _ _ released, Controller.holds_handBack _ _ released]
    split
    · rfl
    · rename_i apart
      exact alike.holds other (back.resolve_right apart)
  · intro other back free
    rw [Controller.holds_handBack _ _ released] at free
    rw [Controller.received_handBack _ _ whole, Controller.received_handBack _ _ whole]
    split
    · rfl
    · rename_i apart
      rw [if_neg apart] at free
      exact alike.received other (back.resolve_right apart) free

theorem handBackAll (alike : Alike earlier otherEarlier asked returned first second)
    {buffers : List Returned} (released : ∀ buffer ∈ buffers, buffer.stuck = false)
    (whole : ∀ buffer ∈ buffers, buffer.address < 0x80 → buffer.length = buffer.data.length) :
    Alike earlier otherEarlier asked
      (fun endpoint => returned endpoint ∨ ∃ buffer ∈ buffers, buffer.index = endpoint.index)
      (buffers.foldl Controller.handBack first) (buffers.foldl Controller.handBack second) := by
  induction buffers generalizing first second returned with
  | nil =>
    refine alike.weaken fun endpoint back => back.resolve_right ?_
    rintro ⟨buffer, present, -⟩
    cases present
  | cons buffer rest restInduction =>
    obtain ⟨releasedFirst, releasedRest⟩ := List.forall_mem_cons.mp released
    obtain ⟨wholeFirst, wholeRest⟩ := List.forall_mem_cons.mp whole
    refine (restInduction (alike.handBack releasedFirst wholeFirst) releasedRest wholeRest).weaken ?_
    rintro endpoint (back | ⟨other, present, place⟩)
    · exact .inl (.inl back)
    · rcases List.mem_cons.mp present with rfl | later
      · exact .inl (.inr place)
      · exact .inr ⟨other, later, place⟩

theorem answers {endpoint : InEndpoint} (bulk : 2 ≤ (Endpoint.toHost endpoint).index) :
    Exchange.Answers endpoint.number (Alike earlier otherEarlier asked returned) := by
  intro start other alike bytes
  have same : start.holds (.toHost endpoint) = other.holds (.toHost endpoint) := by
    rw [Controller.holds, alike.bulk _ bulk]
    rfl
  change (Controller.offer endpoint.number bytes start).1 = (Controller.offer endpoint.number bytes other).1 ∧
    Alike earlier otherEarlier asked returned (Controller.offer endpoint.number bytes start).2
      (Controller.offer endpoint.number bytes other).2
  simp only [Controller.offer, InEndpoint.ofNumber?_number, same]
  split
  · exact ⟨rfl, alike⟩
  · exact ⟨rfl, alike.armIn _ (.inr bulk)⟩

end Alike

end ScriptDrive
