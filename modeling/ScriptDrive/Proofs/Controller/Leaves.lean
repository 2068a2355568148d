import ScriptDrive.Proofs.Controller.Alike
import ScriptDrive.Proofs.Offers

/-!
# What happens to one endpoint

`packetsFor` lists the packets that an endpoint has been handed.  `Leaves endpoint before after` says that
nothing has happened to it: its control word, its packet buffer and the list are the same.  Whatever is done
to another endpoint leaves a bulk endpoint alone, since no other buffer lies where its own does; the rules
have one lemma for each thing that is done.

Work that offers packets to an endpoint hands over those that are accepted, and if none is, it leaves the
control word: `Offering.grows`.
-/

set_option autoImplicit false

namespace ScriptDrive

def Write.packetFor? (endpoint : Endpoint) : Write → Option Packet
  | .buffer other _ (some packet) => if other = endpoint then some packet else none
  | _ => none

theorem Write.packetFor?_of_ne {endpoint other : Endpoint} (control : BufferControl)
    (packet : Option Packet) (apart : endpoint ≠ other) :
    (Write.buffer other control packet).packetFor? endpoint = none := by
  cases packet with
  | none => rfl
  | some packet => exact if_neg apart.symm

theorem Endpoint.bufferOffset_ne {endpoint other : Endpoint} (bulk : 2 ≤ endpoint.index)
    (apart : endpoint ≠ other) : endpoint.bufferOffset ≠ other.bufferOffset := by
  revert bulk apart
  cases endpoint with
  | toHost endpoint =>
    cases other with
    | toHost other => cases endpoint <;> cases other <;> decide
    | fromHost other => cases endpoint <;> cases other <;> decide
  | fromHost endpoint =>
    cases other with
    | toHost other => cases endpoint <;> cases other <;> decide
    | fromHost other => cases endpoint <;> cases other <;> decide

namespace Controller

def packetsFor (controller : Controller) (endpoint : Endpoint) : List Packet :=
  controller.writes.filterMap (Write.packetFor? endpoint)

/-- Nothing has happened to the endpoint. -/
structure Leaves (endpoint : Endpoint) (before after : Controller) : Prop where
  slot : after.slot endpoint = before.slot endpoint
  memory : after.memory endpoint.bufferOffset = before.memory endpoint.bufferOffset
  packets : after.packetsFor endpoint = before.packetsFor endpoint

theorem packetsFor_write (controller : Controller) (endpoint : Endpoint) (made : Write) :
    (controller.write made).packetsFor endpoint =
      controller.packetsFor endpoint ++ (made.packetFor? endpoint).toList := by
  simp only [packetsFor, write, List.filterMap_append, List.filterMap_cons, List.filterMap_nil]
  cases made.packetFor? endpoint <;> rfl

namespace Leaves

variable {endpoint : Endpoint} {first second third : Controller}

theorem refl (controller : Controller) : Leaves endpoint controller controller :=
  ⟨rfl, rfl, rfl⟩

theorem trans (before : Leaves endpoint first second) (after : Leaves endpoint second third) :
    Leaves endpoint first third :=
  ⟨after.slot.trans before.slot, after.memory.trans before.memory, after.packets.trans before.packets⟩

theorem holds (leaves : Leaves endpoint first second) : second.holds endpoint = first.holds endpoint := by
  rw [Controller.holds, leaves.slot]
  rfl

theorem received (leaves : Leaves endpoint first second) :
    second.received endpoint = first.received endpoint := by
  rw [Controller.received, leaves.slot, leaves.memory]
  rfl

section Rules

variable (leaves : Leaves endpoint first second) {other : Endpoint}

include leaves

theorem write {made : Write} (silent : made.packetFor? endpoint = none) :
    Leaves endpoint first (second.write made) := by
  refine leaves.trans ⟨rfl, rfl, ?_⟩
  rw [packetsFor_write, silent]
  exact List.append_nil _

theorem setSlot (apart : endpoint ≠ other) (slot : Slot) :
    Leaves endpoint first (second.setSlot other slot) :=
  leaves.trans ⟨slot_setSlot_of_ne _ _ apart, rfl, rfl⟩

theorem setNext (apart : endpoint ≠ other) (data1 : Bool) :
    Leaves endpoint first (second.setNext other data1) :=
  leaves.setSlot apart _

theorem setControl (apart : endpoint ≠ other) (control : BufferControl) (packet : Option Packet) :
    Leaves endpoint first (second.setControl other control packet) :=
  (leaves.setSlot apart _).write (Write.packetFor?_of_ne control packet apart)

theorem fill (elsewhere : endpoint.bufferOffset ≠ other.bufferOffset) (bytes : List UInt8) :
    Leaves endpoint first (second.fill other bytes) :=
  leaves.trans ⟨rfl, if_neg elsewhere, rfl⟩

theorem armIn {other : InEndpoint} (bulk : 2 ≤ endpoint.index) (apart : endpoint ≠ .toHost other)
    (packet : Packet) : Leaves endpoint first (second.armIn other packet) :=
  ((leaves.fill (Endpoint.bufferOffset_ne bulk apart) packet.bytes).setControl apart _ _).setNext apart _

theorem armOut {other : OutEndpoint} (apart : endpoint ≠ .fromHost other) (length : Nat) :
    Leaves endpoint first (second.armOut other length) :=
  (leaves.setControl apart _ none).setNext apart _

/-- The acts of a control transfer concern the control endpoint only. -/
theorem acted (bulk : 2 ≤ endpoint.index) (made : Option ControlAct) :
    Leaves endpoint first (second.acted made) := by
  have notIn : endpoint ≠ .toHost .control := by
    rintro rfl
    exact absurd bulk (by decide)
  have notOut : endpoint ≠ .fromHost .control := by
    rintro rfl
    exact absurd bulk (by decide)
  cases made with
  | none => exact leaves
  | some made =>
    cases made with
    | send packet => exact leaves.armIn bulk notIn packet
    | room length => exact leaves.armOut notOut length
    | refuse => exact ((leaves.write rfl).setControl notIn _ none).setControl notOut _ none
    | address value => exact leaves.write rfl

end Rules

end Leaves

/-! ## Offers -/

theorem offer_eq (controller : Controller) (endpoint : InEndpoint) (bytes : List UInt8) :
    Link.offer endpoint.number bytes controller =
      if controller.holds (.toHost endpoint) then (some ⟨endpoint.number⟩, controller)
      else (none, controller.armIn endpoint (.front bytes)) := by
  change offer endpoint.number bytes controller = _
  simp only [offer, InEndpoint.ofNumber?_number]

theorem Leaves.of_offered {endpoint : Endpoint} {other : InEndpoint} {before after : Controller}
    (bulk : 2 ≤ endpoint.index) (apart : endpoint ≠ .toHost other)
    (offered : Offered other.number before after) : Leaves endpoint before after := by
  induction offered with
  | nothing => exact .refl before
  | more _ bytes leaves =>
    rw [offer_eq]
    split
    · exact leaves
    · exact leaves.armIn bulk apart _

/-- The endpoint has been handed these packets, and without any its control word is as it was. -/
structure Grows (endpoint : InEndpoint) (before after : Controller) (sent : List (List UInt8)) : Prop where
  packets : after.packetsFor (.toHost endpoint) =
    before.packetsFor (.toHost endpoint) ++ sent.map Packet.front
  still : sent = [] → after.slot (.toHost endpoint) = before.slot (.toHost endpoint)

variable {endpoint : InEndpoint}

theorem Grows.nothing (controller : Controller) : Grows endpoint controller controller [] :=
  ⟨(List.append_nil _).symm, fun _ => rfl⟩

theorem Grows.trans {first second third : Controller} {sent later : List (List UInt8)}
    (before : Grows endpoint first second sent) (after : Grows endpoint second third later) :
    Grows endpoint first third (sent ++ later) := by
  refine ⟨?_, fun none => ?_⟩
  · rw [after.packets, before.packets, List.map_append, List.append_assoc]
  · obtain ⟨noneBefore, noneAfter⟩ := List.append_eq_nil_iff.mp none
    exact (after.still noneAfter).trans (before.still noneBefore)

theorem grows_armIn (controller : Controller) (bytes : List UInt8) :
    Grows endpoint controller (controller.armIn endpoint (.front bytes)) [bytes] := by
  refine ⟨?_, fun none => absurd none (List.cons_ne_nil _ _)⟩
  exact (packetsFor_write ..).trans (congrArg (_ ++ ·) (congrArg Option.toList (if_pos rfl)))

theorem grows_offer (controller : Controller) (bytes : List UInt8) :
    Grows endpoint controller (Link.offer endpoint.number bytes controller).2
      (acceptedOn endpoint.number
        [.offer ⟨endpoint.number, bytes, (Link.offer endpoint.number bytes controller).1⟩]) := by
  rw [offer_eq]
  split
  · exact .nothing controller
  · rw [acceptedOn_taken, if_pos rfl]
    exact controller.grows_armIn bytes

end Controller

namespace Exchange

variable {α : Type} {endpoint : InEndpoint}

/-- What is offered to one endpoint leaves the other bulk endpoints alone. -/
theorem Offering.leaves {work : Exchange Controller α} (offers : Offering endpoint.number work)
    {other : Endpoint} (bulk : 2 ≤ other.index) (apart : other ≠ .toHost endpoint) (start : Controller) :
    Controller.Leaves other start (work start).link :=
  .of_offered bulk apart (offers.offered start)

theorem Offering.grows {work : Exchange Controller α} (offers : Offering endpoint.number work)
    (start : Controller) :
    Controller.Grows endpoint start (work start).link
      (acceptedOn endpoint.number (work start).events) := by
  induction offers generalizing start with
  | pure value => exact .nothing start
  | lift checked => exact .nothing start
  | log entry => exact .nothing start
  | logAll entries =>
    change Controller.Grows endpoint start start (acceptedOn _ (entries.map .note))
    rw [acceptedOn_notes]
    exact .nothing start
  | offer bytes => exact start.grows_offer bytes
  | @bind α β first next _ _ firstInduction nextInduction =>
    cases result : (first start).result with
    | error fault =>
      rw [bind_of_error result]
      exact firstInduction start
    | ok value =>
      rw [bind_of_ok result, acceptedOn_append]
      exact (firstInduction start).trans (nextInduction value _)

end Exchange

end ScriptDrive
