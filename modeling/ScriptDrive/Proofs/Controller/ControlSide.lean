import ScriptDrive.Proofs.Controller.Alike

/-!
# What shows on the control endpoint

`ControlSide` is all that a host on the control endpoint can tell of a controller: the writes that concern
that endpoint, and the kind of its next packet in either direction.  An act on the control endpoint does to
this side what it does to the controller (`controlSide_act`), and all that is done for the other endpoints
leaves it as it is.
-/

set_option autoImplicit false

namespace ScriptDrive

/-- The write goes to a control word of the control endpoint, refuses a request or sets the address. -/
def Write.concernsControl (made : Write) : Bool :=
  decide (made.target ∈ [.bufferControl (Endpoint.toHost .control).index,
    .bufferControl (Endpoint.fromHost .control).index, .stallArm, .deviceAddress])

/-- No other write is an act. -/
theorem Write.act?_eq_none {made : Write} (apart : made.concernsControl = false) : made.act? = none := by
  cases made with
  | register register value =>
    cases register with
    | stallArm | deviceAddress => cases apart
    | _ => rfl
  | buffer endpoint control packet =>
    cases endpoint with
    | toHost endpoint =>
      cases endpoint with
      | control => cases apart
      | notify | console | disk => rfl
    | fromHost endpoint =>
      cases endpoint with
      | control => cases apart
      | console | disk => rfl

/-- What a host on the control endpoint can tell of a controller. -/
@[ext] structure ControlSide where
  writes : List Write
  /-- The next packet to the host is of the odd kind, DATA1. -/
  nextIn : Bool
  /-- The next packet from the host is of the odd kind. -/
  nextOut : Bool

namespace ControlSide

def act (side : ControlSide) : ControlAct → ControlSide
  | .send packet =>
    { side with
      writes := side.writes ++ [.buffer (.toHost .control)
        { full := true, data1 := side.nextIn, available := true, length := packet.bytes.length }
        (some packet)]
      nextIn := !side.nextIn }
  | .room length =>
    { side with
      writes := side.writes ++ [.buffer (.fromHost .control)
        { data1 := side.nextOut, available := true, length := length } none]
      nextOut := !side.nextOut }
  | .refuse =>
    { side with
      writes := side.writes ++ [.register .stallArm 3,
        .buffer (.toHost .control) { stall := true } none,
        .buffer (.fromHost .control) { stall := true } none] }
  | .address value => { side with writes := side.writes ++ [.register .deviceAddress value] }

end ControlSide

namespace Controller

def controlWrites (controller : Controller) : List Write :=
  controller.writes.filter Write.concernsControl

def controlSide (controller : Controller) : ControlSide where
  writes := controller.controlWrites
  nextIn := (controller.slot (.toHost .control)).nextData1
  nextOut := (controller.slot (.fromHost .control)).nextData1

section Side

variable (controller : Controller)

theorem controlWrites_of_writes {controller after : Controller} {made : List Write}
    (writes : after.writes = controller.writes ++ made) :
    after.controlWrites = controller.controlWrites ++ made.filter Write.concernsControl := by
  rw [controlWrites, writes, List.filter_append]
  rfl

theorem controlSide_write {made : Write} (silent : made.concernsControl = false) :
    (controller.write made).controlSide = controller.controlSide := by
  have writes : (controller.write made).writes = controller.writes ++ [made] := rfl
  apply ControlSide.ext
  · refine (controlWrites_of_writes writes).trans ?_
    rw [List.filter_cons, silent]
    exact List.append_nil _
  · rfl
  · rfl

theorem controlSide_act (made : ControlAct) :
    (controller.act made).controlSide = controller.controlSide.act made := by
  cases made with
  | send packet =>
    have writes : (controller.act (.send packet)).writes =
        controller.writes ++ [.buffer (.toHost .control) _ (some packet)] := rfl
    exact ControlSide.ext (controlWrites_of_writes writes) rfl rfl
  | room length =>
    have writes : (controller.act (.room length)).writes =
        controller.writes ++ [.buffer (.fromHost .control) _ none] := rfl
    exact ControlSide.ext (controlWrites_of_writes writes) rfl rfl
  | refuse =>
    have writes : (controller.act .refuse).writes =
        controller.writes ++ ([.register .stallArm 3] ++ ([.buffer (.toHost .control) _ none] ++
          [.buffer (.fromHost .control) _ none])) :=
      (List.append_assoc ..).trans (List.append_assoc ..)
    exact ControlSide.ext (controlWrites_of_writes writes) rfl rfl
  | address value =>
    have writes : (controller.act (.address value)).writes =
        controller.writes ++ [.register .deviceAddress value] := rfl
    exact ControlSide.ext (controlWrites_of_writes writes) rfl rfl

/-- The acts so far show on the control endpoint. -/
theorem acts_eq_filterMap : controller.acts = controller.controlWrites.filterMap Write.act? := by
  unfold acts controlWrites
  induction controller.writes with
  | nil => rfl
  | cons made rest restInduction =>
    cases concerns : made.concernsControl with
    | true => rw [List.filter_cons_of_pos concerns, List.filterMap_cons, List.filterMap_cons, restInduction]
    | false =>
      rw [List.filter_cons_of_neg (Bool.eq_false_iff.mp concerns), List.filterMap_cons,
        Write.act?_eq_none concerns, restInduction]

theorem acts_of_controlSide {controller after : Controller}
    (same : after.controlSide = controller.controlSide) : after.acts = controller.acts := by
  have writes := congrArg ControlSide.writes same
  rw [acts_eq_filterMap, acts_eq_filterMap]
  exact congrArg _ writes

/-- Room for packets on another endpoint is made elsewhere. -/
theorem controlSide_armOut {endpoint : OutEndpoint} (length : Nat) (apart : endpoint ≠ .control) :
    (controller.armOut endpoint length).controlSide = controller.controlSide := by
  cases endpoint with
  | control => exact absurd rfl apart
  | console | disk =>
    apply ControlSide.ext
    · exact (controlWrites_of_writes rfl).trans (List.append_nil _)
    · rfl
    · rfl

theorem controlSide_handBack (buffer : Returned) :
    (controller.handBack buffer).controlSide = controller.controlSide := by
  have next (endpoint : Endpoint) : ((controller.handBack buffer).slot endpoint).nextData1 =
      (controller.slot endpoint).nextData1 := by
    rw [slot_handBack]
    split
    · exact Slot.nextData1_handedBack ..
    · rfl
  apply ControlSide.ext
  · exact congrArg (List.filter _) (controller.writes_handBack buffer)
  · exact next _
  · exact next _

end Side

/-- Packets for another endpoint are handed over elsewhere. -/
theorem SentOn.controlSide {endpoint : InEndpoint} {before after : Controller}
    (sent : SentOn endpoint before after) (apart : endpoint ≠ .control) :
    after.controlSide = before.controlSide := by
  obtain ⟨made, writes⟩ := sent.writes
  have elsewhere : (Endpoint.toHost .control) ≠ .toHost endpoint := fun same =>
    apart (Endpoint.toHost.inj same).symm
  have silent : (made.map fun each => Write.buffer (.toHost endpoint) each.1 (some each.2)).filter
      Write.concernsControl = [] := by
    refine List.filter_eq_nil_iff.mpr fun write present => ?_
    obtain ⟨each, -, rfl⟩ := List.mem_map.mp present
    cases endpoint with
    | control => exact absurd rfl apart
    | notify | console | disk => exact Bool.false_ne_true
  apply ControlSide.ext
  · refine (controlWrites_of_writes writes).trans ?_
    rw [silent]
    exact List.append_nil _
  · exact congrArg Slot.nextData1 (sent.slot _ elsewhere)
  · exact congrArg Slot.nextData1 (sent.slot _ Endpoint.noConfusion)

end Controller

end ScriptDrive
