import ScriptDrive.Device.Control
import ScriptDrive.Proofs.Controller.Holds

/-!
# Acts on the control endpoint

Of all writes to the registers, those that matter to a control transfer are few: a packet handed over, room
made for one, a refusal, and the address of the device.  `Controller.act` performs one of these acts, and
`acts` reads them back from the writes.  The rules for `Meets` say what the device's own ways to write do
to the controller.
-/

set_option autoImplicit false

namespace ScriptDrive

inductive ControlAct where
  | send (packet : Packet)
  /-- Room for a packet of at most so many bytes. -/
  | room (length : Nat)
  | refuse
  | address (value : UInt32)
  deriving DecidableEq

def Write.act? : Write → Option ControlAct
  | .buffer (.toHost .control) _ (some packet) => some (.send packet)
  | .buffer (.fromHost .control) control none =>
    if control.available then some (.room control.length) else none
  | .register .stallArm _ => some .refuse
  | .register .deviceAddress value => some (.address value)
  | _ => none

namespace Controller

def acts (controller : Controller) : List ControlAct :=
  controller.writes.filterMap Write.act?

def act (controller : Controller) : ControlAct → Controller
  | .send packet => controller.armIn .control packet
  | .room length => controller.armOut .control length
  | .refuse => controller.stallControl
  | .address value => controller.write (.register .deviceAddress value)

section Acts

variable (controller : Controller)

theorem acts_write (made : Write) :
    (controller.write made).acts = controller.acts ++ made.act?.toList := by
  simp only [acts, write, List.filterMap_append, List.filterMap_cons, List.filterMap_nil]
  cases made.act? <;> rfl

@[simp] theorem acts_setNext (endpoint : Endpoint) (data1 : Bool) :
    (controller.setNext endpoint data1).acts = controller.acts := rfl

@[simp] theorem acts_fill (endpoint : Endpoint) (bytes : List UInt8) :
    (controller.fill endpoint bytes).acts = controller.acts := rfl

theorem acts_setControl (endpoint : Endpoint) (control : BufferControl) (packet : Option Packet) :
    (controller.setControl endpoint control packet).acts =
      controller.acts ++ (Write.buffer endpoint control packet).act?.toList :=
  acts_write _ _

theorem acts_act (made : ControlAct) : (controller.act made).acts = controller.acts ++ [made] := by
  cases made with
  | send packet =>
    rw [act, armIn, acts_setNext, acts_setControl, acts_fill]
    rfl
  | room length =>
    rw [act, armOut, acts_setNext, acts_setControl]
    rfl
  | refuse =>
    rw [act, stallControl, acts_setControl, acts_setControl, acts_write, List.append_assoc,
      List.append_assoc]
    rfl
  | address value =>
    rw [act, acts_write]
    rfl

theorem acts_write_of_none {made : Write} (silent : made.act? = none) :
    (controller.write made).acts = controller.acts := by
  rw [acts_write, silent]
  exact List.append_nil _

theorem holds_act (made : ControlAct) (other : Endpoint) :
    (controller.act made).holds other =
      match made with
      | .send _ => if other = .toHost .control then true else controller.holds other
      | .room _ => if other = .fromHost .control then true else controller.holds other
      | .refuse =>
        if other = .toHost .control ∨ other = .fromHost .control then false
        else controller.holds other
      | .address _ => controller.holds other := by
  cases made with
  | send packet => exact controller.holds_armIn other .control packet
  | room length => exact controller.holds_armOut other .control length
  | refuse => exact controller.holds_stallControl other
  | address value => rfl

/-- Acts on the control endpoint arm no buffer of another one. -/
theorem owned_act (made : ControlAct) : controller.Owned (controller.act made) := by
  have same := Owned.refl controller
  cases made with
  | send packet => exact same.armIn packet fun bulk => absurd bulk (by decide)
  | room length => exact same.armOut length fun bulk => absurd bulk (by decide)
  | refuse => exact same.stallControl
  | address value => exact same.write rfl

/-- Acts on the control endpoint leave the other buffers where they are. -/
theorem holds_act_of_ne (made : ControlAct) {other : Endpoint} (notIn : other ≠ .toHost .control)
    (notOut : other ≠ .fromHost .control) :
    (controller.act made).holds other = controller.holds other := by
  rw [holds_act]
  cases made <;> simp only [notIn, notOut, or_self, if_false]

end Acts

def acted (controller : Controller) (made : Option ControlAct) : Controller :=
  made.elim controller controller.act

/-- The controller has gone from one state to the other by an act, or by none, as far as a control
transfer and the holder of a buffer can tell. -/
structure Did (before : Controller) (made : Option ControlAct) (after : Controller) : Prop where
  holds : ∀ other, after.holds other = (before.acted made).holds other
  acts : after.acts = before.acts ++ made.toList
  owned : before.Owned after

theorem holds_acted_congr {first second : Controller}
    (same : ∀ other, first.holds other = second.holds other) (made : Option ControlAct)
    (other : Endpoint) : (first.acted made).holds other = (second.acted made).holds other := by
  cases made with
  | none => exact same other
  | some made =>
    simp only [acted, Option.elim_some, holds_act, same]

theorem acts_acted (controller : Controller) (made : Option ControlAct) :
    (controller.acted made).acts = controller.acts ++ made.toList := by
  cases made with
  | none => exact (List.append_nil _).symm
  | some made => exact controller.acts_act made

theorem owned_acted (controller : Controller) (made : Option ControlAct) :
    controller.Owned (controller.acted made) := by
  cases made with
  | none => exact .refl controller
  | some made => exact controller.owned_act made

namespace Did

variable {before middle after : Controller} {made : Option ControlAct}

theorem before_acted (holds : ∀ other, middle.holds other = before.holds other)
    (acts : middle.acts = before.acts) (owned : before.Owned middle) :
    before.Did made (middle.acted made) := by
  refine ⟨holds_acted_congr holds made, ?_, owned.trans (middle.owned_acted made)⟩
  rw [acts_acted, acts]

theorem after_write {register : Register} {value : UInt32}
    (silent : (Write.register register value).act? = none)
    (apart : register.isBufferControl = false) (did : before.Did made after) :
    before.Did made (after.write (.register register value)) :=
  ⟨did.holds, (acts_write_of_none after silent).trans did.acts,
    did.owned.write apart⟩

/-- The other buffers stay where they are. -/
theorem holds_of_ne (did : before.Did made after) {other : Endpoint} (notIn : other ≠ .toHost .control)
    (notOut : other ≠ .fromHost .control) : after.holds other = before.holds other := by
  rw [did.holds]
  cases made with
  | none => rfl
  | some made => exact before.holds_act_of_ne made notIn notOut

end Did

end Controller

/-! ## The device's ways to write -/

section Rules

variable (start : Controller) (post : Unit → Controller → List Event → Prop)

theorem meets_writeRegister (register : Register) (value : UInt32) :
    (writeRegister register value).Meets start post ↔
      post () (start.write (.register register value)) [] :=
  Exchange.meets_modifyLink ..

theorem meets_raisePin (pin : Nat) :
    (raisePin pin).Meets start post ↔ post () (start.write (.register .pinRaise (bit pin))) [] :=
  meets_writeRegister ..

theorem meets_lowerPin (pin : Nat) :
    (lowerPin pin).Meets start post ↔ post () (start.write (.register .pinLower (bit pin))) [] :=
  meets_writeRegister ..

theorem meets_armIn (endpoint : InEndpoint) {bytes : List UInt8} (short : bytes.length ≤ maxPacket) :
    (armIn endpoint bytes).Meets start post ↔ post () (start.armIn endpoint (.front bytes)) [] := by
  have packet : (⟨bytes, short⟩ : Packet) = .front bytes :=
    Packet.ext (Packet.bytes_front_of_le short).symm
  simp only [armIn, Exchange.meets_bind, Exchange.meets_lift, Packet.ofBytes_of_le short, packet,
    Except.ok.injEq, exists_eq_left', Exchange.meets_modifyLink, List.nil_append]

theorem meets_armOut (endpoint : OutEndpoint) {length : Nat} (short : length ≤ maxPacket) :
    (armOut endpoint length).Meets start post ↔ post () (start.armOut endpoint length) [] := by
  simp only [armOut, if_neg (Nat.not_lt.mpr short), Exchange.meets_modifyLink]

end Rules

end ScriptDrive
