import ScriptDrive.Proofs.Controller.Journal
import ScriptDrive.Proofs.Drive.Endpoints

/-!
# Who holds a buffer

The controller holds a buffer from the moment the device arms its endpoint.  For each thing that is done
to a controller, one lemma says whose buffers it holds afterwards.  `SentOn` is what offers on one
endpoint can come to, and `Offered.sentOn` that nothing else can.
-/

set_option autoImplicit false

namespace ScriptDrive

namespace Endpoint

theorem index_injective {first second : Endpoint} (same : first.index = second.index) :
    first = second := by
  have found := ofIndex?_index first
  rw [same, ofIndex?_index] at found
  exact (Option.some.inj found).symm

theorem index_lt (endpoint : Endpoint) : endpoint.index < 32 := by
  cases endpoint with
  | toHost endpoint => cases endpoint <;> decide
  | fromHost endpoint => cases endpoint <;> decide

end Endpoint

namespace Controller

section Holds

variable (controller : Controller) (endpoint other : Endpoint)

@[simp] theorem holds_write (made : Write) : (controller.write made).holds other = controller.holds other := rfl

@[simp] theorem holds_fill (bytes : List UInt8) :
    (controller.fill endpoint bytes).holds other = controller.holds other := rfl

theorem holds_setSlot (slot : Slot) :
    (controller.setSlot endpoint slot).holds other =
      if other = endpoint then slot.control.available else controller.holds other := by
  unfold holds
  by_cases same : other = endpoint
  · rw [if_pos same, same, slot_setSlot_same]
  · rw [if_neg same, slot_setSlot_of_ne _ _ same]

@[simp] theorem holds_setNext (data1 : Bool) :
    (controller.setNext endpoint data1).holds other = controller.holds other := by
  rw [setNext, holds_setSlot]
  split
  · rename_i same
    rw [same]
    rfl
  · rfl

theorem holds_setControl (control : BufferControl) (packet : Option Packet) :
    (controller.setControl endpoint control packet).holds other =
      if other = endpoint then control.available else controller.holds other := by
  rw [setControl, holds_write, holds_setSlot]

theorem holds_armIn (endpoint : InEndpoint) (packet : Packet) :
    (controller.armIn endpoint packet).holds other =
      if other = .toHost endpoint then true else controller.holds other := by
  rw [armIn, holds_setNext, holds_setControl, holds_fill]

theorem holds_armOut (endpoint : OutEndpoint) (length : Nat) :
    (controller.armOut endpoint length).holds other =
      if other = .fromHost endpoint then true else controller.holds other := by
  rw [armOut, holds_setNext, holds_setControl]

theorem holds_stallControl :
    controller.stallControl.holds other =
      if other = .toHost .control ∨ other = .fromHost .control then false
      else controller.holds other := by
  rw [stallControl, holds_setControl, holds_setControl, holds_write]
  by_cases first : other = .toHost .control
  · rw [first]
    rfl
  · simp only [first, false_or, if_false]

/-- A buffer that is handed back is not the controller's, unless it was stuck. -/
theorem holds_handBack {returned : Returned} (released : returned.stuck = false) :
    (controller.handBack returned).holds other =
      if returned.index = other.index then false else controller.holds other := by
  unfold handBack
  cases found : Endpoint.ofIndex? returned.index with
  | none =>
    have apart : returned.index ≠ other.index := by
      intro same
      rw [same, Endpoint.ofIndex?_index] at found
      cases found
    rw [if_neg apart]
  | some endpoint =>
    have place := Endpoint.index_of_ofIndex? found
    have same : returned.index = other.index ↔ other = endpoint := by
      rw [← place]
      exact ⟨fun same => (Endpoint.index_injective same).symm, fun same => by rw [same]⟩
    cases endpoint with
    | toHost endpoint => simp only [holds_setSlot, same, released, Bool.and_false]
    | fromHost endpoint => simp only [holds_setSlot, holds_fill, same, released, Bool.and_false]

end Holds

theorem holds_handBackAll (controller : Controller) (other : Endpoint) {returned : List Returned}
    (released : ∀ buffer ∈ returned, buffer.stuck = false) :
    (returned.foldl handBack controller).holds other = true ↔
      (∀ buffer ∈ returned, buffer.index ≠ other.index) ∧ controller.holds other = true := by
  induction returned generalizing controller with
  | nil => exact ⟨fun held => ⟨List.forall_mem_nil _, held⟩, fun held => held.2⟩
  | cons buffer rest restInduction =>
    obtain ⟨first, others⟩ := List.forall_mem_cons.mp released
    rw [List.foldl_cons, restInduction _ others, holds_handBack _ _ first, List.forall_mem_cons]
    by_cases same : buffer.index = other.index
    · simp only [same, if_true, Bool.false_eq_true, and_false, ne_eq, not_true_eq_false, false_and]
    · simp only [same, if_false, ne_eq, not_false_eq_true, true_and]

/-! ## Offers -/

/-- Packets have been handed to one endpoint whenever its buffer was free, and nothing else has changed but
the memory. -/
structure SentOn (endpoint : InEndpoint) (before after : Controller) : Prop where
  slot : ∀ other, other ≠ .toHost endpoint → after.slot other = before.slot other
  writes : ∃ made : List (BufferControl × Packet), after.writes =
    before.writes ++ made.map fun each => .buffer (.toHost endpoint) each.1 (some each.2)
  owned : before.Owned after

namespace SentOn

variable {endpoint : InEndpoint} {first second third : Controller}

theorem refl (controller : Controller) : SentOn endpoint controller controller :=
  ⟨fun _ _ => rfl, ⟨[], (List.append_nil _).symm⟩, .refl controller⟩

theorem trans (before : SentOn endpoint first second) (after : SentOn endpoint second third) :
    SentOn endpoint first third := by
  obtain ⟨made, writesBefore⟩ := before.writes
  obtain ⟨later, writesAfter⟩ := after.writes
  refine ⟨fun other apart => (after.slot other apart).trans (before.slot other apart),
    ⟨made ++ later, ?_⟩, before.owned.trans after.owned⟩
  rw [writesAfter, writesBefore, List.map_append, List.append_assoc]

theorem holds (sent : SentOn endpoint first second) {other : Endpoint}
    (apart : other ≠ .toHost endpoint) : second.holds other = first.holds other := by
  rw [Controller.holds, sent.slot other apart]
  rfl

end SentOn

theorem slot_armIn_of_ne (controller : Controller) (endpoint : InEndpoint) (packet : Packet)
    {other : Endpoint} (apart : other ≠ .toHost endpoint) :
    (controller.armIn endpoint packet).slot other = controller.slot other := by
  simp only [armIn, setNext, setControl, slot_setSlot_of_ne _ _ apart, slot_write, slot_fill]

theorem sentOn_armIn {controller : Controller} {endpoint : InEndpoint} (packet : Packet)
    (free : controller.holds (.toHost endpoint) = false) :
    SentOn endpoint controller (controller.armIn endpoint packet) :=
  ⟨fun _ apart => controller.slot_armIn_of_ne endpoint packet apart, ⟨[(_, packet)], rfl⟩,
    .armIn (.refl controller) packet fun _ => free⟩

theorem sentOn_offer (controller : Controller) (endpoint : InEndpoint) (bytes : List UInt8) :
    SentOn endpoint controller (Link.offer endpoint.number bytes controller).2 := by
  change SentOn endpoint controller (offer endpoint.number bytes controller).2
  simp only [offer, InEndpoint.ofNumber?_number]
  split
  · exact .refl controller
  · rename_i free
    exact sentOn_armIn (.front bytes) (Bool.eq_false_iff.mpr free)

end Controller

theorem Offered.sentOn {endpoint : InEndpoint} {before after : Controller}
    (offered : Offered endpoint.number before after) : Controller.SentOn endpoint before after := by
  induction offered with
  | nothing => exact .refl before
  | more _ bytes sent => exact sent.trans (Controller.sentOn_offer _ endpoint bytes)

end ScriptDrive
