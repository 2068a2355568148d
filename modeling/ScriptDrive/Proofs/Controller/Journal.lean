import ScriptDrive.Controller.Buffers

/-!
# The journal of a controller

All the device does to the control words and to the packet buffers, it does by writes, and the controller
remembers them.  `perform` performs a write, and `Shows` says that two controllers look the same to
whoever watches the writes and the buffers.  `Exclusive` says of a list of writes that none of them arms a
bulk buffer that the controller holds when it is made.

`Owned` puts them together: the device has gone from one controller to the other by writes of that kind.
It holds of every single thing done to a controller, and it composes.
-/

set_option autoImplicit false

namespace ScriptDrive

def Register.isBufferControl : Register → Bool
  | .bufferControl _ => true
  | _ => false

namespace Controller

variable {first second third before after : Controller}

def perform (controller : Controller) : Write → Controller
  | .register register value => controller.write (.register register value)
  | .buffer endpoint control packet =>
    (packet.elim controller fun packet => controller.fill endpoint packet.bytes).setControl endpoint
      control packet

structure Shows (first second : Controller) : Prop where
  writes : first.writes = second.writes
  memory : first.memory = second.memory
  control : ∀ endpoint, (first.slot endpoint).control = (second.slot endpoint).control

/-- The write arms no bulk buffer that the controller holds, and changes no control word but as the word of
a buffer. -/
def Permits (controller : Controller) : Write → Prop
  | .register register _ => register.isBufferControl = false
  | .buffer endpoint control _ =>
    control.available = true → 2 ≤ endpoint.index → controller.holds endpoint = false

/-- Each of the writes is permitted when it is made. -/
def Exclusive (controller : Controller) : List Write → Prop
  | [] => True
  | made :: rest => controller.Permits made ∧ (controller.perform made).Exclusive rest

/-- The device has gone from one controller to the other by permitted writes. -/
def Owned (before after : Controller) : Prop :=
  ∃ made : List Write, after.Shows (made.foldl perform before) ∧ before.Exclusive made

/-! ## Controllers that look the same -/

namespace Shows

theorem refl (controller : Controller) : controller.Shows controller :=
  ⟨rfl, rfl, fun _ => rfl⟩

theorem trans (left : first.Shows second) (right : second.Shows third) : first.Shows third :=
  ⟨left.writes.trans right.writes, left.memory.trans right.memory,
    fun endpoint => (left.control endpoint).trans (right.control endpoint)⟩

theorem symm (same : first.Shows second) : second.Shows first :=
  ⟨same.writes.symm, same.memory.symm, fun endpoint => (same.control endpoint).symm⟩

theorem holds (same : first.Shows second) (endpoint : Endpoint) :
    first.holds endpoint = second.holds endpoint := by
  rw [Controller.holds, same.control]
  rfl

theorem write (same : first.Shows second) (made : Write) : (first.write made).Shows (second.write made) := by
  refine ⟨?_, same.memory, same.control⟩
  rw [Controller.write, Controller.write, same.writes]

theorem fill (same : first.Shows second) (endpoint : Endpoint) (bytes : List UInt8) :
    (first.fill endpoint bytes).Shows (second.fill endpoint bytes) := by
  refine ⟨same.writes, ?_, same.control⟩
  funext place
  simp only [Controller.fill, same.memory]

theorem setControl (same : first.Shows second) (endpoint : Endpoint) (control : BufferControl)
    (packet : Option Packet) :
    (first.setControl endpoint control packet).Shows (second.setControl endpoint control packet) := by
  apply Shows.write
  refine ⟨same.writes, same.memory, fun other => ?_⟩
  by_cases here : other = endpoint
  · rw [here, slot_setSlot_same, slot_setSlot_same]
  · rw [slot_setSlot_of_ne _ _ here, slot_setSlot_of_ne _ _ here]
    exact same.control other

theorem perform (same : first.Shows second) (made : Write) :
    (first.perform made).Shows (second.perform made) := by
  cases made with
  | register register value => exact same.write _
  | buffer endpoint control packet =>
    cases packet with
    | none => exact same.setControl endpoint control none
    | some packet => exact (same.fill endpoint packet.bytes).setControl endpoint control (some packet)

theorem performAll (same : first.Shows second) (made : List Write) :
    (made.foldl Controller.perform first).Shows (made.foldl Controller.perform second) := by
  induction made generalizing first second with
  | nil => exact same
  | cons each rest restInduction => exact restInduction (same.perform each)

theorem exclusive (same : first.Shows second) {made : List Write} (exclusive : second.Exclusive made) :
    first.Exclusive made := by
  induction made generalizing first second with
  | nil => trivial
  | cons each rest restInduction =>
    obtain ⟨permitted, later⟩ := exclusive
    refine ⟨?_, restInduction (same.perform each) later⟩
    cases each with
    | register register value => exact permitted
    | buffer endpoint control packet =>
      intro arms bulk
      rw [same.holds]
      exact permitted arms bulk

end Shows

/-- The kind of its next packet is the device's own business. -/
theorem shows_setNext (controller : Controller) (endpoint : Endpoint) (data1 : Bool) :
    (controller.setNext endpoint data1).Shows controller := by
  refine ⟨rfl, rfl, fun other => ?_⟩
  by_cases here : other = endpoint
  · rw [here, setNext, slot_setSlot_same]
  · rw [setNext, slot_setSlot_of_ne _ _ here]

theorem writes_handBack (controller : Controller) (buffer : Returned) :
    (controller.handBack buffer).writes = controller.writes := by
  unfold handBack
  split
  · rfl
  · dsimp only
    split <;> rfl

/-! ## Writes one after the other -/

theorem writes_perform (controller : Controller) (made : Write) :
    (controller.perform made).writes = controller.writes ++ [made] := by
  cases made with
  | register register value => rfl
  | buffer endpoint control packet => cases packet <;> rfl

theorem writes_performAll (controller : Controller) (made : List Write) :
    (made.foldl perform controller).writes = controller.writes ++ made := by
  induction made generalizing controller with
  | nil => exact (List.append_nil _).symm
  | cons each rest restInduction =>
    rw [List.foldl_cons, restInduction, writes_perform, List.append_assoc]
    rfl

theorem Exclusive.append {controller : Controller} {earlier later : List Write}
    (front : controller.Exclusive earlier)
    (back : (earlier.foldl perform controller).Exclusive later) :
    controller.Exclusive (earlier ++ later) := by
  induction earlier generalizing controller with
  | nil => exact back
  | cons each rest restInduction => exact ⟨front.1, restInduction front.2 back⟩

namespace Owned

theorem refl (controller : Controller) : controller.Owned controller :=
  ⟨[], .refl controller, trivial⟩

theorem trans (front : first.Owned second) (back : second.Owned third) : first.Owned third := by
  obtain ⟨earlier, shown, permitted⟩ := front
  obtain ⟨later, shownLater, permittedLater⟩ := back
  refine ⟨earlier ++ later, ?_, permitted.append (shown.symm.exclusive permittedLater)⟩
  rw [List.foldl_append]
  exact shownLater.trans (shown.performAll later)

theorem of_shows (shown : after.Shows before) : before.Owned after :=
  ⟨[], shown, trivial⟩

/-- A permitted write, and then perhaps another kind for the next packet. -/
theorem perform (owned : first.Owned second) (made : Write) (permitted : second.Permits made)
    (shown : third.Shows (second.perform made)) : first.Owned third :=
  owned.trans ⟨[made], shown, permitted, trivial⟩

variable (owned : first.Owned second)

include owned

theorem setNext (endpoint : Endpoint) (data1 : Bool) : first.Owned (second.setNext endpoint data1) :=
  owned.trans (.of_shows (second.shows_setNext endpoint data1))

theorem write {register : Register} {value : UInt32} (apart : register.isBufferControl = false) :
    first.Owned (second.write (.register register value)) :=
  owned.perform (.register register value) apart (.refl _)

/-- The device takes a buffer away from the controller whenever it likes. -/
theorem withdraw {endpoint : Endpoint} {control : BufferControl} (idle : control.available = false) :
    first.Owned (second.setControl endpoint control none) := by
  refine owned.perform (.buffer endpoint control none) ?_ (.refl _)
  intro arms
  rw [idle] at arms
  cases arms

theorem armIn {endpoint : InEndpoint} (packet : Packet)
    (free : 2 ≤ (Endpoint.toHost endpoint).index → second.holds (.toHost endpoint) = false) :
    first.Owned (second.armIn endpoint packet) := by
  refine owned.perform (.buffer (.toHost endpoint) _ (some packet)) ?_ (shows_setNext ..)
  intro _ bulk
  exact free bulk

theorem armOut {endpoint : OutEndpoint} (length : Nat)
    (free : 2 ≤ (Endpoint.fromHost endpoint).index → second.holds (.fromHost endpoint) = false) :
    first.Owned (second.armOut endpoint length) := by
  refine owned.perform (.buffer (.fromHost endpoint) _ none) ?_ (shows_setNext ..)
  intro _ bulk
  exact free bulk

theorem stallControl : first.Owned second.stallControl :=
  .withdraw (.withdraw (owned.write rfl) rfl) rfl

theorem disarm (endpoint : Endpoint) : first.Owned (second.disarm endpoint) :=
  .withdraw (owned.setNext endpoint false) rfl

theorem disarmAll (endpoints : List Endpoint) : first.Owned (endpoints.foldl Controller.disarm second) := by
  induction endpoints generalizing second with
  | nil => exact owned
  | cons endpoint rest restInduction => exact restInduction (owned.disarm endpoint)

end Owned

end Controller

/-! ## Bring-up -/

theorem idle_performAll {accesses : List Access}
    (idle : ∀ access ∈ accesses, access.register.isBufferControl = true → access = .store access.register 0)
    (contents : Register → UInt32) :
    ∀ made ∈ performAll contents accesses, made.target.isBufferControl = true → made.value = 0 := by
  induction accesses generalizing contents with
  | nil => exact List.forall_mem_nil _
  | cons access rest restInduction =>
    obtain ⟨idleFirst, idleRest⟩ := List.forall_mem_cons.mp idle
    refine List.forall_mem_cons.mpr ⟨fun place => ?_, restInduction idleRest _⟩
    have stores := idleFirst place
    change access.newValue _ = 0
    rw [stores]
    rfl

/-- Bring-up clears the control words of all buffers, and arms none. -/
theorem idle_bringUpWrites (board : Board) (resets : UInt32) :
    ∀ made ∈ bringUpWrites board resets, made.target.isBufferControl = true → made.value = 0 := by
  apply idle_performAll
  cases board with
  | pico => decide
  | feather => decide

end ScriptDrive
