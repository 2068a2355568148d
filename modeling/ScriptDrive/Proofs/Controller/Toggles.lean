import ScriptDrive.Proofs.Controller.Acts
import ScriptDrive.Proofs.Controller.Alike

/-!
# The kinds of packets

The packets of an endpoint are of the even kind and the odd kind in turn, and start over on an occasion that
is marked in the writes.  `Timely` goes through writes with the kind that is due: every write that arms the
endpoint has it.  `InStep` says this of all writes of a controller, and that it will use the kind due next;
`alternating` is what is seen of it between two marks.

`Worked` lists what can be done to a controller short of starting packets over: none of it takes an endpoint
out of step, and none of it is marked.
-/

set_option autoImplicit false

namespace ScriptDrive

/-! ## Reading writes -/

theorem BufferControl.testBit_word (control : BufferControl) :
    control.word.toNat.testBit 10 = control.available ∧ control.word.toNat.testBit 13 = control.data1 := by
  obtain ⟨full, data1, stall, available, length⟩ := control
  have small : length % 1 <<< 10 < 1024 := Nat.mod_lt _ (by decide)
  unfold word
  dsimp only
  generalize length % 1 <<< 10 = low at small
  rw [Nat.testBit_eq_decide_div_mod_eq, Nat.testBit_eq_decide_div_mod_eq, UInt32.toNat_ofNat']
  cases full <;> cases data1 <;> cases stall <;> cases available <;> simp [Nat.shiftLeft_eq] <;> omega

namespace Endpoint

def isControl (endpoint : Endpoint) : Bool :=
  decide (endpoint.index < 2)

/-- The packets of the control endpoint start over with the odd kind, those of the others with the even
kind. -/
def firstData1 (endpoint : Endpoint) : Bool :=
  endpoint.isControl

def restart (endpoint : Endpoint) : Write :=
  .register .serialStatus (bit (if endpoint.isControl then 17 else 19))

end Endpoint

namespace Write

def arms (endpoint : Endpoint) (made : Write) : Bool :=
  decide (made.target = .bufferControl endpoint.index) && made.value.toNat.testBit 10

def isData1 (made : Write) : Bool :=
  made.value.toNat.testBit 13

def restarts (endpoint : Endpoint) (made : Write) : Bool :=
  decide (made = endpoint.restart)

def nextDue (endpoint : Endpoint) (due : Bool) (made : Write) : Bool :=
  if made.restarts endpoint then endpoint.firstData1
  else if made.arms endpoint then !due else due

variable {endpoint other : Endpoint}

theorem arms_buffer (control : BufferControl) (packet : Option Packet) :
    (Write.buffer other control packet).arms endpoint = (decide (other = endpoint) && control.available) := by
  have same : Register.bufferControl other.index = .bufferControl endpoint.index ↔ other = endpoint :=
    ⟨fun same => Endpoint.index_injective (Register.bufferControl.inj same), fun same => by rw [same]⟩
  unfold arms target value
  dsimp only
  rw [control.testBit_word.1]
  simp only [same]

theorem isData1_buffer (control : BufferControl) (packet : Option Packet) :
    (Write.buffer other control packet).isData1 = control.data1 :=
  control.testBit_word.2

theorem arms_register {register : Register} (apart : register.isBufferControl = false) (value : UInt32) :
    (Write.register register value).arms endpoint = false := by
  cases register with
  | bufferControl index => cases apart
  | _ => rfl

theorem restarts_buffer (control : BufferControl) (packet : Option Packet) :
    (Write.buffer other control packet).restarts endpoint = false := rfl

theorem restarts_register {register : Register} (apart : register ≠ .serialStatus) (value : UInt32) :
    (Write.register register value).restarts endpoint = false := by
  rw [restarts, decide_eq_false_iff_not]
  intro same
  exact apart (Write.register.inj same).1

theorem nextDue_restart (endpoint : Endpoint) (due : Bool) :
    endpoint.restart.nextDue endpoint due = endpoint.firstData1 :=
  if_pos (decide_eq_true rfl)

/-- Nothing is due but what was due before. -/
theorem nextDue_of_silent {made : Write} (unmarked : made.restarts endpoint = false)
    (idle : made.arms endpoint = false) (due : Bool) : made.nextDue endpoint due = due := by
  rw [nextDue, unmarked, idle]
  rfl

end Write

/-! ## Writes in step -/

def dueAfter (endpoint : Endpoint) (due : Bool) (writes : List Write) : Bool :=
  writes.foldl (Write.nextDue endpoint) due

/-- Each write that arms the endpoint is for the kind that is due. -/
def Timely (endpoint : Endpoint) : Bool → List Write → Prop
  | _, [] => True
  | due, made :: rest =>
    (made.arms endpoint = true → made.isData1 = due) ∧ Timely endpoint (made.nextDue endpoint due) rest

def kinds (endpoint : Endpoint) (writes : List Write) : List Bool :=
  (writes.filter (Write.arms endpoint)).map Write.isData1

def alternating : Bool → Nat → List Bool
  | _, 0 => []
  | first, count + 1 => first :: alternating (!first) count

theorem dropLast_alternating (first : Bool) (count : Nat) :
    (alternating first (count + 1)).dropLast = alternating first count := by
  induction count generalizing first with
  | zero => rfl
  | succ count countInduction =>
    rw [alternating, alternating, List.dropLast_cons_of_ne_nil (List.cons_ne_nil _ _)]
    exact congrArg _ (countInduction _)

section Timely

variable {endpoint : Endpoint} {due : Bool}

theorem timely_append (earlier later : List Write) :
    Timely endpoint due (earlier ++ later) ↔
      Timely endpoint due earlier ∧ Timely endpoint (dueAfter endpoint due earlier) later := by
  induction earlier generalizing due with
  | nil => exact (iff_of_eq (true_and _)).symm
  | cons made rest restInduction =>
    rw [List.cons_append, Timely, Timely, restInduction, and_assoc]
    rfl

/-- Where packets do not start over, their kinds alternate, and so does the one that is due next. -/
theorem Timely.kinds {writes : List Write} (timely : Timely endpoint due writes)
    (unmarked : ∀ made ∈ writes, made.restarts endpoint = false) :
    kinds endpoint writes ++ [dueAfter endpoint due writes] =
      alternating due ((kinds endpoint writes).length + 1) := by
  induction writes generalizing due with
  | nil => rfl
  | cons made rest restInduction =>
    obtain ⟨silent, unmarkedRest⟩ := List.forall_mem_cons.mp unmarked
    obtain ⟨kind, timelyRest⟩ := timely
    have next := restInduction timelyRest unmarkedRest
    cases arms : made.arms endpoint with
    | false =>
      have same : made.nextDue endpoint due = due := Write.nextDue_of_silent silent arms due
      have passed : ScriptDrive.kinds endpoint (made :: rest) = ScriptDrive.kinds endpoint rest := by
        rw [ScriptDrive.kinds, List.filter_cons_of_neg (Bool.eq_false_iff.mp arms)]
        rfl
      rw [same] at next
      rw [passed, dueAfter, List.foldl_cons, same]
      exact next
    | true =>
      have other : made.nextDue endpoint due = !due := by
        rw [Write.nextDue, silent, arms]
        rfl
      have taken : ScriptDrive.kinds endpoint (made :: rest) = due :: ScriptDrive.kinds endpoint rest := by
        rw [ScriptDrive.kinds, List.filter_cons_of_pos arms, List.map_cons, kind arms]
        rfl
      rw [other] at next
      rw [taken, dueAfter, List.foldl_cons, other, List.cons_append, List.length_cons, alternating]
      exact congrArg _ next

theorem timely_of_silent {writes : List Write}
    (silent : ∀ made ∈ writes, made.restarts endpoint = false ∧ made.arms endpoint = false) (due : Bool) :
    Timely endpoint due writes ∧ dueAfter endpoint due writes = due := by
  induction writes with
  | nil => exact ⟨trivial, rfl⟩
  | cons made rest restInduction =>
    obtain ⟨⟨unmarked, idle⟩, silentRest⟩ := List.forall_mem_cons.mp silent
    have same := Write.nextDue_of_silent unmarked idle due
    obtain ⟨timelyRest, dueRest⟩ := restInduction silentRest
    refine ⟨⟨fun arms => ?_, ?_⟩, ?_⟩
    · rw [idle] at arms
      cases arms
    · rw [same]
      exact timelyRest
    · rw [dueAfter, List.foldl_cons, same]
      exact dueRest

end Timely

/-- A write that is not a mark adds none. -/
theorem countP_restarts_append {endpoint : Endpoint} {made : List Write}
    (unmarked : ∀ write ∈ made, write.restarts endpoint = false) (writes : List Write) :
    (writes ++ made).countP (Write.restarts endpoint) = writes.countP (Write.restarts endpoint) := by
  have none : made.countP (Write.restarts endpoint) = 0 :=
    List.countP_eq_zero.mpr fun write present => Bool.eq_false_iff.mp (unmarked write present)
  rw [List.countP_append, none, Nat.add_zero]

namespace Controller

/-- The packets of the endpoint have been of the kind due, and the next one will be. -/
structure InStep (endpoint : Endpoint) (controller : Controller) : Prop where
  timely : Timely endpoint false controller.writes
  next : (controller.slot endpoint).nextData1 = dueAfter endpoint false controller.writes

namespace InStep

variable {endpoint : Endpoint} {before after : Controller}

/-- Any number of writes, the last of which leaves the kind due that the controller will use. -/
theorem of_writes (inStep : InStep endpoint before) {made : List Write}
    (writes : after.writes = before.writes ++ made)
    (timely : Timely endpoint (before.slot endpoint).nextData1 made)
    (next : (after.slot endpoint).nextData1 = dueAfter endpoint (before.slot endpoint).nextData1 made) :
    InStep endpoint after := by
  rw [inStep.next] at timely next
  refine ⟨?_, ?_⟩
  · rw [writes, timely_append]
    exact ⟨inStep.timely, timely⟩
  · rw [next, writes, dueAfter, dueAfter, dueAfter, List.foldl_append]

/-- Writes that are not about the endpoint. -/
theorem silent (inStep : InStep endpoint before) {made : List Write}
    (writes : after.writes = before.writes ++ made)
    (idle : ∀ write ∈ made, write.restarts endpoint = false ∧ write.arms endpoint = false)
    (next : (after.slot endpoint).nextData1 = (before.slot endpoint).nextData1) :
    InStep endpoint after := by
  obtain ⟨timely, due⟩ := timely_of_silent idle (before.slot endpoint).nextData1
  exact inStep.of_writes writes timely (next.trans due.symm)

/-- A write that arms the endpoint. -/
theorem arm (inStep : InStep endpoint before) {made : Write} (writes : after.writes = before.writes ++ [made])
    (unmarked : made.restarts endpoint = false) (arms : made.arms endpoint = true)
    (kind : made.isData1 = (before.slot endpoint).nextData1)
    (next : (after.slot endpoint).nextData1 = !(before.slot endpoint).nextData1) :
    InStep endpoint after := by
  refine inStep.of_writes writes ⟨fun _ => kind, trivial⟩ ?_
  rw [next, dueAfter, List.foldl_cons, Write.nextDue, unmarked, arms]
  rfl

theorem handBack (inStep : InStep endpoint before) (buffer : Returned) :
    InStep endpoint (before.handBack buffer) := by
  refine inStep.silent ((before.writes_handBack buffer).trans (List.append_nil _).symm)
    (List.forall_mem_nil _) ?_
  rw [slot_handBack]
  split
  · exact Slot.nextData1_handedBack ..
  · rfl

theorem write (inStep : InStep endpoint before) {register : Register} (value : UInt32)
    (apart : register ≠ .serialStatus) (control : register.isBufferControl = false) :
    InStep endpoint (before.write (.register register value)) :=
  inStep.silent rfl
    (List.forall_mem_singleton.mpr ⟨Write.restarts_register apart value, Write.arms_register control value⟩) rfl

/-- Arming an endpoint with the kind it will use, and then the other kind for the next packet. -/
theorem toggle (inStep : InStep endpoint before) {other : Endpoint} {control : BufferControl}
    (packet : Option Packet) (available : control.available = true)
    (kind : control.data1 = (before.slot other).nextData1) :
    InStep endpoint ((before.setControl other control packet).setNext other !control.data1) := by
  have writes : ((before.setControl other control packet).setNext other !control.data1).writes =
      before.writes ++ [.buffer other control packet] := rfl
  by_cases same : endpoint = other
  · subst same
    refine inStep.arm writes (Write.restarts_buffer ..) ?_ ?_ ?_
    · rw [Write.arms_buffer, decide_eq_true rfl, available]
      rfl
    · rw [Write.isData1_buffer, kind]
    · rw [slot_setNext, if_pos rfl, kind]
  · refine inStep.silent writes (List.forall_mem_singleton.mpr ⟨Write.restarts_buffer .., ?_⟩) ?_
    · rw [Write.arms_buffer, decide_eq_false (Ne.symm same)]
      rfl
    · rw [slot_setNext, if_neg same, slot_setControl, if_neg same]

/-- Taking a buffer away from the controller. -/
theorem withdraw (inStep : InStep endpoint before) (other : Endpoint) {control : BufferControl}
    (idle : control.available = false) : InStep endpoint (before.setControl other control none) := by
  refine inStep.silent rfl (List.forall_mem_singleton.mpr ⟨Write.restarts_buffer .., ?_⟩) ?_
  · rw [Write.arms_buffer, idle, Bool.and_false]
  · rw [slot_setControl]
    split <;> rfl

theorem armIn (inStep : InStep endpoint before) (other : InEndpoint) (packet : Packet) :
    InStep endpoint (before.armIn other packet) := by
  have filled : InStep endpoint (before.fill (.toHost other) packet.bytes) := ⟨inStep.timely, inStep.next⟩
  exact filled.toggle _ rfl rfl

theorem armOut (inStep : InStep endpoint before) (other : OutEndpoint) (length : Nat) :
    InStep endpoint (before.armOut other length) :=
  inStep.toggle _ rfl rfl

theorem stallControl (inStep : InStep endpoint before) : InStep endpoint before.stallControl :=
  ((inStep.write 3 Register.noConfusion rfl).withdraw _ rfl).withdraw _ rfl

/-- A mark, and then writes that are not about the endpoint. -/
theorem startOver (inStep : InStep endpoint before) {made : List Write}
    (writes : after.writes = before.writes ++ endpoint.restart :: made)
    (idle : ∀ write ∈ made, write.restarts endpoint = false ∧ write.arms endpoint = false)
    (next : (after.slot endpoint).nextData1 = endpoint.firstData1) : InStep endpoint after := by
  obtain ⟨timely, due⟩ := timely_of_silent idle endpoint.firstData1
  have again := Write.nextDue_restart endpoint (before.slot endpoint).nextData1
  refine inStep.of_writes writes ⟨fun arms => ?_, ?_⟩ ?_
  · rw [Endpoint.restart, Write.arms_register rfl] at arms
    cases arms
  · rw [again]
    exact timely
  · rw [next, dueAfter, List.foldl_cons, again]
    exact due.symm

end InStep

/-! ## Everything else -/

/-- What can be done to a controller short of starting packets over. -/
inductive Worked (start : Controller) : Controller → Prop
  | nothing : Worked start start
  | write {after : Controller} {register : Register} (before : Worked start after) (value : UInt32)
      (apart : register ≠ .serialStatus) (control : register.isBufferControl = false) :
      Worked start (after.write (.register register value))
  | armIn {after : Controller} (before : Worked start after) (endpoint : InEndpoint) (packet : Packet) :
      Worked start (after.armIn endpoint packet)
  | armOut {after : Controller} (before : Worked start after) (endpoint : OutEndpoint) (length : Nat) :
      Worked start (after.armOut endpoint length)
  | stallControl {after : Controller} (before : Worked start after) : Worked start after.stallControl

namespace Worked

variable {first second third start after : Controller}

theorem trans (before : Worked first second) (later : Worked second third) : Worked first third := by
  induction later with
  | nothing => exact before
  | write _ value apart control worked => exact worked.write value apart control
  | armIn _ endpoint packet worked => exact worked.armIn endpoint packet
  | armOut _ endpoint length worked => exact worked.armOut endpoint length
  | stallControl _ worked => exact worked.stallControl

theorem inStep {endpoint : Endpoint} (worked : Worked start after) (inStep : InStep endpoint start) :
    InStep endpoint after := by
  induction worked with
  | nothing => exact inStep
  | write _ value apart control inStep => exact inStep.write value apart control
  | armIn _ endpoint packet inStep => exact inStep.armIn endpoint packet
  | armOut _ endpoint length inStep => exact inStep.armOut endpoint length
  | stallControl _ inStep => exact inStep.stallControl

/-- Nothing is marked. -/
theorem marks (worked : Worked start after) (endpoint : Endpoint) :
    after.writes.countP (Write.restarts endpoint) = start.writes.countP (Write.restarts endpoint) := by
  have buffer (other : Endpoint) (control : BufferControl) (packet : Option Packet) :
      ∀ write ∈ [Write.buffer other control packet], write.restarts endpoint = false :=
    List.forall_mem_singleton.mpr (Write.restarts_buffer ..)
  induction worked with
  | nothing => rfl
  | write _ value apart _ marks =>
    refine (countP_restarts_append (List.forall_mem_singleton.mpr ?_) _).trans marks
    exact Write.restarts_register apart value
  | armIn _ _ _ marks => exact (countP_restarts_append (buffer _ _ _) _).trans marks
  | armOut _ _ _ marks => exact (countP_restarts_append (buffer _ _ _) _).trans marks
  | stallControl _ marks =>
    have stallArm : ∀ write ∈ [Write.register .stallArm 3], write.restarts endpoint = false :=
      List.forall_mem_singleton.mpr (Write.restarts_register Register.noConfusion 3)
    exact (countP_restarts_append (buffer _ _ _) _).trans ((countP_restarts_append (buffer _ _ _) _).trans
      ((countP_restarts_append stallArm _).trans marks))

theorem acted (worked : Worked start after) (made : Option ControlAct) : Worked start (after.acted made) := by
  cases made with
  | none => exact worked
  | some made =>
    cases made with
    | send packet => exact worked.armIn .control packet
    | room length => exact worked.armOut .control length
    | refuse => exact worked.stallControl
    | address value => exact worked.write value Register.noConfusion rfl

theorem of_offered {endpoint : UInt8} (offered : Offered endpoint start after) : Worked start after := by
  induction offered with
  | nothing => exact .nothing
  | @more link _ bytes worked =>
    change Worked start (offer endpoint bytes link).2
    unfold offer
    split
    · exact worked
    · split
      · exact worked
      · exact worked.armIn _ _

end Worked

/-- The controller has gone on in step, and the packets of the endpoint have started over so many times. -/
structure Advances (endpoint : Endpoint) (count : Nat) (start after : Controller) : Prop where
  inStep : InStep endpoint start → InStep endpoint after
  marks : after.writes.countP (Write.restarts endpoint) =
    start.writes.countP (Write.restarts endpoint) + count

namespace Advances

variable {endpoint : Endpoint} {count more : Nat} {first second third : Controller} {made : List Write}

theorem trans (before : Advances endpoint count first second) (later : Advances endpoint more second third) :
    Advances endpoint (count + more) first third := by
  refine ⟨fun inStep => later.inStep (before.inStep inStep), ?_⟩
  rw [later.marks, before.marks, Nat.add_assoc]

theorem silent (writes : second.writes = first.writes ++ made)
    (idle : ∀ write ∈ made, write.restarts endpoint = false ∧ write.arms endpoint = false)
    (next : (second.slot endpoint).nextData1 = (first.slot endpoint).nextData1) :
    Advances endpoint 0 first second := by
  refine ⟨fun inStep => inStep.silent writes idle next, ?_⟩
  rw [writes, countP_restarts_append fun write present => (idle write present).1]
  rfl

theorem startOver (writes : second.writes = first.writes ++ endpoint.restart :: made)
    (idle : ∀ write ∈ made, write.restarts endpoint = false ∧ write.arms endpoint = false)
    (next : (second.slot endpoint).nextData1 = endpoint.firstData1) : Advances endpoint 1 first second := by
  refine ⟨fun inStep => inStep.startOver writes idle next, ?_⟩
  have marked : endpoint.restart.restarts endpoint = true := decide_eq_true rfl
  rw [writes, List.append_cons, countP_restarts_append fun write present => (idle write present).1,
    List.countP_append, List.countP_cons_of_pos marked]
  rfl

end Advances

theorem Worked.advances {start after : Controller} (worked : Worked start after) (endpoint : Endpoint) :
    Advances endpoint 0 start after :=
  ⟨worked.inStep, worked.marks endpoint⟩

end Controller

namespace Exchange

variable {α β : Type}

/-- Whether the work halts or not, it starts no packets over. -/
def Works (work : Exchange Controller α) : Prop :=
  ∀ start, Controller.Worked start (work start).link

namespace Works

theorem pure (value : α) : Works (pure value : Exchange Controller α) := fun _ => .nothing

theorem lift (checked : Except Fault α) : Works (liftM checked : Exchange Controller α) := fun _ => .nothing

theorem halt (fault : Fault) : Works (halt fault : Exchange Controller α) := fun _ => .nothing

theorem link : Works Exchange.link := fun _ => .nothing

theorem bind {first : Exchange Controller α} {next : α → Exchange Controller β} (worksFirst : Works first)
    (worksNext : ∀ value, Works (next value)) : Works (first >>= next) := by
  intro start
  cases result : (first start).result with
  | error fault =>
    rw [bind_of_error result]
    exact worksFirst start
  | ok value =>
    rw [bind_of_ok result]
    exact (worksFirst start).trans (worksNext value _)

theorem of_offering {endpoint : UInt8} {work : Exchange Controller α} (offers : Offering endpoint work) :
    Works work :=
  fun start => .of_offered (offers.offered start)

theorem writeRegister {register : Register} (value : UInt32) (apart : register ≠ .serialStatus)
    (control : register.isBufferControl = false) : Works (writeRegister register value) :=
  fun _ => .write .nothing value apart control

theorem raisePin (pin : Nat) : Works (raisePin pin) :=
  writeRegister _ Register.noConfusion rfl

theorem lowerPin (pin : Nat) : Works (lowerPin pin) :=
  writeRegister _ Register.noConfusion rfl

theorem armIn (endpoint : InEndpoint) (bytes : List UInt8) : Works (armIn endpoint bytes) :=
  (lift _).bind fun packet _ => .armIn .nothing endpoint packet

theorem armOut (endpoint : OutEndpoint) (length : Nat) : Works (armOut endpoint length) := by
  intro start
  unfold ScriptDrive.armOut
  split
  · exact .nothing
  · exact .armOut .nothing endpoint length

end Works

end Exchange

end ScriptDrive
