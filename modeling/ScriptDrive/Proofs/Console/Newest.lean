import ScriptDrive.Proofs.Drive.Histories

/-!
# The newest bytes of what was typed

A console queue is given packets, and now and then it is drained.  Whatever the length of the packets and
wherever its store wraps, it holds the newest bytes of what has come since it was drained last, as many as
it has room for: `bytes_step` is one packet or one drain, and `bytes_run` any number of them.

Of all calls to a drive only the packets for its console and the polls reach the queue, so that a drive's
queue is one that was given those: `queue_of_call` is one call, and `After.queue_eq` the run.
-/

set_option autoImplicit false

namespace ScriptDrive

def newest (room : Nat) (typed : List UInt8) : List UInt8 :=
  typed.drop (typed.length - room)

theorem length_newest (room : Nat) (typed : List UInt8) :
    (newest room typed).length = min room typed.length := by
  rw [newest, List.length_drop]
  omega

/-- What is no longer among the newest bytes does not come back. -/
theorem newest_newest_append (room : Nat) (typed packet : List UInt8) :
    newest room (newest room typed ++ packet) = newest room (typed ++ packet) := by
  have kept := length_newest room typed
  have gone : typed.length - room + ((newest room typed).length + packet.length - room) =
      (typed ++ packet).length - room := by
    rw [kept, List.length_append]
    omega
  have behind : (newest room typed ++ packet).length - room - (newest room typed).length =
      (typed ++ packet).length - room - typed.length := by
    rw [List.length_append, List.length_append, kept]
    omega
  rw [newest, List.drop_append, behind, List.length_append, newest, List.drop_drop, ← newest, gone,
    ← List.drop_append]
  rfl

@[simp] theorem newest_nil (room : Nat) : newest room [] = [] :=
  List.drop_nil

namespace ConsoleQueue

variable {capacity : Nat}

/-! ## Packets and drains -/

inductive Step where
  | push (packet : List UInt8)
  | drain
  deriving DecidableEq

def step (queue : ConsoleQueue capacity) : Step → ConsoleQueue capacity
  | .push packet => queue.push packet
  | .drain => queue.drain.2

def run (queue : ConsoleQueue capacity) (steps : List Step) : ConsoleQueue capacity :=
  steps.foldl step queue

theorem run_append (queue : ConsoleQueue capacity) (first second : List Step) :
    queue.run (first ++ second) = (queue.run first).run second :=
  List.foldl_append

/-- What has been typed since the last drain, when this had been before the step. -/
def Step.typed (before : List UInt8) : Step → List UInt8
  | .push packet => before ++ packet
  | .drain => []

def typedSince (steps : List Step) : List UInt8 :=
  steps.foldl Step.typed []

theorem bytes_step {queue : ConsoleQueue capacity} {typed : List UInt8}
    (bytes : queue.bytes = newest capacity typed) (made : Step) :
    (queue.step made).bytes = newest capacity (made.typed typed) := by
  cases made with
  | push packet =>
    have pushed : (queue.push packet).bytes = newest capacity (queue.bytes ++ packet) :=
      queue.bytes_push packet
    rw [step, pushed, bytes, newest_newest_append]
    rfl
  | drain =>
    rw [Step.typed, newest_nil]
    exact queue.bytes_drain

theorem bytes_run (steps : List Step) :
    ((empty : ConsoleQueue capacity).run steps).bytes = newest capacity (typedSince steps) := by
  have started : (empty : ConsoleQueue capacity).bytes = newest capacity [] := by
    rw [newest_nil]
    exact (isEmpty_iff _).mp rfl
  unfold run typedSince
  generalize (empty : ConsoleQueue capacity) = queue at started ⊢
  generalize ([] : List UInt8) = typed at started ⊢
  induction steps generalizing queue typed with
  | nil => exact started
  | cons made rest restInduction => exact restInduction _ _ (bytes_step started made)

/-! ## What the queue holds, and what it hands over -/

/-- The queue holds the newest bytes of what was typed, each in the cell that comes so many places behind
the head. -/
structure Holds (queue : ConsoleQueue capacity) (typed : List UInt8) : Prop where
  count : queue.count = min capacity typed.length
  cells : ∀ index < queue.count,
    queue.cells.bytes[(queue.head + index) % capacity]? = (newest capacity typed)[index]?
  isEmpty_iff : queue.isEmpty = true ↔ typed = []

theorem holds_of_bytes (positive : 0 < capacity) {queue : ConsoleQueue capacity} {typed : List UInt8}
    (bytes : queue.bytes = newest capacity typed) : queue.Holds typed := by
  have count : queue.count = min capacity typed.length := by
    rw [← length_bytes, bytes, length_newest]
  refine ⟨count, fun index queued => ?_, ?_⟩
  · rw [← bytes, queue.getElem?_bytes queued]
    rfl
  · rw [isEmpty, beq_iff_eq, count, ← List.length_eq_zero_iff]
    omega

/-- The calls hand over the bytes, oldest first and none of them empty: no call for an empty queue, one
for bytes that do not pass the end of the store, two for bytes that do. -/
structure HandsOver (queue : ConsoleQueue capacity) (bytes : List UInt8)
    (calls : List (List UInt8)) : Prop where
  whole : calls.flatten = bytes
  nonempty : ∀ call ∈ calls, call ≠ []
  count : calls.length =
    if queue.isEmpty then 0 else if queue.head + queue.count ≤ capacity then 1 else 2

theorem drain_handsOver (queue : ConsoleQueue capacity) :
    queue.HandsOver queue.bytes queue.drain.1 := by
  refine ⟨queue.flatten_drain, ?_, ?_⟩
  all_goals unfold drain
  · split
    · exact List.forall_mem_nil _
    · rename_i some
      have positive : 0 < queue.count := Nat.pos_of_ne_zero fun none => some (beq_iff_eq.mpr none)
      have fits := queue.count_le
      have headInside := queue.head_lt (by omega)
      have front : queue.front ≠ [] := by
        apply List.ne_nil_of_length_pos
        rw [length_front]
        omega
      rw [List.forall_mem_cons]
      refine ⟨front, ?_⟩
      split
      · exact List.forall_mem_nil _
      · rename_i wraps
        exact List.forall_mem_singleton.mpr fun none => wraps (List.isEmpty_iff.mpr none)
  · split
    · rfl
    · rename_i some
      have wraps : queue.wrapped.isEmpty = true ↔ queue.head + queue.count ≤ capacity := by
        have positive : 0 < queue.count := Nat.pos_of_ne_zero fun none => some (beq_iff_eq.mpr none)
        have fits := queue.count_le
        have headInside := queue.head_lt (by omega)
        rw [List.isEmpty_iff, ← List.length_eq_zero_iff, length_wrapped]
        omega
      simp only [wraps]
      split <;> rfl

theorem isEmpty_drain (queue : ConsoleQueue capacity) : queue.drain.2.isEmpty = true :=
  queue.drain.2.isEmpty_iff.mpr queue.bytes_drain

end ConsoleQueue

/-! ## The queue of a drive -/

def Operation.queueStep? (endpoints : EndpointMap) : Operation → Option ConsoleQueue.Step
  | .packet endpoint bytes => if endpoint = endpoints.consoleOut then some (.push bytes) else none
  | .poll => some .drain
  | _ => none

def queueSteps (endpoints : EndpointMap) (history : List Operation) : List ConsoleQueue.Step :=
  history.reverse.filterMap (Operation.queueStep? endpoints)

theorem queueSteps_cons (endpoints : EndpointMap) (operation : Operation) (history : List Operation) :
    queueSteps endpoints (operation :: history) =
      queueSteps endpoints history ++ (operation.queueStep? endpoints).toList := by
  rw [queueSteps, List.reverse_cons, List.filterMap_append]
  cases stepIs : operation.queueStep? endpoints with
  | none => rw [List.filterMap_cons_none stepIs]; rfl
  | some made => rw [List.filterMap_cons_some stepIs]; rfl

namespace Drive

open Exchange

variable {π : Type} {room : Nat} {drive : Drive room}

theorem queue_reset (start : π) :
    (drive.reset : Exchange π _).Yields start fun next _ => next.queue = drive.queue :=
  .bind fun _ _ => yields_pure _ _ rfl

theorem queue_classRequest (code : UInt8) (start : π) :
    (drive.classRequest code : Exchange π _).Yields start fun result _ =>
      result.1.queue = drive.queue := by
  unfold classRequest
  split
  · exact yields_pure _ _ rfl
  · exact .bind fun _ _ => .bind ((queue_reset _).mono fun _ _ queueIs => yields_pure _ _ queueIs)
  · exact yields_pure _ _ rfl

variable [Link π]

theorem queue_onPacket_disk (packet : List UInt8) (start : π) :
    (drive.onPacket drive.identity.endpoints.diskOut packet).Yields start fun next _ =>
      next.queue = drive.queue := by
  rw [onPacket_disk]
  exact .bind fun _ _ => yields_pure _ _ rfl

theorem queue_onCollected (endpoint : UInt8) (start : π) :
    (drive.onCollected endpoint).Yields start fun next _ => next.queue = drive.queue := by
  unfold onCollected
  split
  · exact .bind fun _ _ => yields_pure _ _ rfl
  · exact yields_pure _ _ rfl

theorem queue_onPacket (apart : drive.identity.endpoints.diskOut ≠ drive.identity.endpoints.consoleOut)
    (endpoint : UInt8) (packet : List UInt8) (start : π) :
    (drive.onPacket endpoint packet).Yields start fun next _ =>
      next.queue = if endpoint = drive.identity.endpoints.consoleOut then drive.queue.push packet
        else drive.queue := by
  by_cases disk : endpoint = drive.identity.endpoints.diskOut
  · rw [disk, if_neg apart]
    exact queue_onPacket_disk packet start
  · split
    · rename_i console
      rw [drive.onPacket_console packet disk console]
      exact .bind fun _ _ => yields_pure _ _ rfl
    · rename_i noConsole
      rw [drive.onPacket_unclaimed packet disk noConsole]
      exact .bind fun _ _ => yields_pure _ _ rfl

theorem queue_perform (apart : drive.identity.endpoints.diskOut ≠ drive.identity.endpoints.consoleOut)
    (operation : Operation) (start : π) :
    (drive.perform operation).Yields start fun result _ =>
      result.1.queue =
        (operation.queueStep? drive.identity.endpoints).elim drive.queue drive.queue.step := by
  cases operation with
  | packet endpoint bytes =>
    refine .bind ((queue_onPacket apart endpoint bytes start).mono ?_)
    intro next after queueIs
    refine yields_pure _ _ ?_
    rw [queueIs, Operation.queueStep?]
    split <;> rfl
  | collected endpoint =>
    exact .bind ((queue_onCollected endpoint start).mono fun _ _ queueIs => yields_pure _ _ queueIs)
  | poll => exact .bind (.bind fun _ _ => yields_pure _ _ (yields_pure _ _ rfl))
  | classRequest code =>
    exact .bind ((queue_classRequest code start).mono fun _ _ queueIs => yields_pure _ _ queueIs)
  | reset => exact .bind ((queue_reset start).mono fun _ _ queueIs => yields_pure _ _ queueIs)
  | takeChanged => exact yields_pure _ _ rfl
  | script => exact .bind fun _ _ => yields_pure _ _ rfl
  | openScript => exact .bind fun _ _ => .bind fun _ _ => yields_pure _ _ rfl
  | print text => exact .bind fun _ _ => yields_pure _ _ rfl

/-- However the calls are mixed, the queue is one that was given the packets for the console and drained
by the polls, in their order. -/
theorem After.queue_eq {identity : Identity}
    (apart : identity.endpoints.diskOut ≠ identity.endpoints.consoleOut) {history : List Operation}
    (after : After identity drive history) :
    drive.queue = ConsoleQueue.run .empty (queueSteps identity.endpoints history) := by
  induction after with
  | powerUp started =>
    obtain ⟨ram, startedIs, -⟩ := powerUp_eq identity ‹_›
    rw [started] at startedIs
    cases startedIs
    rfl
  | @call π _ drive next history made outcome before called queueBefore =>
    obtain ⟨-, identityIs⟩ := before.reachable.sound
    have performed := queue_perform (by rw [identityIs]; exact apart) made.operation made.link _
      (result_of_call called).1
    rw [identityIs] at performed
    rw [performed, queueSteps_cons, ConsoleQueue.run_append, ← queueBefore]
    cases made.operation.queueStep? identity.endpoints <;> rfl

/-- A poll hands over what the queue holds and leaves it empty. -/
theorem call_poll (drive : Drive room) (sound : drive.storage.transfer.Sound) (start : π) :
    ∃ next outcome, drive.call ⟨.poll, start⟩ = .ok (next, outcome) ∧
      outcome.answer = .input drive.queue.drain.1 ∧ next.queue = drive.queue.drain.2 := by
  have polled : (drive.perform (Call.mk .poll start).operation).Meets (Call.mk .poll start).link
      fun result _ _ =>
        result.2 = .input drive.queue.drain.1 ∧ result.1.queue = drive.queue.drain.2 := by
    simp only [perform, poll, meets_bind]
    refine (Storage.poll_meets sound start).mono ?_
    intro storage after events serves
    simp only [meets_pure, and_self]
  obtain ⟨next, outcome, called, -, holds⟩ := call_of_meets polled
  exact ⟨next, outcome, called, holds⟩

end Drive

namespace ConsoleQueue

/-- A queue that has been given packets and drained in any order holds the newest bytes of what came since
it was drained last, as many as it has room for, and hands them over oldest first.  So does the queue of a
drive whose console and disk have endpoints of their own, whatever the calls and whatever is refused: each
poll gives the console the newest bytes typed since the poll before. -/
theorem newest_console_input {capacity : Nat} (positive : 0 < capacity) (steps : List Step) {room : Nat}
    {identity : Identity} (apart : identity.endpoints.diskOut ≠ identity.endpoints.consoleOut)
    {drive : Drive room} {history : List Operation} (after : Drive.After identity drive history) :
    (let queue : ConsoleQueue capacity := .run .empty steps
     let typed := typedSince steps
     queue.Holds typed ∧ queue.HandsOver (newest capacity typed) queue.drain.1 ∧
       queue.drain.2.isEmpty = true) ∧
    (let typed := typedSince (queueSteps identity.endpoints history)
     drive.queue.Holds typed ∧
       ∀ (π : Type) [Link π] (start : π), ∃ next outcome calls,
         drive.call ⟨.poll, start⟩ = .ok (next, outcome) ∧ outcome.answer = .input calls ∧
           drive.queue.HandsOver (newest consoleCapacity typed) calls ∧
           next.queue.isEmpty = true) := by
  refine ⟨?_, ?_⟩
  · have bytes : ConsoleQueue.bytes (.run .empty steps) = newest capacity (typedSince steps) :=
      bytes_run steps
    refine ⟨holds_of_bytes positive bytes, ?_, isEmpty_drain _⟩
    rw [← bytes]
    exact drain_handsOver _
  · obtain ⟨sound, -⟩ := after.reachable.sound
    have bytes : drive.queue.bytes = newest consoleCapacity
        (typedSince (queueSteps identity.endpoints history)) := by
      rw [after.queue_eq apart]
      exact bytes_run _
    refine ⟨holds_of_bytes (by decide) bytes, fun π _ start => ?_⟩
    obtain ⟨next, outcome, called, answered, left⟩ := drive.call_poll sound.transfer start
    refine ⟨next, outcome, _, called, answered, ?_, ?_⟩
    · rw [← bytes]
      exact drive.queue.drain_handsOver
    · rw [left]
      exact drive.queue.isEmpty_drain

/-- A queue of four bytes that wraps, and a drive that is typed to before and after the command of a
write. -/
theorem newest_console_input_wrapped :
    let steps : List Step := [.push [1, 2], .drain, .push [3, 4, 5], .push [6, 7]]
    let queue : ConsoleQueue 4 := .run .empty steps
    let history : List Operation :=
      [.packet 2 [9], .packet 6 (CommandWrapper.writing 9 65 1).encode, .packet 2 [8]]
    queue.HandsOver [4, 5, 6, 7] [[4, 5, 6], [7]] ∧
      ∃ drive : Drive 16, Drive.After {} drive history ∧ drive.queue.Holds [8, 9] := by
  intro steps queue history
  have sound : (Drive.fresh {} (show 16 ≤ clusterSize by decide)).storage.transfer.Sound := .idle rfl
  obtain ⟨first, _, calledFirst, didFirst⟩ :=
    Drive.call_does sound ⟨.packet 2 [8], Willing.willing⟩
  obtain ⟨second, _, calledSecond, didSecond⟩ :=
    Drive.call_does (didFirst.transfer_sound sound)
      ⟨.packet 6 (CommandWrapper.writing 9 65 1).encode, Willing.willing⟩
  obtain ⟨drive, _, called, -⟩ :=
    Drive.call_does (didSecond.transfer_sound (didFirst.transfer_sound sound))
      ⟨.packet 2 [9], Willing.willing⟩
  have after : Drive.After {} drive history :=
    .call (.call (.call (.powerUp (Drive.powerUp_fresh rfl _)) calledFirst) calledSecond) called
  have positive : 0 < 4 := by decide
  have apart : ({} : Identity).endpoints.diskOut ≠ ({} : Identity).endpoints.consoleOut := by decide
  obtain ⟨⟨-, handed, -⟩, holds, -⟩ := newest_console_input positive steps apart after
  exact ⟨handed, drive, after, holds⟩

end ConsoleQueue

end ScriptDrive
