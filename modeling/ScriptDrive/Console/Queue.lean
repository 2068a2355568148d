import ScriptDrive.Note

/-!
# The queue of console input

The newest bytes of what the host typed, oldest first.  The queue lives in a circular store of fixed
size: `head` is the place of the oldest byte, and the byte behind the last place of the store lies at its
first.  So what the queue hands over may come in two parts, and the first part ends where the store does.

`getElem?_bytes` says which cell of the store each queued byte lies in.  `bytes_push` says that a packet
leaves the newest `capacity` bytes, and `flatten_drain` that the parts are the queued bytes in order.
A packet from the host goes in by `accept`, which checks its sizes; `accept_eq` says that no check fails.
-/

set_option autoImplicit false

namespace ScriptDrive

structure ConsoleQueue (capacity : Nat) where
  /-- The circular store. -/
  cells : Octets capacity
  /-- The place of the oldest byte. -/
  head : Nat
  /-- How many bytes are queued. -/
  count : Nat
  head_lt : 0 < capacity → head < capacity
  count_le : count ≤ capacity
  deriving DecidableEq

namespace ConsoleQueue

variable {capacity : Nat}

def empty : ConsoleQueue capacity where
  cells := .zeros capacity
  head := 0
  count := 0
  head_lt := id
  count_le := Nat.zero_le capacity

def isEmpty (queue : ConsoleQueue capacity) : Bool :=
  queue.count == 0

/-- The place of a queued byte, and behind the last of them the place of the next one. -/
def place (queue : ConsoleQueue capacity) (index : Nat) : Nat :=
  (queue.head + index) % capacity

/-! ## One byte at a time -/

def popFront (queue : ConsoleQueue capacity) : ConsoleQueue capacity :=
  if queue.isEmpty then
    queue
  else
    { queue with
      head := queue.place 1
      count := queue.count - 1
      head_lt := Nat.mod_lt _
      count_le := Nat.le_trans (Nat.sub_le ..) queue.count_le }

/-- Puts a byte behind the newest one.  A full queue refuses it. -/
def pushBack (queue : ConsoleQueue capacity) (byte : UInt8) : ConsoleQueue capacity :=
  if room : queue.count < capacity then
    { queue with
      cells := queue.cells.set (queue.place queue.count) byte
      count := queue.count + 1
      count_le := room }
  else
    queue

def dropOldest (queue : ConsoleQueue capacity) : Nat → ConsoleQueue capacity
  | 0 => queue
  | count + 1 => queue.popFront.dropOldest count

/-- Empties the queue, which starts over at the front of its store. -/
def clear (queue : ConsoleQueue capacity) : ConsoleQueue capacity :=
  { queue with
    head := 0
    count := 0
    head_lt := id
    count_le := Nat.zero_le capacity }

/-! ## Packets -/

def staying (capacity : Nat) (packet : List UInt8) : List UInt8 :=
  packet.drop (packet.length - capacity)

def overflow (queue : ConsoleQueue capacity) (packet : List UInt8) : Nat :=
  queue.count + (staying capacity packet).length - capacity

/-- The queue after a packet, in which the oldest bytes give way if there is no room. -/
def push (queue : ConsoleQueue capacity) (packet : List UInt8) : ConsoleQueue capacity :=
  (staying capacity packet).foldl pushBack (queue.dropOldest (queue.overflow packet))

def pushNotes (queue : ConsoleQueue capacity) (packet : List UInt8) : List Note :=
  if 0 < queue.overflow packet then [.queueFull (queue.overflow packet)] else []

/-- Takes a packet in, with its cut and the count of the bytes checked. -/
def accept (queue : ConsoleQueue capacity) (packet : List UInt8) :
    Except Fault (ConsoleQueue capacity × List Note) := do
  let newest ← slice packet (packet.length - capacity) packet.length
  let total ← Word.add 64 queue.count newest.length
  let surplus := total - capacity
  return (newest.foldl pushBack (queue.dropOldest surplus),
    if 0 < surplus then [.queueFull surplus] else [])

/-- The queued bytes from the head on, as far as the store goes. -/
def front (queue : ConsoleQueue capacity) : List UInt8 :=
  (queue.cells.bytes.drop queue.head).take queue.count

/-- The queued bytes that lie at the front of the store again. -/
def wrapped (queue : ConsoleQueue capacity) : List UInt8 :=
  queue.cells.bytes.take (queue.count - (capacity - queue.head))

def bytes (queue : ConsoleQueue capacity) : List UInt8 :=
  queue.front ++ queue.wrapped

def drain (queue : ConsoleQueue capacity) : List (List UInt8) × ConsoleQueue capacity :=
  if queue.isEmpty then
    ([], queue)
  else
    (queue.front :: if queue.wrapped.isEmpty then [] else [queue.wrapped], queue.clear)

/-! ## The queued bytes -/

section Bytes

variable (queue : ConsoleQueue capacity)

theorem length_front : queue.front.length = min queue.count (capacity - queue.head) := by
  rw [front, List.length_take, List.length_drop, queue.cells.length_bytes]

theorem length_wrapped : queue.wrapped.length = queue.count - (capacity - queue.head) := by
  have fits := queue.count_le
  rw [wrapped, List.length_take, queue.cells.length_bytes]
  omega

@[simp] theorem length_bytes : queue.bytes.length = queue.count := by
  rw [bytes, List.length_append, length_front, length_wrapped]
  omega

theorem length_le : queue.bytes.length ≤ capacity := by
  rw [length_bytes]
  exact queue.count_le

theorem isEmpty_iff : queue.isEmpty = true ↔ queue.bytes = [] := by
  rw [isEmpty, beq_iff_eq, ← List.length_eq_zero_iff, length_bytes]

/-- Places go around the store at most once. -/
theorem place_eq {index : Nat} (inside : index < capacity) :
    queue.place index =
      if queue.head + index < capacity then queue.head + index
      else queue.head + index - capacity := by
  have headInside := queue.head_lt (Nat.zero_lt_of_lt inside)
  unfold place
  split
  · exact Nat.mod_eq_of_lt ‹_›
  · rw [Nat.mod_eq_sub_mod (by omega)]
    exact Nat.mod_eq_of_lt (by omega)

/-- Each queued byte lies in the cell that comes so many places after the head. -/
theorem getElem?_bytes {index : Nat} (queued : index < queue.count) :
    queue.bytes[index]? = queue.cells.bytes[queue.place index]? := by
  have fits := queue.count_le
  have headInside := queue.head_lt (by omega)
  rw [queue.place_eq (by omega), bytes, List.getElem?_append, length_front]
  by_cases before : queue.head + index < capacity
  · rw [if_pos (by omega), if_pos before, front, List.getElem?_take_of_lt queued, List.getElem?_drop]
  · rw [if_neg (by omega), if_neg before, wrapped, List.getElem?_take_of_lt (by omega)]
    congr 1
    omega

theorem bytes_popFront : queue.popFront.bytes = queue.bytes.tail := by
  unfold popFront
  split
  · rename_i none
    rw [queue.isEmpty_iff.mp none]
    rfl
  · rename_i some
    have positive : 0 < queue.count := Nat.pos_of_ne_zero fun none => some (beq_iff_eq.mpr none)
    have fits := queue.count_le
    apply List.ext_getElem?
    intro index
    rw [List.getElem?_tail]
    by_cases queued : index + 1 < queue.count
    · rw [getElem?_bytes _ (by dsimp only; omega), queue.getElem?_bytes queued]
      simp only [place, Nat.mod_add_mod, Nat.add_assoc, Nat.add_comm 1]
    · rw [List.getElem?_eq_none (by rw [length_bytes]; dsimp only; omega),
        List.getElem?_eq_none (by rw [length_bytes]; omega)]

theorem bytes_pushBack (byte : UInt8) (room : queue.count < capacity) :
    (queue.pushBack byte).bytes = queue.bytes ++ [byte] := by
  have headInside := queue.head_lt (by omega)
  rw [pushBack, dif_pos room]
  apply List.ext_getElem?
  intro index
  rw [List.getElem?_append, length_bytes]
  by_cases queued : index < queue.count + 1
  · rw [getElem?_bytes _ queued]
    have placed := queue.place_eq room
    have placeInside : queue.place queue.count < queue.cells.bytes.length := by
      rw [queue.cells.length_bytes]
      exact Nat.mod_lt _ (by omega)
    by_cases last : index = queue.count
    · rw [last, if_neg (Nat.lt_irrefl _), Nat.sub_self]
      exact List.getElem?_set_self placeInside
    · have apart : queue.place queue.count ≠ queue.place index := by
        rw [placed, queue.place_eq (by omega)]
        split <;> split <;> omega
      rw [if_pos (by omega), queue.getElem?_bytes (by omega)]
      exact List.getElem?_set_ne apart
  · rw [List.getElem?_eq_none (by rw [length_bytes]; exact Nat.le_of_not_lt queued),
      if_neg (by omega), List.getElem?_eq_none (by rw [List.length_singleton]; omega)]

theorem bytes_dropOldest (count : Nat) : (queue.dropOldest count).bytes = queue.bytes.drop count := by
  induction count generalizing queue with
  | zero => rfl
  | succ count countInduction =>
    rw [dropOldest, countInduction, bytes_popFront, List.drop_tail]

theorem bytes_pushAll (newer : List UInt8) (room : queue.count + newer.length ≤ capacity) :
    (newer.foldl pushBack queue).bytes = queue.bytes ++ newer := by
  induction newer generalizing queue with
  | nil => exact (List.append_nil _).symm
  | cons byte rest restInduction =>
    rw [List.length_cons] at room
    have pushed := queue.bytes_pushBack byte (by omega)
    have count : (queue.pushBack byte).count = queue.count + 1 := by
      rw [← length_bytes, pushed, List.length_append, length_bytes, List.length_singleton]
    rw [List.foldl_cons, restInduction _ (by omega), pushed, List.append_assoc]
    rfl

end Bytes

theorem length_staying (packet : List UInt8) :
    (staying capacity packet).length = min packet.length capacity := by
  rw [staying, List.length_drop]
  omega

theorem accept_eq (queue : ConsoleQueue capacity) (packet : List UInt8)
    (narrow : capacity + capacity < 1 <<< 64) :
    queue.accept packet = .ok (queue.push packet, queue.pushNotes packet) := by
  have held := queue.count_le
  have stays : (staying capacity packet).length = min packet.length capacity := length_staying packet
  have newest : slice packet (packet.length - capacity) packet.length =
      .ok (staying capacity packet) := by
    rw [slice_of_le (Nat.sub_le ..) (Nat.le_refl _), ← List.length_drop, List.take_length, staying]
  have total : Word.add 64 queue.count (staying capacity packet).length =
      .ok (queue.count + (staying capacity packet).length) :=
    Word.add_of_lt (by omega)
  simp only [accept, newest, total, bind, Except.bind, pure, Except.pure]
  rfl

theorem bytes_push (queue : ConsoleQueue capacity) (packet : List UInt8) :
    (queue.push packet).bytes =
      (queue.bytes ++ packet).drop ((queue.bytes ++ packet).length - capacity) := by
  have fits := queue.length_le
  have stays : (staying capacity packet).length = min packet.length capacity := length_staying packet
  have left := queue.bytes_dropOldest (queue.overflow packet)
  have held : (queue.dropOldest (queue.overflow packet)).count =
      queue.bytes.length - queue.overflow packet := by
    rw [← length_bytes, left, List.length_drop]
  have overflowIs : queue.overflow packet = queue.bytes.length + min packet.length capacity - capacity := by
    rw [overflow, stays, length_bytes]
  rw [push, bytes_pushAll _ _ (by omega), left, List.drop_append, List.length_append, overflowIs]
  by_cases long : capacity ≤ packet.length
  · rw [List.drop_eq_nil_of_le (by omega), List.drop_eq_nil_of_le (by omega), staying]
    congr 2
    omega
  · rw [staying]
    congr 2
    · omega
    · omega

theorem flatten_drain (queue : ConsoleQueue capacity) : queue.drain.1.flatten = queue.bytes := by
  unfold drain bytes
  split
  · rename_i none
    exact (queue.isEmpty_iff.mp none).symm
  · split
    · rename_i unwrapped
      rw [List.isEmpty_iff.mp unwrapped]
      simp only [List.flatten_cons, List.flatten_nil]
    · simp only [List.flatten_cons, List.flatten_nil, List.append_nil]

theorem bytes_drain (queue : ConsoleQueue capacity) : queue.drain.2.bytes = [] := by
  unfold drain
  split
  · rename_i none
    exact queue.isEmpty_iff.mp none
  · exact (isEmpty_iff _).mp rfl

end ConsoleQueue

end ScriptDrive
