/-!
# Faults and checked word arithmetic

Sizes on this device come in several widths at once: byte counts the host chose, sector numbers,
offsets into a small memory.  The drive computes every sum, difference and product that has to fit its
word here, with the check in front, and a value that does not fit is a `Fault` instead of a wrapped
number.

The lemmas of this module say exactly when each operation succeeds.
-/

set_option autoImplicit false

namespace ScriptDrive

inductive Fault where
  /-- A sum, difference or product left the range of its word. -/
  | overflow
  /-- A part of a buffer was asked for that the buffer does not have. -/
  | outOfRange
  /-- A window on a sector reached past the end of the sector. -/
  | windowTooWide
  /-- More bytes than one packet carries were handed over as a packet. -/
  | packetTooLong
  /-- A buffer came back while the controller still held it. -/
  | bufferHeld
  deriving DecidableEq, Repr

namespace Word

def add (width a b : Nat) : Except Fault Nat :=
  if a + b < 1 <<< width then .ok (a + b) else .error .overflow

def sub (a b : Nat) : Except Fault Nat :=
  if b ≤ a then .ok (a - b) else .error .overflow

def mul (width a b : Nat) : Except Fault Nat :=
  if a * b < 1 <<< width then .ok (a * b) else .error .overflow

theorem add_of_lt {width a b : Nat} (h : a + b < 1 <<< width) : add width a b = .ok (a + b) := by
  simp [add, h]

theorem add_eq_ok_iff {width a b c : Nat} :
    add width a b = .ok c ↔ a + b < 1 <<< width ∧ a + b = c := by
  unfold add
  by_cases fits : a + b < 1 <<< width <;> simp [fits]

theorem sub_of_le {a b : Nat} (h : b ≤ a) : sub a b = .ok (a - b) := by
  simp [sub, h]

theorem sub_eq_ok_iff {a b c : Nat} : sub a b = .ok c ↔ b ≤ a ∧ a - b = c := by
  unfold sub
  by_cases enough : b ≤ a <;> simp [enough]

theorem mul_of_lt {width a b : Nat} (h : a * b < 1 <<< width) : mul width a b = .ok (a * b) := by
  simp [mul, h]

theorem mul_eq_ok_iff {width a b c : Nat} :
    mul width a b = .ok c ↔ a * b < 1 <<< width ∧ a * b = c := by
  unfold mul
  by_cases fits : a * b < 1 <<< width <;> simp [fits]

end Word

end ScriptDrive
