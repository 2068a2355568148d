import ScriptDrive.Fault

/-!
# Bytes

Everything the device sends or receives is a list of bytes.  This module holds the numbers written in
them, in either byte order; runs of bytes whose width is part of their type; parts of a buffer, taken
or replaced with a check that they lie inside it; and the comparison of names without regard to the
case of ASCII letters.

The statements say that reading a number back gives what was written, modulo the width, and that
replacing a part of a buffer keeps the buffer's length.
-/

set_option autoImplicit false

namespace ScriptDrive

/-! ## Numbers in bytes -/

/-- The low `width` bytes of a number, the least significant first. -/
def littleEndian : Nat → Nat → List UInt8
  | 0, _ => []
  | width + 1, value => UInt8.ofNat value :: littleEndian width (value / 256)

def littleEndianValue : List UInt8 → Nat
  | [] => 0
  | byte :: rest => byte.toNat + 256 * littleEndianValue rest

def bigEndian (width value : Nat) : List UInt8 :=
  (littleEndian width value).reverse

def bigEndianValue (bytes : List UInt8) : Nat :=
  littleEndianValue bytes.reverse

def littleWord16 (bytes : List UInt8) (start : Nat) : UInt16 :=
  UInt16.ofNat (littleEndianValue ((bytes.drop start).take 2))

def littleWord32 (bytes : List UInt8) (start : Nat) : UInt32 :=
  UInt32.ofNat (littleEndianValue ((bytes.drop start).take 4))

def bigWord16 (bytes : List UInt8) (start : Nat) : UInt16 :=
  UInt16.ofNat (bigEndianValue ((bytes.drop start).take 2))

def bigWord32 (bytes : List UInt8) (start : Nat) : UInt32 :=
  UInt32.ofNat (bigEndianValue ((bytes.drop start).take 4))

@[simp] theorem length_littleEndian (width value : Nat) :
    (littleEndian width value).length = width := by
  induction width generalizing value with
  | zero => rfl
  | succ width widthInduction => simp [littleEndian, widthInduction]

@[simp] theorem length_bigEndian (width value : Nat) : (bigEndian width value).length = width := by
  simp [bigEndian]

theorem shiftLeft_byte (width : Nat) : 1 <<< (8 * (width + 1)) = 256 * 1 <<< (8 * width) := by
  rw [Nat.shiftLeft_eq, Nat.shiftLeft_eq, Nat.mul_succ, Nat.pow_add]
  omega

theorem littleEndianValue_littleEndian (width value : Nat) :
    littleEndianValue (littleEndian width value) = value % 1 <<< (8 * width) := by
  induction width generalizing value with
  | zero => simp [littleEndian, littleEndianValue, Nat.mod_one]
  | succ width widthInduction =>
    have lowByte : (UInt8.ofNat value).toNat = value % 256 := by simp
    simp only [littleEndian, littleEndianValue, widthInduction, lowByte]
    rw [shiftLeft_byte, Nat.mod_mul]

theorem littleEndian_littleEndianValue (bytes : List UInt8) :
    littleEndian bytes.length (littleEndianValue bytes) = bytes := by
  induction bytes with
  | nil => rfl
  | cons byte rest restInduction =>
    have small : byte.toNat < 256 := byte.toNat_lt
    have quotient : (byte.toNat + 256 * littleEndianValue rest) / 256 = littleEndianValue rest := by
      omega
    have first : UInt8.ofNat (byte.toNat + 256 * littleEndianValue rest) = byte := by
      apply UInt8.toNat_inj.mp
      simp
    simp [littleEndian, littleEndianValue, first, quotient, restInduction]

theorem littleEndianValue_lt (bytes : List UInt8) :
    littleEndianValue bytes < 1 <<< (8 * bytes.length) := by
  induction bytes with
  | nil => simp [littleEndianValue]
  | cons byte rest restInduction =>
    have small : byte.toNat < 256 := byte.toNat_lt
    simp only [littleEndianValue, List.length_cons, shiftLeft_byte]
    omega

theorem littleEndianValue_take_lt (bytes : List UInt8) (width : Nat) :
    littleEndianValue (bytes.take width) < 1 <<< (8 * width) := by
  apply Nat.lt_of_lt_of_le (littleEndianValue_lt (bytes.take width))
  rw [Nat.shiftLeft_eq, Nat.shiftLeft_eq, Nat.one_mul, Nat.one_mul]
  have short := List.length_take_le width bytes
  exact Nat.pow_le_pow_right (by decide) (by omega)

theorem toNat_littleWord16 (bytes : List UInt8) (start : Nat) :
    (littleWord16 bytes start).toNat = littleEndianValue ((bytes.drop start).take 2) :=
  UInt16.toNat_ofNat_of_lt' (littleEndianValue_take_lt (bytes.drop start) 2)

theorem toNat_littleWord32 (bytes : List UInt8) (start : Nat) :
    (littleWord32 bytes start).toNat = littleEndianValue ((bytes.drop start).take 4) :=
  UInt32.toNat_ofNat_of_lt' (littleEndianValue_take_lt (bytes.drop start) 4)

theorem bigEndianValue_bigEndian (width value : Nat) :
    bigEndianValue (bigEndian width value) = value % 1 <<< (8 * width) := by
  simp [bigEndianValue, bigEndian, littleEndianValue_littleEndian]

theorem bigEndian_bigEndianValue (bytes : List UInt8) :
    bigEndian bytes.length (bigEndianValue bytes) = bytes := by
  have whole := littleEndian_littleEndianValue bytes.reverse
  rw [List.length_reverse] at whole
  simp [bigEndian, bigEndianValue, whole]

theorem littleWord16_of_drop {bytes : List UInt8} {start : Nat} {value : UInt16} (rest : List UInt8)
    (found : bytes.drop start = littleEndian 2 value.toNat ++ rest) :
    littleWord16 bytes start = value := by
  have taken : (littleEndian 2 value.toNat ++ rest).take 2 = littleEndian 2 value.toNat :=
    List.take_left' (length_littleEndian 2 value.toNat)
  rw [littleWord16, found, taken, littleEndianValue_littleEndian]
  apply UInt16.toNat_inj.mp
  simp

theorem littleWord32_of_drop {bytes : List UInt8} {start : Nat} {value : UInt32} (rest : List UInt8)
    (found : bytes.drop start = littleEndian 4 value.toNat ++ rest) :
    littleWord32 bytes start = value := by
  have taken : (littleEndian 4 value.toNat ++ rest).take 4 = littleEndian 4 value.toNat :=
    List.take_left' (length_littleEndian 4 value.toNat)
  rw [littleWord32, found, taken, littleEndianValue_littleEndian]
  apply UInt32.toNat_inj.mp
  simp

theorem drop_littleEndian_of_le {width count : Nat} (value : Nat) (past : width ≤ count) :
    (littleEndian width value).drop count = [] :=
  List.drop_eq_nil_of_le (by simpa using past)

/-! ## Runs of a fixed width -/

@[ext] structure Octets (width : Nat) where
  bytes : List UInt8
  length_bytes : bytes.length = width
  deriving DecidableEq

namespace Octets

def zeros (width : Nat) : Octets width :=
  ⟨List.replicate width 0, List.length_replicate ..⟩

instance (width : Nat) : Inhabited (Octets width) := ⟨zeros width⟩

def ofList? (width : Nat) (bytes : List UInt8) : Option (Octets width) :=
  if h : bytes.length = width then some ⟨bytes, h⟩ else none

def part (bytes : List UInt8) (start width : Nat) (inside : start + width ≤ bytes.length) :
    Octets width :=
  ⟨(bytes.drop start).take width, by simp only [List.length_take, List.length_drop]; omega⟩

def byteAt {width : Nat} (octets : Octets width) (position : Nat) (inside : position < width) : UInt8 :=
  octets.bytes.get ⟨position, by rw [octets.length_bytes]; exact inside⟩

def set {width : Nat} (octets : Octets width) (position : Nat) (byte : UInt8) : Octets width :=
  ⟨octets.bytes.set position byte, List.length_set.trans octets.length_bytes⟩

theorem ofList?_bytes {width : Nat} (octets : Octets width) :
    ofList? width octets.bytes = some octets := by
  simp [ofList?, octets.length_bytes]

theorem ofList?_eq_none_iff {width : Nat} {bytes : List UInt8} :
    ofList? width bytes = none ↔ bytes.length ≠ width := by
  simp [ofList?]

end Octets

/-! ## Text -/

def ascii (text : String) : List UInt8 :=
  text.toList.map fun character => UInt8.ofNat character.toNat

def utf8 (text : String) : List UInt8 :=
  text.toList.flatMap String.utf8EncodeChar

theorem utf8_eq (text : String) : utf8 text = text.toUTF8.data.toList := by
  rw [String.toUTF8, ← String.utf8Encode_toList, List.utf8Encode, List.data_toByteArray]
  rfl

def hexadecimal (width value : Nat) : String :=
  let digits := Nat.toDigits 16 value
  String.ofList (List.replicate (width - digits.length) '0' ++ digits)

def smallLetter (byte : UInt8) : UInt8 :=
  if 0x41 ≤ byte ∧ byte ≤ 0x5A then byte + 0x20 else byte

/-- Whether two runs of bytes agree but for the case of ASCII letters. -/
def sameLetters (left right : List UInt8) : Bool :=
  left.map smallLetter == right.map smallLetter

/-! ## Parts of a buffer -/

def slice (buffer : List UInt8) (start stop : Nat) : Except Fault (List UInt8) :=
  if start ≤ stop ∧ stop ≤ buffer.length then
    .ok ((buffer.drop start).take (stop - start))
  else
    .error .outOfRange

/-- The buffer with the bytes from `start` up to `stop` replaced by `piece`, which is as long. -/
def splice (buffer : List UInt8) (start stop : Nat) (piece : List UInt8) : Except Fault (List UInt8) :=
  if start ≤ stop ∧ stop ≤ buffer.length ∧ piece.length = stop - start then
    .ok (buffer.take start ++ piece ++ buffer.drop stop)
  else
    .error .outOfRange

def cleared (buffer : List UInt8) : List UInt8 :=
  buffer.map fun _ => 0

theorem cleared_eq (buffer : List UInt8) : cleared buffer = List.replicate buffer.length 0 :=
  List.map_const' ..

theorem slice_of_le {buffer : List UInt8} {start stop : Nat} (ordered : start ≤ stop)
    (inside : stop ≤ buffer.length) :
    slice buffer start stop = .ok ((buffer.drop start).take (stop - start)) := by
  simp [slice, ordered, inside]

theorem slice_front {buffer : List UInt8} {stop : Nat} (inside : stop ≤ buffer.length) :
    slice buffer 0 stop = .ok (buffer.take stop) := by
  rw [slice_of_le (Nat.zero_le _) inside, List.drop_zero, Nat.sub_zero]

theorem splice_of_le {buffer piece : List UInt8} {start stop : Nat} (ordered : start ≤ stop)
    (inside : stop ≤ buffer.length) (fits : piece.length = stop - start) :
    splice buffer start stop piece = .ok (buffer.take start ++ piece ++ buffer.drop stop) := by
  simp [splice, ordered, inside, fits]

theorem splice_front {buffer piece : List UInt8} (inside : piece.length ≤ buffer.length) :
    splice buffer 0 piece.length piece = .ok (piece ++ buffer.drop piece.length) := by
  rw [splice_of_le (Nat.zero_le _) inside (Nat.sub_zero _).symm, List.take_zero, List.nil_append]

theorem length_of_splice {buffer piece result : List UInt8} {start stop : Nat}
    (replaced : splice buffer start stop piece = .ok result) : result.length = buffer.length := by
  unfold splice at replaced
  split at replaced
  · cases replaced
    simp only [List.length_append, List.length_take, List.length_drop]
    omega
  · cases replaced

end ScriptDrive
