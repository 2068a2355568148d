import ScriptDrive.Proofs.Transport.Requests
import ScriptDrive.Transport.StatusWrapper

/-!
# Reading commands

A number read from its bytes is the number that was written in them: `littleWord32_eq_iff` and its kind say so
for each width and byte order.  So a packet is read as a wrapper exactly if it is what `encode` makes of that
wrapper, and a block that moves blocks of the volume is read as a command exactly if it carries the code and
the two numbers of that command in their places.  `commands_read_back` puts the two together, with what is
refused, and why, and with the tag that the status brings back.
-/

set_option autoImplicit false

namespace ScriptDrive

/-! ## Numbers and the bytes they are written in -/

section Numbers

variable {bytes : List UInt8} {start : Nat}

theorem length_part {width : Nat} (inside : start + width ≤ bytes.length) :
    ((bytes.drop start).take width).length = width := by
  rw [List.length_take, List.length_drop]
  omega

theorem part_append_drop (bytes : List UInt8) (start width : Nat) :
    (bytes.drop start).take width ++ bytes.drop (start + width) = bytes.drop start := by
  rw [← List.drop_drop, List.take_append_drop]

theorem littleEndianValue_eq_iff {width value : Nat} (sized : bytes.length = width)
    (small : value < 1 <<< (8 * width)) :
    littleEndianValue bytes = value ↔ bytes = littleEndian width value := by
  constructor
  · rintro rfl
    rw [← sized, littleEndian_littleEndianValue]
  · rintro rfl
    rw [littleEndianValue_littleEndian, Nat.mod_eq_of_lt small]

theorem bigEndianValue_eq_iff {width value : Nat} (sized : bytes.length = width)
    (small : value < 1 <<< (8 * width)) : bigEndianValue bytes = value ↔ bytes = bigEndian width value := by
  rw [bigEndianValue, bigEndian, littleEndianValue_eq_iff (List.length_reverse.trans sized) small,
    List.reverse_eq_iff]

theorem littleWord32_eq_iff (inside : start + 4 ≤ bytes.length) (value : UInt32) :
    littleWord32 bytes start = value ↔ (bytes.drop start).take 4 = littleEndian 4 value.toNat := by
  rw [← UInt32.toNat_inj, toNat_littleWord32]
  exact littleEndianValue_eq_iff (length_part inside) value.toNat_lt

theorem bigWord32_eq_iff (inside : start + 4 ≤ bytes.length) (value : UInt32) :
    bigWord32 bytes start = value ↔ (bytes.drop start).take 4 = bigEndian 4 value.toNat := by
  have small : bigEndianValue ((bytes.drop start).take 4) < UInt32.size := by
    have bound := littleEndianValue_lt ((bytes.drop start).take 4).reverse
    rw [List.length_reverse, length_part inside] at bound
    exact bound
  rw [← UInt32.toNat_inj, bigWord32, UInt32.toNat_ofNat_of_lt' small]
  exact bigEndianValue_eq_iff (length_part inside) value.toNat_lt

theorem bigWord16_eq_iff (inside : start + 2 ≤ bytes.length) (value : UInt16) :
    bigWord16 bytes start = value ↔ (bytes.drop start).take 2 = bigEndian 2 value.toNat := by
  have small : bigEndianValue ((bytes.drop start).take 2) < UInt16.size := by
    have bound := littleEndianValue_lt ((bytes.drop start).take 2).reverse
    rw [List.length_reverse, length_part inside] at bound
    exact bound
  rw [← UInt16.toNat_inj, bigWord16, UInt16.toNat_ofNat_of_lt' small]
  exact bigEndianValue_eq_iff (length_part inside) value.toNat_lt

end Numbers

/-! ## Wrappers -/

namespace CommandWrapper

variable {packet : List UInt8}

theorem signed_iff (sized : packet.length = size) :
    littleWord32 packet 0 = signature ↔ packet.take 4 = [0x55, 0x53, 0x42, 0x43] := by
  have inside : 0 + 4 ≤ packet.length := by
    rw [sized]
    decide
  rw [littleWord32_eq_iff inside, List.drop_zero]
  rfl

theorem decode_ok_iff :
    (∃ wrapper, decode packet = .ok wrapper) ↔
      packet.length = size ∧ packet.take 4 = [0x55, 0x53, 0x42, 0x43] := by
  unfold decode
  by_cases sized : packet.length = size
  · rw [dif_pos sized, ← signed_iff sized]
    by_cases signed : littleWord32 packet 0 = signature
    · simp only [signed, sized, if_true, Except.ok.injEq, exists_eq', and_self]
    · simp only [signed, if_false, reduceCtorEq, exists_false, and_false]
  · simp only [sized, dif_neg, not_false_eq_true, reduceCtorEq, exists_false, false_and]

theorem decode_eq_signature_error_iff (found : UInt32) :
    decode packet = .error (.signature found) ↔
      packet.length = size ∧ packet.take 4 ≠ [0x55, 0x53, 0x42, 0x43] ∧
        packet.take 4 = littleEndian 4 found.toNat := by
  unfold decode
  by_cases sized : packet.length = size
  · have inside : 0 + 4 ≤ packet.length := by
      rw [sized]
      decide
    have read := littleWord32_eq_iff inside found
    rw [List.drop_zero] at read
    rw [dif_pos sized, ne_eq, ← signed_iff sized, ← read]
    by_cases signed : littleWord32 packet 0 = signature
    · simp only [signed, if_true, reduceCtorEq, not_true_eq_false, false_and, and_false]
    · simp only [signed, if_false, sized, Except.error.injEq, DecodeError.signature.injEq, not_false_eq_true,
        true_and]
  · simp only [sized, dif_neg, not_false_eq_true, Except.error.injEq, reduceCtorEq, false_and]

/-- What is read is written back byte for byte. -/
theorem encode_of_decode {wrapper : CommandWrapper} (decoded : decode packet = .ok wrapper) :
    wrapper.encode = packet := by
  obtain ⟨sized, -⟩ := decode_ok_iff.mp ⟨wrapper, decoded⟩
  have long : packet.length = 31 := sized
  have word {start : Nat} (inside : start + 4 ≤ 31) :
      littleEndian 4 (littleWord32 packet start).toNat = (packet.drop start).take 4 :=
    ((littleWord32_eq_iff (long ▸ inside) _).mp rfl).symm
  have whole : (packet.drop 15).take 16 = packet.drop 15 := by
    rw [List.take_of_length_le]
    rw [List.length_drop]
    omega
  unfold decode at decoded
  rw [dif_pos sized] at decoded
  split at decoded
  · rename_i signed
    cases decoded
    -- The three single bytes stand in front of the block, and each word in front of what follows it.
    have singles : [packet[12], packet[13], packet[14]] ++ packet.drop 15 = packet.drop 12 := by
      simp only [List.drop_eq_getElem_cons (show 12 < packet.length by omega),
        List.drop_eq_getElem_cons (show 13 < packet.length by omega),
        List.drop_eq_getElem_cons (show 14 < packet.length by omega), List.cons_append, List.nil_append]
    calc encode _
      _ = littleEndian 4 (littleWord32 packet 0).toNat ++ (littleEndian 4 (littleWord32 packet 4).toNat ++
            (littleEndian 4 (littleWord32 packet 8).toNat ++
              ([packet[12], packet[13], packet[14]] ++ (packet.drop 15).take 16))) := by
        rw [signed]
        simp only [encode, List.append_assoc]
        rfl
      _ = packet.take 4 ++ ((packet.drop 4).take 4 ++ ((packet.drop 8).take 4 ++ packet.drop 12)) := by
        rw [word (by decide), word (by decide), word (by decide), whole, singles, List.drop_zero]
      _ = packet := by
        rw [part_append_drop packet 8, part_append_drop packet 4, List.take_append_drop]
  · cases decoded

theorem decode_eq_ok_iff {wrapper : CommandWrapper} :
    decode packet = .ok wrapper ↔ packet = wrapper.encode := by
  constructor
  · intro decoded
    exact (encode_of_decode decoded).symm
  · rintro rfl
    exact decode_encode wrapper

/-- The tag and the length stand behind the signature, and the block at the end. -/
theorem fields_encode (wrapper : CommandWrapper) :
    (wrapper.encode.drop 4).take 4 = littleEndian 4 wrapper.tag.toNat ∧
      (wrapper.encode.drop 8).take 4 = littleEndian 4 wrapper.requested.toNat ∧
      wrapper.encode.drop 15 = wrapper.block.bytes := by
  have split : wrapper.encode.drop 15 = (wrapper.encode.drop 12).drop 3 := by
    rw [List.drop_drop]
  refine ⟨?_, ?_, ?_⟩
  · rw [drop_encode]
    exact List.take_left' (length_littleEndian 4 _)
  · rw [drop_encode_requested]
    exact List.take_left' (length_littleEndian 4 _)
  · rw [split, drop_encode_flags]
    rfl

end CommandWrapper

/-- Whatever becomes of a command, its status carries its tag. -/
theorem StatusWrapper.tag_encode (status : StatusWrapper) :
    (status.encode.drop 4).take 4 = littleEndian 4 status.tag.toNat := by
  have behind : status.encode.drop 4 =
      littleEndian 4 status.tag.toNat ++ (littleEndian 4 status.residue.toNat ++ [status.outcome.code]) := by
    simp only [encode, List.append_assoc]
    exact List.drop_left' (length_littleEndian 4 _)
  rw [behind]
  exact List.take_left' (length_littleEndian 4 _)

/-! ## Blocks -/

namespace Scsi

namespace Opcode

def code : Opcode → Nat
  | testUnitReady => 0x00
  | requestSense => 0x03
  | inquiry => 0x12
  | modeSense6 => 0x1A
  | preventAllowMediumRemoval => 0x1E
  | readCapacity10 => 0x25
  | read10 => 0x28
  | write10 => 0x2A
  | modeSense10 => 0x5A

theorem ofCode?_eq_some_iff {number : Nat} {opcode : Opcode} :
    ofCode? number = some opcode ↔ number = opcode.code := by
  constructor
  · intro found
    unfold ofCode? at found
    split at found <;> cases found <;> rfl
  · rintro rfl
    cases opcode <;> rfl

def codes : List Nat :=
  [0x00, 0x03, 0x12, 0x1A, 0x1E, 0x25, 0x28, 0x2A, 0x5A]

theorem ofCode?_eq_none_iff {number : Nat} : ofCode? number = none ↔ number ∉ codes := by
  unfold codes
  unfold ofCode?
  split <;> simp_all

end Opcode

namespace Command

variable {block other : Octets 16}

theorem zero_lt_sixteen : 0 < 16 := by decide

def codeOf (block : Octets 16) : UInt8 :=
  block.byteAt 0 zero_lt_sixteen

def moving : List (UInt8 × (UInt32 → UInt16 → Command)) :=
  [(0x28, .read10), (0x2A, .write10)]

theorem ofCode?_codeOf_iff {code : UInt8} {opcode : Opcode} (stands : code.toNat = opcode.code) :
    Opcode.ofCode? (codeOf block).toNat = some opcode ↔ codeOf block = code := by
  rw [Opcode.ofCode?_eq_some_iff, ← stands, UInt8.toNat_inj]

theorem parse_moving_iff {code : UInt8} {command : UInt32 → UInt16 → Command}
    (moves : (code, command) ∈ moving) (lba : UInt32) (blocks : UInt16) :
    parse block = command lba blocks ↔
      codeOf block = code ∧ bigWord32 block.bytes 2 = lba ∧ bigWord16 block.bytes 7 = blocks := by
  have reading : _ ↔ codeOf block = 0x28 := ofCode?_codeOf_iff (show _ = Opcode.read10.code from rfl)
  have writing : _ ↔ codeOf block = 0x2A := ofCode?_codeOf_iff (show _ = Opcode.write10.code from rfl)
  simp only [moving, List.mem_cons, Prod.mk.injEq, List.not_mem_nil, or_false] at moves
  unfold parse
  rcases found : Opcode.ofCode? (codeOf block).toNat with _ | opcode
  · rw [found] at reading writing
    unfold codeOf at found
    rcases moves with ⟨rfl, rfl⟩ | ⟨rfl, rfl⟩
    · simp [← reading, found]
    · simp [← writing, found]
  · rw [found] at reading writing
    unfold codeOf at found
    rcases moves with ⟨rfl, rfl⟩ | ⟨rfl, rfl⟩
    · cases opcode <;> simp [← reading, found]
    · cases opcode <;> simp [← writing, found]

/-- A block with the two numbers of a moving command in their places, whatever stands in the others. -/
def Places (block : Octets 16) (code : UInt8) (lba : UInt32) (blocks : UInt16) : Prop :=
  ∃ (flags group : UInt8) (rest : Octets 7),
    block.bytes = [code, flags] ++ bigEndian 4 lba.toNat ++ [group] ++ bigEndian 2 blocks.toNat ++ rest.bytes

theorem places_iff (block : Octets 16) (code : UInt8) (lba : UInt32) (blocks : UInt16) :
    Places block code lba blocks ↔ codeOf block = code ∧
      bigWord32 block.bytes 2 = lba ∧ bigWord16 block.bytes 7 = blocks := by
  have long : block.bytes.length = 16 := block.length_bytes
  rw [bigWord32_eq_iff (by omega), bigWord16_eq_iff (by omega)]
  constructor
  · rintro ⟨flags, group, rest, laid⟩
    have fromLba : block.bytes.drop 2 =
        bigEndian 4 lba.toNat ++ ([group] ++ bigEndian 2 blocks.toNat ++ rest.bytes) := by
      rw [laid]
      simp only [List.append_assoc]
      exact List.drop_left' rfl
    have fromBlocks : block.bytes.drop 7 = bigEndian 2 blocks.toNat ++ rest.bytes := by
      rw [laid, List.append_assoc _ (bigEndian 2 _)]
      exact List.drop_left' (by simp)
    refine ⟨?_, ?_, ?_⟩
    · simp [codeOf, Octets.byteAt, laid]
    · rw [fromLba]
      exact List.take_left' (length_bigEndian 4 _)
    · rw [fromBlocks]
      exact List.take_left' (length_bigEndian 2 _)
  · rintro ⟨rfl, lbaPlaced, blocksPlaced⟩
    refine ⟨block.byteAt 1 (by decide), block.byteAt 6 (by decide),
      Octets.part block.bytes 9 7 (by omega), ?_⟩
    have whole : (block.bytes.drop 9).take 7 = block.bytes.drop 9 :=
      List.take_of_length_le (by rw [List.length_drop]; omega)
    have front : block.bytes = [codeOf block, block.byteAt 1 (by decide)] ++ block.bytes.drop 2 := by
      conv => lhs; rw [← List.take_append_drop 2 block.bytes]
      congr 1
      rw [List.take_succ_eq_append_getElem (by omega), List.take_succ_eq_append_getElem (by omega)]
      rfl
    have middle : block.bytes.drop 6 = [block.byteAt 6 (by decide)] ++ block.bytes.drop 7 := by
      rw [List.drop_eq_getElem_cons (show 6 < block.bytes.length by omega)]
      rfl
    calc block.bytes
      _ = [codeOf block, block.byteAt 1 (by decide)] ++ ((block.bytes.drop 2).take 4 ++
            ([block.byteAt 6 (by decide)] ++ ((block.bytes.drop 7).take 2 ++ block.bytes.drop 9))) := by
        rw [part_append_drop _ 7, ← middle, part_append_drop _ 2, ← front]
      _ = _ := by
        rw [lbaPlaced, blocksPlaced, ← whole]
        simp only [List.append_assoc]
        rfl

theorem parse_eq_unknown_iff (code : UInt8) :
    parse block = .unknown code ↔ code = codeOf block ∧ code.toNat ∉ Opcode.codes := by
  constructor
  · intro read
    rcases found : Opcode.ofCode? (codeOf block).toNat with _ | opcode
    · have known := Opcode.ofCode?_eq_none_iff.mp found
      unfold codeOf at found
      simp only [parse, found, unknown.injEq] at read
      exact ⟨read.symm, read ▸ known⟩
    · unfold codeOf at found
      cases opcode <;> simp only [parse, found, reduceCtorEq] at read
  · rintro ⟨rfl, unlisted⟩
    have found := Opcode.ofCode?_eq_none_iff.mpr unlisted
    unfold codeOf at found
    simp only [parse, found]
    rfl

/-- Outside the commands that carry numbers, the code decides alone. -/
theorem parse_congr (same : codeOf other = codeOf block) (unmoved : codeOf block ∉ moving.map Prod.fst) :
    parse other = parse block := by
  simp only [moving, List.map_cons, List.map_nil, List.mem_cons, List.not_mem_nil, or_false, not_or] at unmoved
  have notReading := mt (ofCode?_codeOf_iff (show _ = Opcode.read10.code from rfl)).mp unmoved.1
  have notWriting := mt (ofCode?_codeOf_iff (show _ = Opcode.write10.code from rfl)).mp unmoved.2
  rcases found : Opcode.ofCode? (codeOf block).toNat with _ | opcode
  · unfold codeOf at same found
    simp only [parse, same, found]
  · cases opcode with
    | read10 => exact absurd found notReading
    | write10 => exact absurd found notWriting
    | _ =>
      unfold codeOf at same found
      simp only [parse, same, found]

end Command

end Scsi

open Scsi

/-- A packet is decoded exactly if it is the encoding of a wrapper, and to that wrapper; of a packet that is
not, the error names the length if that is wrong, and else the signature.  A command block that moves blocks
is read by its places alone, and any other by its first byte alone. -/
theorem commands_read_back (packet : List UInt8) (block : Octets 16) :
    ((∃ wrapper, CommandWrapper.decode packet = .ok wrapper) ↔
      packet.length = 31 ∧ packet.take 4 = [0x55, 0x53, 0x42, 0x43]) ∧
    (∀ bytes, CommandWrapper.decode packet = .error (.length bytes) ↔
      packet.length ≠ 31 ∧ bytes = packet.length) ∧
    (∀ found, CommandWrapper.decode packet = .error (.signature found) ↔
      packet.length = 31 ∧ packet.take 4 ≠ [0x55, 0x53, 0x42, 0x43] ∧
        packet.take 4 = littleEndian 4 found.toNat) ∧
    (∀ wrapper, CommandWrapper.decode packet = .ok wrapper ↔ packet = wrapper.encode) ∧
    (∀ wrapper : CommandWrapper, packet = wrapper.encode →
      (packet.drop 4).take 4 = littleEndian 4 wrapper.tag.toNat ∧
      (packet.drop 8).take 4 = littleEndian 4 wrapper.requested.toNat ∧
      packet.drop 15 = wrapper.block.bytes ∧
      ∀ residue outcome,
        let status := { StatusWrapper.forCommand wrapper with residue := residue, outcome := outcome }
        (status.encode.drop 4).take 4 = (packet.drop 4).take 4) ∧
    (∀ code command, (code, command) ∈ Command.moving →
      ((∃ lba blocks, Command.parse block = command lba blocks) ↔ Command.codeOf block = code) ∧
      ∀ lba blocks, Command.parse block = command lba blocks ↔ Command.Places block code lba blocks) ∧
    (∀ other, Command.codeOf other = Command.codeOf block →
      Command.codeOf block ∉ Command.moving.map Prod.fst → Command.parse other = Command.parse block) ∧
    (∀ code, Command.parse block = .unknown code ↔
      code = Command.codeOf block ∧ code.toNat ∉ Opcode.codes) := by
  refine ⟨CommandWrapper.decode_ok_iff, fun _ => CommandWrapper.decode_eq_length_error_iff,
    CommandWrapper.decode_eq_signature_error_iff, fun _ => CommandWrapper.decode_eq_ok_iff, ?_, ?_,
    fun _ => Command.parse_congr, Command.parse_eq_unknown_iff⟩
  · rintro wrapper rfl
    obtain ⟨tagged, sized, blockBehind⟩ := wrapper.fields_encode
    refine ⟨tagged, sized, blockBehind, ?_⟩
    intro residue outcome status
    rw [tagged]
    exact status.tag_encode
  · intro code command moves
    refine ⟨?_, ?_⟩
    · constructor
      · rintro ⟨lba, blocks, read⟩
        exact ((Command.parse_moving_iff moves lba blocks).mp read).1
      · intro coded
        exact ⟨_, _, (Command.parse_moving_iff moves _ _).mpr ⟨coded, rfl, rfl⟩⟩
    · intro lba blocks
      rw [Command.parse_moving_iff moves, Command.places_iff]

end ScriptDrive
