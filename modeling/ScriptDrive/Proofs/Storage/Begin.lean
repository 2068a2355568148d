import ScriptDrive.Proofs.Storage.Due

/-!
# The response to a command

`response` is all the host gets for a command, said without the transport: the bytes of the answer cut
into packets, and the status that closes it.  `opens_transfer` says that the transfer of a command, put in
place of whatever is in flight, makes exactly its own response due, and `begin_eq` that nothing but a poll
follows.
-/

set_option autoImplicit false

namespace ScriptDrive

open Scsi (Command DataPhase)

variable {π : Type} {capacity : Nat}

def Scsi.Command.named : Command → Nat
  | .read10 _ blocks | .write10 _ blocks => sectorSize * blocks.toNat
  | _ => 0

namespace CommandWrapper

def command (wrapper : CommandWrapper) : Command :=
  Command.parse wrapper.block

def written (wrapper : CommandWrapper) : Nat :=
  match wrapper.command with
  | .write10 _ _ => min wrapper.command.named wrapper.requested.toNat
  | _ => 0

def closing (wrapper : CommandWrapper) (moved : Nat) : StatusWrapper where
  tag := wrapper.tag
  residue := UInt32.ofNat (wrapper.requested.toNat - moved)
  outcome := if wrapper.requested.toNat < wrapper.command.named then .phaseError else .passed

end CommandWrapper

namespace Storage

/-- The bytes the host is sent for a command, which never are more than it asked for. -/
def answer (storage : Storage capacity) (wrapper : CommandWrapper) : List UInt8 :=
  match wrapper.command with
  | .read10 lba blocks =>
    (Volume.images storage.identity storage.file.rehome storage.ram lba.toNat blocks.toNat).take
      wrapper.requested.toNat
  | command => (command.response storage.identity).take wrapper.requested.toNat

def response (storage : Storage capacity) (wrapper : CommandWrapper) : List (List UInt8) :=
  chunks (storage.answer wrapper) ++
    [(wrapper.closing ((storage.answer wrapper).length + wrapper.written)).encode]

theorem length_le_of_mem_response {storage : Storage capacity} {wrapper : CommandWrapper}
    {packet : List UInt8} (present : packet ∈ storage.response wrapper) :
    packet.length ≤ maxPacket := by
  rcases List.mem_append.mp present with data | status
  · exact length_le_of_mem_chunks data
  · rw [List.mem_singleton.mp status, StatusWrapper.length_encode]
    decide

theorem answer_of_reading (storage : Storage capacity) {wrapper : CommandWrapper} {lba : UInt32}
    {blocks : UInt16} (commandIs : wrapper.command = .read10 lba blocks) :
    storage.answer wrapper = Volume.stretch storage.identity storage.file.rehome storage.ram
      (sectorSize * lba.toNat) (min (sectorSize * blocks.toNat) wrapper.requested.toNat) := by
  simp only [answer, commandIs]
  rw [← Volume.images_take _ _ _ (Nat.min_le_left ..), List.take_eq_take_iff, Volume.length_images]
  omega

/-- A host that asks for all blocks of a read gets their sectors as a whole. -/
theorem answer_of_blocks (storage : Storage capacity) {wrapper : CommandWrapper} {lba : UInt32}
    {blocks : UInt16} (commandIs : wrapper.command = .read10 lba blocks)
    (asked : sectorSize * blocks.toNat ≤ wrapper.requested.toNat) :
    storage.answer wrapper = Volume.images storage.identity storage.file.rehome storage.ram
      lba.toNat blocks.toNat := by
  simp only [answer, commandIs]
  apply List.take_of_length_le
  rw [Volume.length_images]
  exact asked

end Storage

def CommandWrapper.blockTransfer (wrapper : CommandWrapper) (lba : UInt32) (blocks : UInt16)
    (direction : Phase) : Transfer :=
  let moving := min (sectorSize * blocks.toNat) wrapper.requested.toNat
  { phase := if moving = 0 then .statusPending else direction
    command := some wrapper.command
    offset := sectorSize * lba.toNat
    remaining := moving
    status := wrapper.closing moving }

theorem Transfer.startBlocks_eq (wrapper : CommandWrapper) (lba : UInt32) (blocks : UInt16)
    (direction : Phase) (named : wrapper.command.named = sectorSize * blocks.toNat) :
    ∃ notes, startBlocks wrapper wrapper.command lba blocks direction =
      .ok (wrapper.blockTransfer lba blocks direction, notes) := by
  have lbaSmall := lba.toNat_lt
  have blocksSmall := blocks.toNat_lt
  have wanted : Word.mul 32 blocks.toNat sectorSize = .ok (sectorSize * blocks.toNat) := by
    rw [Word.mul_of_lt (by simp only [sectorSize]; omega), Nat.mul_comm]
  have offset : Word.mul 64 lba.toNat sectorSize = .ok (sectorSize * lba.toNat) := by
    rw [Word.mul_of_lt (by simp only [sectorSize]; omega), Nat.mul_comm]
  have residue := Word.sub_of_le (Nat.min_le_right (sectorSize * blocks.toNat)
    wrapper.requested.toNat)
  refine ⟨if wrapper.requested.toNat < sectorSize * blocks.toNat then
    [.hostAllowsLess wrapper.command (sectorSize * blocks.toNat) wrapper.requested.toNat] else [], ?_⟩
  simp only [startBlocks, wanted, offset, residue, bind, Except.bind, pure, Except.pure,
    decide_eq_true_eq, CommandWrapper.blockTransfer, CommandWrapper.closing, named]

def CommandWrapper.transfer (wrapper : CommandWrapper) : Transfer :=
  match wrapper.command with
  | .read10 lba blocks => wrapper.blockTransfer lba blocks .dataIn
  | .write10 lba blocks => wrapper.blockTransfer lba blocks .dataOut
  | command =>
    match command.dataPhase with
    | .fixed _ =>
      { phase := .dataIn
        command := some wrapper.command
        remaining := wrapper.requested.toNat
        status := StatusWrapper.forCommand wrapper }
    | _ =>
      { phase := .statusPending
        command := some wrapper.command
        status := { StatusWrapper.forCommand wrapper with residue := wrapper.requested } }

section Kinds

variable {wrapper : CommandWrapper}

theorem CommandWrapper.transfer_of_reading {lba : UInt32} {blocks : UInt16}
    (commandIs : wrapper.command = .read10 lba blocks) :
    wrapper.transfer = wrapper.blockTransfer lba blocks .dataIn := by
  simp only [transfer, commandIs]

theorem CommandWrapper.transfer_of_writing {lba : UInt32} {blocks : UInt16}
    (commandIs : wrapper.command = .write10 lba blocks) :
    wrapper.transfer = wrapper.blockTransfer lba blocks .dataOut := by
  simp only [transfer, commandIs]

theorem CommandWrapper.transfer_of_fixed {length : Nat}
    (fixed : wrapper.command.dataPhase = .fixed length) :
    wrapper.transfer =
      { phase := .dataIn
        command := some wrapper.command
        remaining := wrapper.requested.toNat
        status := StatusWrapper.forCommand wrapper } := by
  unfold transfer
  cases commandIs : wrapper.command <;> rw [commandIs] at fixed <;> cases fixed <;> rfl

theorem CommandWrapper.transfer_of_nothing (nothing : wrapper.command.dataPhase = .none) :
    wrapper.transfer =
      { phase := .statusPending
        command := some wrapper.command
        status := { StatusWrapper.forCommand wrapper with residue := wrapper.requested } } := by
  unfold transfer
  cases commandIs : wrapper.command <;> rw [commandIs] at nothing <;> cases nothing <;> rfl

end Kinds

theorem Transfer.start_eq (wrapper : CommandWrapper) :
    ∃ notes, start wrapper wrapper.command = .ok (wrapper.transfer, notes) := by
  cases commandIs : wrapper.command with
  | read10 lba blocks =>
    rw [CommandWrapper.transfer_of_reading commandIs]
    obtain ⟨notes, started⟩ := startBlocks_eq wrapper lba blocks .dataIn (by rw [commandIs]; rfl)
    rw [commandIs] at started
    exact ⟨notes, started⟩
  | write10 lba blocks =>
    rw [CommandWrapper.transfer_of_writing commandIs]
    obtain ⟨notes, started⟩ := startBlocks_eq wrapper lba blocks .dataOut (by rw [commandIs]; rfl)
    rw [commandIs] at started
    exact ⟨notes, started⟩
  | testUnitReady | preventAllowMediumRemoval | unknown opcode =>
    rw [CommandWrapper.transfer_of_nothing (by rw [commandIs]; rfl), commandIs]
    exact ⟨[], rfl⟩
  | requestSense | inquiry | readCapacity10 | modeSense6 | modeSense10 =>
    rw [CommandWrapper.transfer_of_fixed (by rw [commandIs]; rfl), commandIs]
    exact ⟨[], rfl⟩

namespace Storage

/-- The transfer of a command begins in a sound state in which its response is due. -/
structure Opens (storage : Storage capacity) (wrapper : CommandWrapper) (transfer : Transfer) :
    Prop where
  sound : transfer.Sound
  unqueued : transfer.statusQueued = false
  busy : transfer.phase ≠ .idle
  due : due { storage with transfer := transfer } = storage.response wrapper

theorem opens_closing (storage : Storage capacity) {wrapper : CommandWrapper} {transfer : Transfer}
    {command : Command} (phaseIs : transfer.phase = .statusPending)
    (commandIs : transfer.command = some command) (finished : transfer.remaining = 0)
    (unqueued : transfer.statusQueued = false)
    (response : storage.response wrapper = [transfer.status.encode]) :
    storage.Opens wrapper transfer := by
  have busy : transfer.phase ≠ .idle := by
    rw [phaseIs]
    decide
  exact ⟨.closing phaseIs commandIs finished, unqueued, busy,
    (due_of_finished unqueued busy finished).trans response.symm⟩

theorem opens_reading (storage : Storage capacity) {wrapper : CommandWrapper} {lba : UInt32}
    {blocks : UInt16} (commandIs : wrapper.command = .read10 lba blocks) :
    storage.Opens wrapper (wrapper.blockTransfer lba blocks .dataIn) := by
  have answerIs := storage.answer_of_reading commandIs
  have size : (storage.answer wrapper).length =
      min (sectorSize * blocks.toNat) wrapper.requested.toNat := by
    rw [answerIs, Volume.length_stretch]
  have nothingWritten : wrapper.written = 0 := by
    simp only [CommandWrapper.written, commandIs]
  have responseIs : storage.response wrapper = chunks (storage.answer wrapper) ++
      [(wrapper.blockTransfer lba blocks .dataIn).status.encode] := by
    rw [response, nothingWritten, size]
    rfl
  by_cases nothing : min (sectorSize * blocks.toNat) wrapper.requested.toNat = 0
  · have noAnswer : storage.answer wrapper = [] := List.length_eq_zero_iff.mp (size.trans nothing)
    rw [noAnswer, chunks_nil, List.nil_append] at responseIs
    exact storage.opens_closing (if_pos nothing) rfl nothing rfl responseIs
  · have phaseIs : (wrapper.blockTransfer lba blocks .dataIn).phase = .dataIn := if_neg nothing
    have carried : (wrapper.blockTransfer lba blocks .dataIn).command = some (.read10 lba blocks) :=
      congrArg some commandIs
    refine ⟨.reading phaseIs carried rfl ?_ (.inr ?_), rfl, ?_, ?_⟩
    · have part := Nat.min_le_left (sectorSize * blocks.toNat) wrapper.requested.toNat
      simp only [CommandWrapper.blockTransfer, Nat.mul_add]
      omega
    · simp only [CommandWrapper.blockTransfer, sectorSize, maxPacket]
      omega
    · rw [phaseIs]
      decide
    · rw [due_of_reading phaseIs carried, responseIs, answerIs]
      rfl

theorem opens_writing (storage : Storage capacity) {wrapper : CommandWrapper} {lba : UInt32}
    {blocks : UInt16} (commandIs : wrapper.command = .write10 lba blocks) :
    storage.Opens wrapper (wrapper.blockTransfer lba blocks .dataOut) := by
  have noAnswer : storage.answer wrapper = [] := by
    simp only [answer, commandIs, Command.response, List.take_nil]
  have written : wrapper.written = min (sectorSize * blocks.toNat) wrapper.requested.toNat := by
    simp only [CommandWrapper.written, commandIs, Command.named]
  have responseIs : storage.response wrapper =
      [(wrapper.blockTransfer lba blocks .dataOut).status.encode] := by
    rw [response, noAnswer, written, chunks_nil, List.length_nil, Nat.zero_add]
    rfl
  by_cases nothing : min (sectorSize * blocks.toNat) wrapper.requested.toNat = 0
  · exact storage.opens_closing (if_pos nothing) rfl nothing rfl responseIs
  · have phaseIs : (wrapper.blockTransfer lba blocks .dataOut).phase = .dataOut := if_neg nothing
    have carried : (wrapper.blockTransfer lba blocks .dataOut).command =
        some (.write10 lba blocks) := congrArg some commandIs
    refine ⟨.writing phaseIs carried rfl ?_ (Nat.pos_of_ne_zero nothing), rfl, ?_, ?_⟩
    · have part := Nat.min_le_left (sectorSize * blocks.toNat) wrapper.requested.toNat
      simp only [CommandWrapper.blockTransfer, Nat.mul_add]
      omega
    · rw [phaseIs]
      decide
    · rw [responseIs]
      simp only [due, phaseIs]

theorem opens_fixed (storage : Storage capacity) {wrapper : CommandWrapper} {length : Nat}
    (fixed : wrapper.command.dataPhase = .fixed length) :
    storage.Opens wrapper
      { phase := .dataIn
        command := some wrapper.command
        remaining := wrapper.requested.toNat
        status := StatusWrapper.forCommand wrapper } := by
  obtain ⟨answerIs, nothingWritten, namesNothing, long⟩ :
      storage.answer wrapper =
        (wrapper.command.response storage.identity).take wrapper.requested.toNat ∧
      wrapper.written = 0 ∧ wrapper.command.named = 0 ∧ 0 < length := by
    unfold answer CommandWrapper.written
    cases commandIs : wrapper.command <;> rw [commandIs] at fixed <;> cases fixed <;>
      exact ⟨rfl, rfl, rfl, by decide⟩
  have closingIs (moved : Nat) : wrapper.closing moved =
      { StatusWrapper.forCommand wrapper with
        residue := UInt32.ofNat (wrapper.requested.toNat - moved) } := by
    simp only [CommandWrapper.closing, namesNothing, Nat.not_lt_zero, if_false,
      StatusWrapper.forCommand]
  have full := Command.length_response storage.identity fixed
  have size : (storage.answer wrapper).length = min wrapper.requested.toNat length := by
    rw [answerIs, List.length_take, full]
  have short := wrapper.command.length_response_le storage.identity
  refine ⟨.answering rfl rfl fixed rfl, rfl, Phase.noConfusion, ?_⟩
  rw [response, nothingWritten, closingIs, Nat.add_zero]
  by_cases nothing : wrapper.requested.toNat = 0
  · have noAnswer : storage.answer wrapper = [] :=
      List.length_eq_zero_iff.mp (by rw [size, nothing, Nat.zero_min])
    rw [due_of_finished rfl Phase.noConfusion nothing, noAnswer, nothing, chunks_nil]
    rfl
  · have nonempty : storage.answer wrapper ≠ [] :=
      List.ne_nil_of_length_pos (by rw [size]; omega)
    have onePacket : (storage.answer wrapper).length ≤ maxPacket := by
      rw [size, ← full]
      simp only [maxPacket]
      omega
    rw [due_of_answering rfl rfl fixed nothing, chunks_of_le nonempty onePacket,
      passed_of_answering rfl fixed nothing, nextPacket_of_answering rfl fixed nothing, ← answerIs]
    rfl

theorem opens_nothing (storage : Storage capacity) {wrapper : CommandWrapper}
    (none : wrapper.command.dataPhase = .none) :
    storage.Opens wrapper
      { phase := .statusPending
        command := some wrapper.command
        status := { StatusWrapper.forCommand wrapper with residue := wrapper.requested } } := by
  obtain ⟨noAnswer, nothingWritten, namesNothing⟩ :
      storage.answer wrapper = [] ∧ wrapper.written = 0 ∧ wrapper.command.named = 0 := by
    unfold answer CommandWrapper.written
    cases commandIs : wrapper.command <;> rw [commandIs] at none <;> cases none <;>
      exact ⟨List.take_nil, rfl, rfl⟩
  refine storage.opens_closing rfl rfl rfl rfl ?_
  rw [response, noAnswer, nothingWritten, chunks_nil, List.nil_append, List.length_nil]
  simp only [CommandWrapper.closing, namesNothing, Nat.not_lt_zero, if_false, Nat.add_zero,
    Nat.sub_zero, UInt32.ofNat_toNat, StatusWrapper.forCommand]

theorem opens_transfer (storage : Storage capacity) (wrapper : CommandWrapper) :
    storage.Opens wrapper wrapper.transfer := by
  cases commandIs : wrapper.command with
  | read10 lba blocks =>
    rw [CommandWrapper.transfer_of_reading commandIs]
    exact storage.opens_reading commandIs
  | write10 lba blocks =>
    rw [CommandWrapper.transfer_of_writing commandIs]
    exact storage.opens_writing commandIs
  | testUnitReady | preventAllowMediumRemoval | unknown opcode =>
    have nothing : wrapper.command.dataPhase = .none := by rw [commandIs]; rfl
    rw [CommandWrapper.transfer_of_nothing nothing]
    exact storage.opens_nothing nothing
  | requestSense | inquiry | readCapacity10 | modeSense6 | modeSense10 =>
    obtain ⟨length, fixed⟩ : ∃ length, wrapper.command.dataPhase = .fixed length :=
      ⟨_, by rw [commandIs]; rfl⟩
    rw [CommandWrapper.transfer_of_fixed fixed]
    exact storage.opens_fixed fixed

/-- A command puts its own transfer in place of what was in flight, and polls. -/
theorem begin_eq [Link π] (storage : Storage capacity) (wrapper : CommandWrapper) :
    ∃ notes, (storage.begin wrapper : Exchange π _) =
      Exchange.logAll notes >>= fun _ => poll { storage with transfer := wrapper.transfer } := by
  obtain ⟨notes, started⟩ := Transfer.start_eq wrapper
  have parsed : Command.parse wrapper.block = wrapper.command := rfl
  have unqueued := (storage.opens_transfer wrapper).unqueued
  unfold begin poll
  simp only [parsed, started, unqueued, Exchange.lift_ok, pure_bind, Exchange.log_then,
    Bool.false_eq_true, if_false]
  split
  · rw [Exchange.logAll_logAll, Exchange.logAll_logAll]
    exact ⟨_, rfl⟩
  · rw [Exchange.logAll_logAll]
    exact ⟨_, rfl⟩

end Storage

end ScriptDrive
