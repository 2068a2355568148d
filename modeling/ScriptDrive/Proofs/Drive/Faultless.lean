import ScriptDrive.Proofs.Drive.Histories

/-!
# Calls never halt

On the way of a call every sum, difference and product of sizes is checked against its word, and every cut
against the buffer that is cut: where a command starts and moves on (`Transfer`, `Storage`), where a sector
is looked up and its cluster found (`Region.locate`, `clusterHolding`, `offsetWithinCluster`), where a
window is read or written (`Volume`, `RamDisk`), and where a packet goes into the queue of the console
(`ConsoleQueue.accept`).  `call_does` says that in a sound state no check fails.

`InRange` lists what is not seen there.  The numbers kept between two calls fit the words they are kept in,
which follows from the command that came last.  And while sums of sizes are checked against words of eight
bytes, those that a far sector or a long packet could make large fit words of four as well.
`run_never_halts` puts the two together for all runs.
-/

set_option autoImplicit false

namespace ScriptDrive

variable {π : Type} {capacity : Nat}

/-! ## Reading the script -/

def ScriptReader.reads (reader : ScriptReader) : Nat → Except Fault (List (List UInt8) × ScriptReader)
  | 0 => return ([], reader)
  | count + 1 => do
    let (part, next) ← reader.read
    let (parts, last) ← next.reads count
    return (part :: parts, last)

theorem ScriptReader.read_eq {reader : ScriptReader}
    (inside : reader.position ≤ reader.contents.length) :
    reader.read = .ok (reader.contents.drop reader.position,
      { reader with position := reader.contents.length }) := by
  have rest : (reader.contents.drop reader.position).take
      (reader.contents.length - reader.position) = reader.contents.drop reader.position :=
    List.take_of_length_le (Nat.le_of_eq List.length_drop)
  rw [read, slice_of_le inside (Nat.le_refl _), rest]
  rfl

theorem ScriptReader.reads_ok {reader : ScriptReader}
    (inside : reader.position ≤ reader.contents.length) (count : Nat) :
    ∃ parts last, reader.reads count = .ok (parts, last) := by
  induction count generalizing reader with
  | zero => exact ⟨[], reader, rfl⟩
  | succ count countInduction =>
    have atEnd : { reader with position := reader.contents.length }.position ≤
        reader.contents.length := Nat.le_refl _
    obtain ⟨parts, last, readRest⟩ := countInduction atEnd
    refine ⟨reader.contents.drop reader.position :: parts, last, ?_⟩
    simp only [reads, read_eq inside, readRest, bind, Except.bind, pure, Except.pure]

/-! ## Sizes that fit their words -/

/-- A command names at most as many bytes as four bytes count, and they lie where eight bytes still
tell their place. -/
theorem CommandWrapper.transfer_fits (wrapper : CommandWrapper) :
    wrapper.transfer.remaining < 1 <<< 32 ∧
      wrapper.transfer.offset + wrapper.transfer.remaining < 1 <<< 64 := by
  have requestedSmall := wrapper.requested.toNat_lt
  have moves {lba : UInt32} {blocks : UInt16} (direction : Phase) :
      (wrapper.blockTransfer lba blocks direction).remaining < 1 <<< 32 ∧
        (wrapper.blockTransfer lba blocks direction).offset +
          (wrapper.blockTransfer lba blocks direction).remaining < 1 <<< 64 := by
    have lbaSmall := lba.toNat_lt
    have part := Nat.min_le_right (sectorSize * blocks.toNat) wrapper.requested.toNat
    simp only [blockTransfer, sectorSize] at part ⊢
    omega
  cases commandIs : wrapper.command with
  | read10 lba blocks =>
    rw [transfer_of_reading commandIs]
    exact moves .dataIn
  | write10 lba blocks =>
    rw [transfer_of_writing commandIs]
    exact moves .dataOut
  | testUnitReady | preventAllowMediumRemoval | unknown opcode =>
    rw [transfer_of_nothing (by rw [commandIs]; rfl)]
    dsimp only
    omega
  | requestSense | inquiry | readCapacity10 | modeSense6 | modeSense10 =>
    rw [transfer_of_fixed (by rw [commandIs]; rfl)]
    dsimp only
    omega

namespace Drive

/-- The numbers kept between two calls fit their words, and sums of sizes fit four bytes. -/
structure InRange (drive : Drive capacity) : Prop where
  remaining : drive.storage.transfer.remaining < 1 <<< 32
  reach : drive.storage.transfer.offset + drive.storage.transfer.remaining < 1 <<< 64
  place : drive.storage.transfer.place.1 < 1 <<< 32 ∧ drive.storage.transfer.place.2 < sectorSize
  /-- Where any byte of the data region lies, in its cluster and in the memory. -/
  data : ∀ sector index within, Region.of sector = .data index → within < sectorSize →
    clusterOf index < 1 <<< 32 ∧ offsetInCluster index + within < clusterSize ∧
      sectorSize * index + within < 1 <<< 32
  queue : ∀ packet : List UInt8,
    drive.queue.bytes.length + min packet.length consoleCapacity < 1 <<< 32
  reads : ∃ reader, drive.openScript = .ok reader ∧
    ∀ count, ∃ parts last, reader.reads count = .ok (parts, last)

theorem Traces.fits {transfer : Transfer} {last : Option CommandWrapper} (sound : transfer.Sound)
    (traces : Traces transfer last) :
    transfer.remaining < 1 <<< 32 ∧ transfer.offset + transfer.remaining < 1 <<< 64 := by
  rcases traces with ended | ⟨wrapper, -, led⟩
  · rw [sound.eq_idle_of_command ended]
    exact ⟨by decide, by decide⟩
  · obtain ⟨small, near⟩ := wrapper.transfer_fits
    exact ⟨Nat.lt_of_le_of_lt led.remaining_le small, Nat.lt_of_le_of_lt led.reach_le near⟩

theorem Reachable.inRange {identity : Identity} {drive : Drive capacity}
    (reachable : Reachable identity drive) : drive.InRange := by
  obtain ⟨history, after⟩ := reachable.after
  obtain ⟨small, near⟩ := after.traces.fits reachable.sound.1.transfer
  refine ⟨small, near, drive.storage.transfer.place_bounds, ?_, ?_, ?_⟩
  · intro sector index within found inside
    obtain ⟨position, onVolume⟩ := Region.of_eq_data_iff.mp found
    have inCluster := offsetInCluster_add_sectorSize_le index
    have total : totalSectors = 16384 := rfl
    have width : sectorSize = 512 := rfl
    have eight : sectorsPerCluster = 8 := rfl
    have first : firstDataCluster.toNat = 2 := rfl
    rw [width] at inside inCluster ⊢
    rw [total] at onVolume
    refine ⟨?_, by omega, by omega⟩
    rw [clusterOf, eight, first]
    omega
  · intro packet
    have held := drive.queue.length_le
    have size : consoleCapacity = 64 := rfl
    omega
  · obtain ⟨bytes, scriptIs, -⟩ := length_script reachable.sound.1
    refine ⟨{ contents := bytes }, ?_, ScriptReader.reads_ok (Nat.zero_le _)⟩
    simp only [openScript, scriptIs, bind, Except.bind, pure, Except.pure]

theorem Reachable.run_never_halts [Link π] {identity : Identity} {drive : Drive capacity}
    (reachable : Reachable identity drive) (calls : List (Call π)) :
    ∃ last outcomes, drive.run calls = .ok (last, outcomes) ∧ Reachable identity last := by
  induction calls generalizing drive with
  | nil => exact ⟨drive, [], rfl, reachable⟩
  | cons made rest restInduction =>
    obtain ⟨next, outcome, called, -⟩ := call_does reachable.sound.1.transfer made
    obtain ⟨last, outcomes, ran, reachableLast⟩ := restInduction (reachable.call called)
    exact ⟨last, outcome :: outcomes, run_cons called ran, reachableLast⟩

/-- No check fails: not at power-up, and not in any call after any others, whatever the host sends and
whatever is refused.  What calls leave behind stays in range as well. -/
theorem never_halts (identity : Identity) (fits : capacity ≤ clusterSize) :
    (∃ drive : Drive capacity, powerUp identity fits = .ok drive) ∧
      ∀ drive : Drive capacity, Reachable identity drive →
        ∀ (π : Type) [Link π] (calls : List (Call π)),
          ∃ last outcomes, drive.run calls = .ok (last, outcomes) ∧ last.InRange := by
  constructor
  · obtain ⟨ram, started, -⟩ := powerUp_eq identity fits
    exact ⟨_, started⟩
  · intro drive reachable π _ calls
    obtain ⟨last, outcomes, ran, reachableLast⟩ := reachable.run_never_halts calls
    exact ⟨last, outcomes, ran, reachableLast.inRange⟩

/-- A read and a write at the far end of what a command can name, and packets longer than any. -/
theorem never_halts_extremes :
    let drive : Drive 16 := fresh {} (by decide)
    let widest := CommandWrapper.carrying 1 0xFFFFFFFF 0
    ∃ last outcomes,
      drive.run
        [⟨.packet 6 (widest (Scsi.runBlock 0x28 0xFFFFFFFF 0xFFFF)).encode, Willing.willing⟩,
          ⟨.collected 5, .willing⟩,
          ⟨.packet 6 (widest (Scsi.runBlock 0x2A 0xFFFFFFFF 0xFFFF)).encode, .willing⟩,
          ⟨.packet 6 (List.replicate 1000 0xFF), .willing⟩,
          ⟨.packet 2 (List.replicate 1000 0xFF), .willing⟩] = .ok (last, outcomes) ∧
      last.InRange := by
  intro drive widest
  have small : 16 ≤ clusterSize := by decide
  exact (never_halts {} small).2 drive (.powerUp (powerUp_fresh rfl small)) Willing _

end Drive

end ScriptDrive
