import ScriptDrive.Geometry
import ScriptDrive.Note
import ScriptDrive.Transport.StatusWrapper

/-!
# The command in flight

What the transport remembers of a command between two packets, and what it starts from: how many bytes
will move, from where on the volume, and what the status will say about the difference to what the host
asked for.  `cutPiece_eq` says where written data is cut for the sectors it goes to.
-/

set_option autoImplicit false

namespace ScriptDrive

open Scsi (Command DataPhase)

structure Transfer where
  phase : Phase := .idle
  command : Option Command := none
  /-- The next byte of the volume, for a command that reads or writes blocks. -/
  offset : Nat := 0
  remaining : Nat := 0
  status : StatusWrapper := {}
  /-- The status has been handed to its endpoint. -/
  statusQueued : Bool := false
  deriving DecidableEq

namespace Transfer

def idle : Transfer := {}

/-- The sector of the next byte and its place there.  Sectors with numbers too wide for a word all look
alike, since none of them is on the volume. -/
def place (transfer : Transfer) : Nat × Nat :=
  (min (transfer.offset / sectorSize) (1 <<< 32 - 1), transfer.offset % sectorSize)

/-- The start of a command that moves blocks: as many bytes as both the command block and the host
allow. -/
def startBlocks (wrapper : CommandWrapper) (command : Command) (lba : UInt32) (blocks : UInt16)
    (direction : Phase) : Except Fault (Transfer × List Note) := do
  let requested := wrapper.requested.toNat
  let wanted ← Word.mul 32 blocks.toNat sectorSize
  let offset ← Word.mul 64 lba.toNat sectorSize
  let moving := min wanted requested
  let residue ← Word.sub requested moving
  let short : Bool := requested < wanted
  let status : StatusWrapper :=
    { tag := wrapper.tag
      residue := UInt32.ofNat residue
      outcome := if short then .phaseError else .passed }
  let transfer : Transfer :=
    { phase := if moving = 0 then .statusPending else direction
      command := some command
      offset := offset
      remaining := moving
      status := status }
  return (transfer, if short then [.hostAllowsLess command wanted requested] else [])

def start (wrapper : CommandWrapper) (command : Command) : Except Fault (Transfer × List Note) :=
  match command with
  | .read10 lba blocks => startBlocks wrapper command lba blocks .dataIn
  | .write10 lba blocks => startBlocks wrapper command lba blocks .dataOut
  | _ =>
    let status := StatusWrapper.forCommand wrapper
    match command.dataPhase with
    | .fixed _ =>
      .ok ({ phase := .dataIn
             command := some command
             remaining := wrapper.requested.toNat
             status := status }, [])
    | _ =>
      -- Nothing moves, whatever the host meant to move.
      .ok ({ phase := .statusPending
             command := some command
             status := { status with residue := wrapper.requested } }, [])

/-- The place of a byte has a sector that fits a word, and lies inside the sector. -/
theorem place_bounds (transfer : Transfer) :
    transfer.place.1 < 1 <<< 32 ∧ transfer.place.2 < sectorSize := by
  constructor
  · simp only [place]
    omega
  · exact Nat.mod_lt _ (by decide)

/-- Cuts written data where the sector of the next byte ends. -/
def cutPiece (transfer : Transfer) (data : List UInt8) :
    Except Fault (List UInt8 × List UInt8) := do
  let room ← Word.sub sectorSize transfer.place.2
  let length := min data.length room
  let piece ← slice data 0 length
  let rest ← slice data length data.length
  return (piece, rest)

theorem cutPiece_eq (transfer : Transfer) (data : List UInt8) :
    transfer.cutPiece data =
      .ok (data.take (sectorSize - transfer.place.2), data.drop (sectorSize - transfer.place.2)) := by
  have room : Word.sub sectorSize transfer.place.2 = .ok (sectorSize - transfer.place.2) :=
    Word.sub_of_le (Nat.le_of_lt transfer.place_bounds.2)
  generalize sectorSize - transfer.place.2 = count at room ⊢
  have front := slice_front (Nat.min_le_left data.length count)
  have back := slice_of_le (Nat.min_le_left data.length count) (Nat.le_refl data.length)
  have sameFront : data.take (min data.length count) = data.take count := by
    rw [List.take_eq_take_iff]
    omega
  have sameBack : (data.drop (min data.length count)).take (data.length - min data.length count) =
      data.drop count := by
    rw [List.take_of_length_le (Nat.le_of_eq List.length_drop)]
    by_cases short : data.length ≤ count
    · rw [Nat.min_eq_left short, List.drop_length, List.drop_of_length_le short]
    · rw [Nat.min_eq_right (Nat.le_of_not_le short)]
  rw [sameFront] at front
  rw [sameBack] at back
  simp only [cutPiece, room, front, back, bind, Except.bind, pure, Except.pure]

/-- A sector has room for one byte at least, so every cut leaves less. -/
theorem length_lt_of_cutPiece {transfer : Transfer} {data piece rest : List UInt8}
    (some : data ≠ []) (cut : transfer.cutPiece data = .ok (piece, rest)) :
    rest.length < data.length := by
  have positive := List.length_pos_iff.mpr some
  have inside := transfer.place_bounds.2
  rw [cutPiece_eq] at cut
  cases cut
  rw [List.length_drop]
  omega

end Transfer

end ScriptDrive
