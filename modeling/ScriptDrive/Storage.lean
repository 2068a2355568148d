import ScriptDrive.Link.Polling
import ScriptDrive.Scsi.Response
import ScriptDrive.Transfer
import ScriptDrive.Volume.HostWrite
import ScriptDrive.Volume.Window

/-!
# The mass storage transport

One command is a packet from the host, data in one direction, and a status back:

    idle ── command ──▶ data in ── last piece collected ──▶ status ── collected ──▶ idle
    idle ── command ──▶ data out ── last byte received ──▶ status
    idle ── command ──────────────────────────────────────▶ status

Every step answers one event, a packet from the host or a packet it collected, or a call from the main
loop, and none of them waits.  A step that finds its endpoint busy leaves everything as it is, for the
next event to try again.
-/

set_option autoImplicit false

namespace ScriptDrive

open Scsi (Command DataPhase)

variable {π : Type} {capacity : Nat}

structure Storage (capacity : Nat) where
  identity : Identity
  transfer : Transfer
  file : TrackedFile
  ram : RamDisk capacity
  deriving DecidableEq

namespace Storage

def powerUp (identity : Identity) (fits : capacity ≤ clusterSize) :
    Except Fault (Storage capacity) := do
  let (ram, kept) ← (RamDisk.blank fits).load identity.contents
  return {
    identity := identity
    transfer := .idle
    file := { size := UInt32.ofNat kept }
    ram := ram }

def offerPacket [Link π] (storage : Storage capacity) (bytes : List UInt8) :
    Exchange π (Option Busy) := do
  let packet ← Packet.ofBytes bytes
  sendPolling storage.identity.endpoints.diskIn packet.bytes diskTries

/-- Hands the status to its endpoint, unless it is there already. -/
def sendStatus [Link π] (storage : Storage capacity) : Exchange π (Storage capacity) := do
  let transfer := { storage.transfer with phase := .statusPending }
  if transfer.statusQueued then
    return { storage with transfer := transfer }
  match ← storage.offerPacket transfer.status.encode with
  | none => return { storage with transfer := { transfer with statusQueued := true } }
  | some busy =>
    Exchange.log (.statusDeferred busy)
    return { storage with transfer := transfer }

/-- The file as it will be shown once the next piece has been read.  Reading the first directory sector
puts the file back at the first cluster, the only one where its contents can be read. -/
def showFile (storage : Storage capacity) : Except Fault TrackedFile := do
  let (sector, within) := storage.transfer.place
  if within = 0 then
    let region ← Region.locate sector
    return if region = .rootDir 0 then storage.file.rehome else storage.file
  else
    return storage.file

def sendPiece [Link π] (storage : Storage capacity) : Exchange π (Storage capacity) := do
  let transfer := storage.transfer
  let (sector, within) := transfer.place
  let room ← Word.sub sectorSize within
  let length := min (min transfer.remaining maxPacket) room
  let file ← storage.showFile
  let buffer ← slice (List.replicate maxPacket 0) 0 length
  let piece ← Volume.readInto storage.identity file storage.ram sector within buffer
  match ← storage.offerPacket piece with
  | some _ => return { storage with file := file }
  | none =>
    let offset ← Word.add 64 transfer.offset length
    let remaining ← Word.sub transfer.remaining length
    return {
      storage with
      file := file
      transfer := { transfer with offset := offset, remaining := remaining } }

/-- Sends the one answer of a command that has a fixed one.  What the host asked for beyond it is
left over. -/
def sendFixed [Link π] (storage : Storage capacity) (command : Command) :
    Exchange π (Storage capacity) := do
  let transfer := storage.transfer
  let buffer ← command.respondInto storage.identity (List.replicate maxPacket 0)
  let length := min (command.response storage.identity).length transfer.remaining
  let answer ← slice buffer 0 length
  match ← storage.offerPacket answer with
  | some _ => return storage
  | none =>
    let residue ← Word.sub transfer.remaining length
    return {
      storage with
      transfer := {
        transfer with
        remaining := 0
        status := { transfer.status with residue := UInt32.ofNat residue } } }

def advance [Link π] (storage : Storage capacity) : Exchange π (Storage capacity) :=
  if storage.transfer.remaining = 0 then
    storage.sendStatus
  else
    match storage.transfer.command with
    | none => return storage
    | some command =>
      match command.dataPhase with
      | .stream => storage.sendPiece
      | .fixed _ => storage.sendFixed command
      | .none | .receive =>
        sendStatus { storage with transfer := { storage.transfer with remaining := 0 } }

def begin [Link π] (storage : Storage capacity) (wrapper : CommandWrapper) :
    Exchange π (Storage capacity) := do
  let command := Command.parse wrapper.block
  Exchange.log (.commandBegun command wrapper.tag wrapper.requested)
  if wrapper.lun ≠ 0 then
    Exchange.log (.otherUnit wrapper.lun)
  let (transfer, notes) ← Transfer.start wrapper command
  Exchange.logAll notes
  let started := { storage with transfer := transfer }
  match transfer.phase with
  | .dataIn => started.advance
  | .statusPending => started.sendStatus
  | .idle | .dataOut => return started

def takePiece (storage : Storage capacity) (piece : List UInt8) :
    Exchange π (Storage capacity) := do
  let transfer := storage.transfer
  let (sector, within) := transfer.place
  let written ← Volume.write storage.identity.fileName storage.file storage.ram sector within piece
  Exchange.logAll written.notes
  Exchange.log (.pieceWritten sector within written.outcome)
  let offset ← Word.add 64 transfer.offset piece.length
  return {
    storage with
    file := written.file
    ram := written.ram
    transfer := { transfer with offset := offset } }

/-- Takes written data, a piece for each sector it reaches. -/
def takeData (storage : Storage capacity) (data : List UInt8) : Exchange π (Storage capacity) :=
  if none : data = [] then
    return storage
  else
    match cut : storage.transfer.cutPiece data with
    | .error fault => Exchange.halt fault
    | .ok (piece, rest) => do
      have : rest.length < data.length := Transfer.length_lt_of_cutPiece none cut
      let next ← storage.takePiece piece
      next.takeData rest
termination_by data.length

@[simp] theorem takeData_nil (storage : Storage capacity) :
    (storage.takeData [] : Exchange π _) = pure storage := by
  rw [takeData, dif_pos rfl]

theorem takeData_of_ne_nil (storage : Storage capacity) {data : List UInt8} (some : data ≠ []) :
    (storage.takeData data : Exchange π _) =
      storage.takePiece (data.take (sectorSize - storage.transfer.place.2)) >>= fun next =>
        next.takeData (data.drop (sectorSize - storage.transfer.place.2)) := by
  have cut := storage.transfer.cutPiece_eq data
  rw [takeData, dif_neg some]
  split
  · rename_i failed
    rw [cut] at failed
    cases failed
  · rename_i same
    rw [cut] at same
    cases same
    rfl

/-- Takes one packet of written data.  What goes beyond the bytes still to move is ignored. -/
def receive [Link π] (storage : Storage capacity) (packet : List UInt8) :
    Exchange π (Storage capacity) := do
  let length := min packet.length storage.transfer.remaining
  let data ← slice packet 0 length
  let taken ← storage.takeData data
  let remaining ← Word.sub taken.transfer.remaining length
  let counted := { taken with transfer := { taken.transfer with remaining := remaining } }
  if remaining = 0 then
    counted.sendStatus
  else
    return counted

/-- Takes a packet from the host.  A packet that is a command starts it, in whatever phase it comes, and
drops the command before.  Any other packet is data while data is due, and is thrown away otherwise. -/
def onPacket [Link π] (storage : Storage capacity) (packet : List UInt8) :
    Exchange π (Storage capacity) := do
  let phase := storage.transfer.phase
  Exchange.log (.packetArrived packet.length phase)
  match phase, CommandWrapper.decode packet with
  | .idle, .ok wrapper => storage.begin wrapper
  | .idle, .error reason =>
    Exchange.log (.packetDropped reason)
    return storage
  | .dataOut, .ok wrapper =>
    Exchange.log (.writeAbandoned storage.transfer.command)
    storage.begin wrapper
  | .dataOut, .error _ => storage.receive packet
  | .dataIn, .ok wrapper | .statusPending, .ok wrapper =>
    Exchange.log (.commandAbandoned phase)
    storage.begin wrapper
  | .dataIn, .error _ | .statusPending, .error _ =>
    Exchange.log (.strayPacket phase)
    return storage

def onCollected [Link π] (storage : Storage capacity) : Exchange π (Storage capacity) :=
  match storage.transfer.phase with
  | .dataIn => storage.advance
  | .statusPending =>
    if storage.transfer.statusQueued then do
      Exchange.log (.statusCollected storage.transfer.status.tag)
      return { storage with transfer := .idle }
    else
      storage.sendStatus
  | .idle | .dataOut => return storage

def poll [Link π] (storage : Storage capacity) : Exchange π (Storage capacity) :=
  match storage.transfer.phase with
  | .dataIn => storage.advance
  | .statusPending =>
    if storage.transfer.statusQueued then return storage else storage.sendStatus
  | .idle | .dataOut => return storage

def reset (storage : Storage capacity) : Storage capacity :=
  { storage with transfer := .idle }

def resetNotes (storage : Storage capacity) : List Note :=
  if storage.transfer.phase = .idle then [] else [.transferReset storage.transfer.phase]

end Storage

end ScriptDrive
