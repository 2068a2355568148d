import ScriptDrive.Console.Printer
import ScriptDrive.Console.Queue
import ScriptDrive.Storage

/-!
# The drive

A serial console and a mass storage unit in one device.  Packets go to the half they are meant for by
the number of their endpoint, and whoever runs the device can look at the file, ask whether the host
moved or resized it, and print on the console.
-/

set_option autoImplicit false

namespace ScriptDrive

variable {π : Type} {capacity : Nat}

def consoleCapacity : Nat := 64

structure Drive (capacity : Nat) where
  storage : Storage capacity
  queue : ConsoleQueue consoleCapacity
  deriving DecidableEq

inductive ClassRequest where
  | getMaxLun
  | bulkOnlyReset
  deriving DecidableEq

def ClassRequest.ofCode? : Nat → Option ClassRequest
  | 0xFE => some .getMaxLun
  | 0xFF => some .bulkOnlyReset
  | _ => none

inductive ClassAnswer where
  | data (byte : UInt8)
  | acknowledge
  | unsupported
  deriving DecidableEq

namespace Drive

def powerUp (identity : Identity) (fits : capacity ≤ clusterSize) :
    Except Fault (Drive capacity) := do
  let storage ← Storage.powerUp identity fits
  return ⟨storage, .empty⟩

def identity (drive : Drive capacity) : Identity :=
  drive.storage.identity

def phase (drive : Drive capacity) : Phase :=
  drive.storage.transfer.phase

def file (drive : Drive capacity) : TrackedFile :=
  drive.storage.file

def onPacket [Link π] (drive : Drive capacity) (endpoint : UInt8) (packet : List UInt8) :
    Exchange π (Drive capacity) := do
  if endpoint = drive.identity.endpoints.diskOut then
    let storage ← drive.storage.onPacket packet
    return { drive with storage := storage }
  else if endpoint = drive.identity.endpoints.consoleOut then
    let (queue, notes) ← drive.queue.accept packet
    Exchange.logAll notes
    return { drive with queue := queue }
  else
    Exchange.log (.unclaimedPacket packet.length endpoint)
    return drive

theorem onPacket_disk [Link π] (drive : Drive capacity) (packet : List UInt8) :
    (drive.onPacket drive.identity.endpoints.diskOut packet : Exchange π _) =
      drive.storage.onPacket packet >>= fun storage => pure { drive with storage := storage } :=
  if_pos rfl

theorem onPacket_console [Link π] (drive : Drive capacity) {endpoint : UInt8} (packet : List UInt8)
    (apart : endpoint ≠ drive.identity.endpoints.diskOut)
    (console : endpoint = drive.identity.endpoints.consoleOut) :
    (drive.onPacket endpoint packet : Exchange π _) = do
      Exchange.logAll (drive.queue.pushNotes packet)
      return { drive with queue := drive.queue.push packet } := by
  have narrow : consoleCapacity + consoleCapacity < 1 <<< 64 := by decide
  rw [onPacket, if_neg apart, if_pos console, drive.queue.accept_eq packet narrow]
  exact pure_bind (drive.queue.push packet, drive.queue.pushNotes packet) _

theorem onPacket_unclaimed [Link π] (drive : Drive capacity) {endpoint : UInt8} (packet : List UInt8)
    (noDisk : endpoint ≠ drive.identity.endpoints.diskOut)
    (noConsole : endpoint ≠ drive.identity.endpoints.consoleOut) :
    (drive.onPacket endpoint packet : Exchange π _) = do
      Exchange.log (.unclaimedPacket packet.length endpoint)
      return drive := by
  rw [onPacket, if_neg noDisk, if_neg noConsole]

def onCollected [Link π] (drive : Drive capacity) (endpoint : UInt8) :
    Exchange π (Drive capacity) := do
  if endpoint = drive.identity.endpoints.diskIn then
    let storage ← drive.storage.onCollected
    return { drive with storage := storage }
  else
    return drive

def poll [Link π] (drive : Drive capacity) : Exchange π (Drive capacity × List (List UInt8)) := do
  let storage ← drive.storage.poll
  let (input, queue) := drive.queue.drain
  return (⟨storage, queue⟩, input)

def reset (drive : Drive capacity) : Exchange π (Drive capacity) := do
  Exchange.logAll drive.storage.resetNotes
  return { drive with storage := drive.storage.reset }

def classRequest (drive : Drive capacity) (request : UInt8) :
    Exchange π (Drive capacity × ClassAnswer) := do
  match ClassRequest.ofCode? request.toNat with
  | some .getMaxLun => return (drive, .data 0)
  | some .bulkOnlyReset =>
    Exchange.log .bulkOnlyReset
    let fresh ← drive.reset
    return (fresh, .acknowledge)
  | none => return (drive, .unsupported)

def script (drive : Drive capacity) : Except Fault (List UInt8) :=
  slice drive.storage.ram.bytes 0 (min drive.file.size.toNat capacity)

def openScript (drive : Drive capacity) : Except Fault ScriptReader := do
  let contents ← drive.script
  return { contents := contents }

/-- The drive with the mark of a moved or resized file taken away, and whether it was there. -/
def takeChanged (drive : Drive capacity) : Drive capacity × Bool :=
  let clean := { drive.storage with file := drive.file.markClean }
  ({ drive with storage := clean }, drive.file.dirty)

def print [Link π] (drive : Drive capacity) (text : String) : Exchange π Unit :=
  ScriptDrive.print drive.identity.endpoints.consoleIn text

theorem script_eq (drive : Drive capacity) :
    drive.script = .ok (drive.storage.ram.bytes.take (min drive.file.size.toNat capacity)) := by
  have lengths := drive.storage.ram.length_bytes
  exact slice_front (by omega)

end Drive

end ScriptDrive
