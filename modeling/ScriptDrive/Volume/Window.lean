import ScriptDrive.RamDisk
import ScriptDrive.Volume.BootSector
import ScriptDrive.Volume.DirEntry

/-!
# Windows on the volume

The volume is stored nowhere.  What a host finds in a part of a sector is put together when it looks:
the boot sector, the head of an allocation table and the directory entry of the file are laid over
zeros, and the data region shows the memory behind the file.
-/

set_option autoImplicit false

namespace ScriptDrive.Volume

variable {capacity : Nat}

/-- The head of an allocation table: the media byte, the reserved entry, and the end of the one
cluster of the file. -/
def tableHead : List UInt8 := [mediaDescriptor, 0xFF, 0xFF, 0xFF, 0xFF, 0xFF]

/-- Lays bytes that begin at `start` in their sector over a window that begins at `offset`, as far as
the two overlap. -/
def overlay (window : List UInt8) (offset : Nat) (source : List UInt8) (start : Nat) :
    Except Fault (List UInt8) := do
  let low := max offset start
  let windowEnd ← Word.add 64 offset window.length
  let sourceEnd ← Word.add 64 start source.length
  let high := min windowEnd sourceEnd
  if low < high then
    let covered ← slice source (← Word.sub low start) (← Word.sub high start)
    splice window (← Word.sub low offset) (← Word.sub high offset) covered
  else
    return window

def readInto (identity : Identity) (file : TrackedFile) (ram : RamDisk capacity)
    (sector offset : Nat) (buffer : List UInt8) : Except Fault (List UInt8) := do
  let stop ← Word.add 64 offset buffer.length
  if sectorSize < stop then
    throw .windowTooWide
  let zeros := cleared buffer
  match ← Region.locate sector with
  | .boot =>
    let opened ← overlay zeros offset (BootSector.parameters identity) 0
    overlay opened offset BootSector.closing BootSector.closingOffset
  | .table _ 0 => overlay zeros offset tableHead 0
  | .rootDir 0 => overlay zeros offset (DirEntry.ofFile identity.fileName file).encode 0
  | .data index =>
    let start ← Word.mul 64 index sectorSize
    let place ← Word.add 64 start offset
    ram.readInto place zeros
  | .table .. | .rootDir _ | .beyond => return zeros

def read (identity : Identity) (file : TrackedFile) (ram : RamDisk capacity)
    (sector offset count : Nat) : Except Fault (List UInt8) :=
  readInto identity file ram sector offset (List.replicate count 0)

end ScriptDrive.Volume
