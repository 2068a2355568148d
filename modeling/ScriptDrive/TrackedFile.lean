import ScriptDrive.Geometry
import ScriptDrive.Note

/-!
# The file on the volume

The volume shows one file.  This module keeps where the host believes it begins and how long it is, and
hands its contents to a reader.
-/

set_option autoImplicit false

namespace ScriptDrive

structure TrackedFile where
  cluster : UInt16 := firstDataCluster
  size : UInt32 := 0
  /-- Set when a directory write moves or resizes the file. -/
  dirty : Bool := false
  deriving DecidableEq

namespace TrackedFile

def relocate (file : TrackedFile) (cluster : UInt16) (size : UInt32) : TrackedFile where
  cluster := cluster
  size := size
  dirty := file.dirty || (cluster != file.cluster || size != file.size)

def relocationNotes (file : TrackedFile) (cluster : UInt16) (size : UInt32) : List Note :=
  if cluster != file.cluster || size != file.size then
    [.fileMoved file.cluster cluster file.size size]
  else
    []

/-- Puts the file back at the first data cluster, where its contents can always be read. -/
def rehome (file : TrackedFile) : TrackedFile :=
  { file with cluster := firstDataCluster }

def markClean (file : TrackedFile) : TrackedFile :=
  { file with dirty := false }

theorem relocate_same (file : TrackedFile) : file.relocate file.cluster file.size = file := by
  simp [relocate]

@[simp] theorem cluster_rehome (file : TrackedFile) : file.rehome.cluster = firstDataCluster := rfl

@[simp] theorem size_rehome (file : TrackedFile) : file.rehome.size = file.size := rfl

@[simp] theorem dirty_rehome (file : TrackedFile) : file.rehome.dirty = file.dirty := rfl

@[simp] theorem rehome_rehome (file : TrackedFile) : file.rehome.rehome = file.rehome := rfl

structure Fits (file : TrackedFile) (room : Nat) : Prop where
  size_le : file.size.toNat ≤ room
  cluster_ne_zero : file.cluster ≠ 0

end TrackedFile

structure ScriptReader where
  contents : List UInt8
  position : Nat := 0
  deriving DecidableEq

namespace ScriptReader

def read (reader : ScriptReader) : Except Fault (List UInt8 × ScriptReader) := do
  let rest ← slice reader.contents reader.position reader.contents.length
  return (rest, { reader with position := reader.contents.length })

end ScriptReader

end ScriptDrive
