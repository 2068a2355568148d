import ScriptDrive.TrackedFile

/-!
# Directory entries

The 32 bytes that describe a file in a FAT directory, read and written field by field.
`ofSlot_encode` says that reading the bytes of an entry gives the entry back.
-/

set_option autoImplicit false

namespace ScriptDrive

@[ext] structure DirEntry where
  /-- The name as eight and three characters, padded with spaces, without the dot. -/
  name : Octets 11
  attributes : UInt8
  /-- Whether name and extension are shown in small letters. -/
  caseFlags : UInt8
  createTenths : UInt8
  createTime : UInt16
  createDate : UInt16
  accessDate : UInt16
  /-- The upper half of the cluster, which FAT16 does not use. -/
  clusterHigh : UInt16
  writeTime : UInt16
  writeDate : UInt16
  cluster : UInt16
  size : UInt32
  deriving DecidableEq

namespace DirEntry

def deletedMark : UInt8 := 0xE5

/-- The date and the time every file carries: the first of January 1980, a minute past midnight. -/
def stamp : UInt16 := 0x0021

/-- The entry of a file: an ordinary file whose name and extension are shown in small letters. -/
def ofFile (name : Octets 11) (file : TrackedFile) : DirEntry where
  name := name
  attributes := 0x20
  caseFlags := 0x18
  createTenths := 0
  createTime := 0
  createDate := 0
  accessDate := 0
  clusterHigh := 0
  writeTime := stamp
  writeDate := stamp
  cluster := file.cluster
  size := file.size

def ofSlot (slot : Octets 32) : DirEntry where
  name := Octets.part slot.bytes 0 11 (by rw [slot.length_bytes]; decide)
  attributes := slot.byteAt 11 (by decide)
  caseFlags := slot.byteAt 12 (by decide)
  createTenths := slot.byteAt 13 (by decide)
  createTime := littleWord16 slot.bytes 14
  createDate := littleWord16 slot.bytes 16
  accessDate := littleWord16 slot.bytes 18
  clusterHigh := littleWord16 slot.bytes 20
  writeTime := littleWord16 slot.bytes 22
  writeDate := littleWord16 slot.bytes 24
  cluster := littleWord16 slot.bytes 26
  size := littleWord32 slot.bytes 28

def encode (entry : DirEntry) : List UInt8 :=
  entry.name.bytes ++ [entry.attributes, entry.caseFlags, entry.createTenths] ++
    littleEndian 2 entry.createTime.toNat ++ littleEndian 2 entry.createDate.toNat ++
    littleEndian 2 entry.accessDate.toNat ++ littleEndian 2 entry.clusterHigh.toNat ++
    littleEndian 2 entry.writeTime.toNat ++ littleEndian 2 entry.writeDate.toNat ++
    littleEndian 2 entry.cluster.toNat ++ littleEndian 4 entry.size.toNat

@[simp] theorem length_encode (entry : DirEntry) : entry.encode.length = dirEntrySize := by
  simp [encode, dirEntrySize, entry.name.length_bytes]

theorem ofSlot_encode (entry : DirEntry) : ofSlot ⟨entry.encode, entry.length_encode⟩ = entry := by
  have nameLength := entry.name.length_bytes
  have nameDropped {count : Nat} (past : 11 ≤ count) : entry.name.bytes.drop count = [] :=
    List.drop_eq_nil_of_le (by omega)
  ext : 1
  · ext : 1
    simp [ofSlot, Octets.part, encode, nameLength]
  all_goals simp only [ofSlot]
  · simp [Octets.byteAt, encode, nameLength]
  · simp [Octets.byteAt, encode, nameLength]
  · simp [Octets.byteAt, encode, nameLength]
  · apply littleWord16_of_drop (entry.encode.drop 16)
    simp [encode, List.drop_append, nameLength, nameDropped]
  · apply littleWord16_of_drop (entry.encode.drop 18)
    simp [encode, List.drop_append, nameLength, nameDropped, drop_littleEndian_of_le]
  · apply littleWord16_of_drop (entry.encode.drop 20)
    simp [encode, List.drop_append, nameLength, nameDropped, drop_littleEndian_of_le]
  · apply littleWord16_of_drop (entry.encode.drop 22)
    simp [encode, List.drop_append, nameLength, nameDropped, drop_littleEndian_of_le]
  · apply littleWord16_of_drop (entry.encode.drop 24)
    simp [encode, List.drop_append, nameLength, nameDropped, drop_littleEndian_of_le]
  · apply littleWord16_of_drop (entry.encode.drop 26)
    simp [encode, List.drop_append, nameLength, nameDropped, drop_littleEndian_of_le]
  · apply littleWord16_of_drop (entry.encode.drop 28)
    simp [encode, List.drop_append, nameLength, nameDropped, drop_littleEndian_of_le]
  · apply littleWord32_of_drop []
    simp [encode, List.drop_append, nameLength, nameDropped, drop_littleEndian_of_le]

/-- Whether the entry is in use under a name, whatever the case of its letters. -/
def isNamed (entry : DirEntry) (name : Octets 11) : Bool :=
  entry.name.byteAt 0 (by decide) != deletedMark && sameLetters entry.name.bytes name.bytes

end DirEntry

end ScriptDrive
