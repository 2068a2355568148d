import ScriptDrive.Proofs.Host.Program

/-!
# A reader of FAT volumes

What a host does to list the files of a volume it knows nothing about: it takes the geometry from the
boot sector, finds the directory and an allocation table by it, and follows the chain of each file.
Nothing here refers to how the drive makes up its volume.
-/

set_option autoImplicit false

namespace ScriptDrive.Fat

/-! ## The geometry -/

structure Layout where
  sectorBytes : Nat
  clusterSectors : Nat
  reserved : Nat
  tables : Nat
  rootSlots : Nat
  total : Nat
  tableSectors : Nat
  deriving DecidableEq

namespace Layout

def decode (boot : List UInt8) : Layout where
  sectorBytes := (littleWord16 boot 11).toNat
  clusterSectors := (boot.getD 13 0).toNat
  reserved := (littleWord16 boot 14).toNat
  tables := (boot.getD 16 0).toNat
  rootSlots := (littleWord16 boot 17).toNat
  total :=
    let narrow := (littleWord16 boot 19).toNat
    -- Only a volume too big for the narrow count uses the wide one.
    if narrow = 0 then (littleWord32 boot 32).toNat else narrow
  tableSectors := (littleWord16 boot 22).toNat

def tableStart (layout : Layout) (copy : Nat) : Nat :=
  layout.reserved + copy * layout.tableSectors

def rootStart (layout : Layout) : Nat :=
  layout.reserved + layout.tables * layout.tableSectors

def rootSectors (layout : Layout) : Nat :=
  (layout.rootSlots * 32 + layout.sectorBytes - 1) / layout.sectorBytes

def dataStart (layout : Layout) : Nat :=
  layout.rootStart + layout.rootSectors

def clusterStart (layout : Layout) (cluster : Nat) : Nat :=
  layout.dataStart + (cluster - 2) * layout.clusterSectors

def clusters (layout : Layout) : Nat :=
  (layout.total - layout.dataStart) / layout.clusterSectors

end Layout

/-! ## The allocation table -/

/-- How wide the entries of the allocation table are taken to be. -/
inductive Width where
  | twelve
  | sixteen
  deriving DecidableEq

namespace Width

def ofClusters (clusters : Nat) : Width :=
  if clusters < 4085 then .twelve else .sixteen

def entry (width : Width) (table : List UInt8) (cluster : Nat) : Nat :=
  match width with
  | .sixteen => (littleWord16 table (2 * cluster)).toNat
  | .twelve =>
    let pair := (littleWord16 table (cluster + cluster / 2)).toNat
    if cluster % 2 = 0 then pair % 4096 else pair / 16

def chainEnd : Width → Nat
  | .sixteen => 0xFFF8
  | .twelve => 0xFF8

/-- The clusters of a chain, at most `fuel` of them.  There is none if the chain runs into an entry that
is neither a cluster nor an end. -/
def chain (width : Width) (table : List UInt8) (clusters : Nat) : Nat → Nat → Option (List Nat)
  | 0, _ => none
  | fuel + 1, cluster =>
    let next := width.entry table cluster
    if width.chainEnd ≤ next then
      some [cluster]
    else if 2 ≤ next ∧ next < 2 + clusters then
      (width.chain table clusters fuel next).map (cluster :: ·)
    else
      none

end Width

/-! ## The directory -/

structure Listed where
  name : List UInt8
  attributes : UInt8
  cluster : Nat
  size : Nat
  deriving DecidableEq

def Listed.ofSlot (slot : List UInt8) : Listed where
  name := slot.take 11
  attributes := slot.getD 11 0
  cluster := (littleWord16 slot 26).toNat
  size := (littleWord32 slot 28).toNat

/-- Whether a slot is that of a file: neither deleted nor a label, a directory or a part of a long
name. -/
def isFile (slot : List UInt8) : Bool :=
  slot.head? != some 0xE5 && (Listed.ofSlot slot).attributes &&& 0x18 == 0

/-- The files listed in a directory, whose slots end at the first one that begins with zero. -/
def listed (directory : List UInt8) : List Listed :=
  let slots := (Volume.slots directory).map Octets.bytes
  ((slots.takeWhile fun slot => slot.head? != some 0).filter isFile).map Listed.ofSlot

/-! ## The reader -/

structure Found where
  name : List UInt8
  contents : List UInt8
  deriving DecidableEq

structure Mounted where
  total : Nat
  files : List Found
  deriving DecidableEq

def readClusters (layout : Layout) : List Nat → Host (List UInt8)
  | [] => return []
  | cluster :: rest => do
    let bytes ← Host.read (layout.clusterStart cluster) layout.clusterSectors
    let others ← readClusters layout rest
    return bytes ++ others

def readFiles (width : Width) (layout : Layout) (table : List UInt8) :
    List Listed → Host (Option (List Found))
  | [] => return some []
  | file :: rest =>
    match width.chain table layout.clusters layout.clusters file.cluster with
    | none => return none
    | some chain => do
      let bytes ← readClusters layout chain
      let others ← readFiles width layout table rest
      return others.map (⟨file.name, bytes.take file.size⟩ :: ·)

def mount (copy : Nat) (width : Layout → Width) : Host (Option Mounted) := do
  let boot ← Host.read 0 1
  if boot.drop 510 ≠ [0x55, 0xAA] then
    return none
  let layout := Layout.decode boot
  let directory ← Host.read layout.rootStart layout.rootSectors
  let table ← Host.read (layout.tableStart copy) layout.tableSectors
  let files ← readFiles (width layout) layout table (listed directory)
  return files.map (⟨layout.total, ·⟩)

end ScriptDrive.Fat
