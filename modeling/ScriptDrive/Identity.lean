import ScriptDrive.Bytes

/-!
# What a drive is called

The names a drive reports over the transport and writes into its boot sector, the name and first
contents of its one file, and the numbers of its endpoints.
-/

set_option autoImplicit false

namespace ScriptDrive

/-- The endpoint numbers of the device; the direction of each follows from its use. -/
structure EndpointMap where
  /-- The interrupt endpoint of the console, on which nothing is ever sent. -/
  notify : UInt8 := 1
  consoleOut : UInt8 := 2
  consoleIn : UInt8 := 3
  diskIn : UInt8 := 5
  diskOut : UInt8 := 6
  deriving DecidableEq

namespace EndpointMap

def Distinct (map : EndpointMap) : Prop :=
  [map.notify, map.consoleOut, map.consoleIn, map.diskIn, map.diskOut].Nodup

instance (map : EndpointMap) : Decidable map.Distinct :=
  inferInstanceAs (Decidable (List.Nodup _))

theorem distinct_default : ({} : EndpointMap).Distinct := by
  decide

end EndpointMap

structure Identity where
  vendor : Octets 8 := ⟨ascii "RP2040  ", by decide⟩
  product : Octets 16 := ⟨ascii "Ghost Disk      ", by decide⟩
  revision : Octets 4 := ⟨ascii "1.00", by decide⟩
  formatter : Octets 8 := ⟨ascii "ghostfat", by decide⟩
  volumeLabel : Octets 11 := ⟨ascii "GHOSTDISK  ", by decide⟩
  volumeSerial : UInt32 := 0x78563412
  /-- The name of the file as eight and three characters, padded with spaces, without the dot. -/
  fileName : Octets 11 := ⟨ascii "MAIN    PY ", by decide⟩
  /-- What the file holds at first, as far as it fits. -/
  contents : List UInt8 := []
  endpoints : EndpointMap := {}
  deriving DecidableEq

end ScriptDrive
