import ScriptDrive.Geometry
import ScriptDrive.Identity
import ScriptDrive.Scsi.Command

/-!
# Fixed answers

Five commands are answered by one short run of bytes that depends on nothing but the identity of the
drive.  `length_response` says that each is as long as the command's data phase announces.
-/

set_option autoImplicit false

namespace ScriptDrive.Scsi.Command

def response (identity : Identity) : Command → List UInt8
  | .inquiry =>
    -- A removable direct-access unit; 32 bytes follow the fifth.
    [0x00, 0x80, 0x02, 0x02, 0x20, 0, 0, 0] ++ identity.vendor.bytes ++ identity.product.bytes ++
      identity.revision.bytes
  | .requestSense =>
    -- A current error in the fixed format with nothing to report; 10 bytes follow the eighth.
    [0x70, 0, 0, 0, 0, 0, 0, 10] ++ List.replicate 10 0
  | .readCapacity10 => bigEndian 4 (totalSectors - 1) ++ bigEndian 4 sectorSize
  | .modeSense6 => [3, 0, 0, 0]
  | .modeSense10 => bigEndian 2 6 ++ List.replicate 6 0
  | _ => []

def respondInto (command : Command) (identity : Identity) (buffer : List UInt8) :
    Except Fault (List UInt8) :=
  splice buffer 0 (command.response identity).length (command.response identity)

theorem length_response {command : Command} {length : Nat} (identity : Identity)
    (fixed : command.dataPhase = .fixed length) : (command.response identity).length = length := by
  cases command <;> simp_all [dataPhase, response, Octets.length_bytes]

theorem length_response_le (command : Command) (identity : Identity) :
    (command.response identity).length ≤ 36 := by
  cases command <;> simp [response, Octets.length_bytes]

end ScriptDrive.Scsi.Command
