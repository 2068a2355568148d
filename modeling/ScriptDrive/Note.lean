import ScriptDrive.Link
import ScriptDrive.Scsi.Command
import ScriptDrive.Transfer.Phase
import ScriptDrive.Transport.CommandWrapper
import ScriptDrive.Volume.WriteOutcome

/-!
# The log

What the device has to say about its work.  An entry is kept as what happened; its level and its text
are functions of that.
-/

set_option autoImplicit false

namespace ScriptDrive

inductive Level where
  | warn
  | debug
  | trace
  deriving DecidableEq

inductive Note where
  | queueFull (dropped : Nat)
  | fileMoved (oldCluster newCluster : UInt16) (oldSize newSize : UInt32)
  | writeBeforeFile (cluster : Nat) (fileCluster : UInt16)
  | writePastEnd (stored length offset : Nat)
  | entryWithoutCluster
  | unclaimedPacket (length : Nat) (endpoint : UInt8)
  | bulkOnlyReset
  | transferReset (phase : Phase)
  | packetArrived (length : Nat) (phase : Phase)
  | packetDropped (reason : CommandWrapper.DecodeError)
  | writeAbandoned (command : Option Scsi.Command)
  | commandAbandoned (phase : Phase)
  | strayPacket (phase : Phase)
  | statusCollected (tag : UInt32)
  | commandBegun (command : Scsi.Command) (tag requested : UInt32)
  | otherUnit (lun : UInt8)
  | hostAllowsLess (command : Scsi.Command) (wanted allowed : Nat)
  | pieceWritten (sector within : Nat) (outcome : WriteOutcome)
  | statusDeferred (busy : Busy)
  | consoleDropped (busy : Busy)
  deriving DecidableEq

namespace Note

def level : Note → Level
  | writePastEnd .. | packetDropped .. | writeAbandoned .. | commandAbandoned ..
  | hostAllowsLess .. => .warn
  | fileMoved .. | entryWithoutCluster | bulkOnlyReset | transferReset .. | commandBegun .. => .debug
  | queueFull .. | writeBeforeFile .. | unclaimedPacket .. | packetArrived .. | strayPacket ..
  | statusCollected .. | otherUnit .. | pieceWritten .. | statusDeferred .. | consoleDropped .. =>
    .trace

def commandText : Option Scsi.Command → String
  | some command => "Some(" ++ command.text ++ ")"
  | none => "None"

def text : Note → String
  | queueFull dropped => s!"cdc ring full, dropping {dropped} bytes"
  | fileMoved oldCluster newCluster oldSize newSize =>
    s!"file moved: cluster {oldCluster.toNat} -> {newCluster.toNat}, " ++
      s!"size {oldSize.toNat} -> {newSize.toNat}"
  | writeBeforeFile cluster fileCluster =>
    s!"drop write to cluster {cluster} (file at {fileCluster.toNat})"
  | writePastEnd stored length offset =>
    s!"write past RAM disk end: {stored} of {length} bytes at {offset} kept"
  | entryWithoutCluster => "ignoring zero-cluster entry for tracked file"
  | unclaimedPacket length endpoint => s!"ignoring {length} bytes on EP{endpoint.toNat} OUT"
  | bulkOnlyReset => "bulk-only reset"
  | transferReset phase => "transfer reset during " ++ phase.text
  | packetArrived length phase => s!"msc out {length} bytes in " ++ phase.text
  | packetDropped reason => "dropping OUT packet: " ++ reason.message
  | writeAbandoned command => "new CBW mid-write; abandoning " ++ commandText command
  | commandAbandoned phase => "new CBW during " ++ phase.text ++ "; abandoning"
  | strayPacket phase => "stray OUT packet during " ++ phase.text
  | statusCollected tag => "CSW collected, tag 0x" ++ hexadecimal 0 tag.toNat
  | commandBegun command tag requested =>
    command.text ++ ", tag 0x" ++ hexadecimal 0 tag.toNat ++ s!", {requested.toNat} bytes"
  | otherUnit lun => s!"CBW for LUN {lun.toNat}; answering as LUN 0"
  | hostAllowsLess command wanted allowed =>
    command.text ++ s!" wants {wanted} bytes but host allows {allowed}"
  | pieceWritten sector within outcome => s!"write sector {sector} +{within}: " ++ outcome.text
  | statusDeferred busy => busy.message ++ "; CSW deferred"
  | consoleDropped busy => busy.message ++ "; console output dropped"

end Note

end ScriptDrive
