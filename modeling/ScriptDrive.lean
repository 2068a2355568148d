import ScriptDrive.Device.Turn
import ScriptDrive.Proofs.Console.Output
import ScriptDrive.Proofs.Controller.FirstOffer
import ScriptDrive.Proofs.Controller.Leaves
import ScriptDrive.Proofs.Controller.Toggles
import ScriptDrive.Proofs.Device.Address
import ScriptDrive.Proofs.Device.Announcement
import ScriptDrive.Proofs.Device.Answers
import ScriptDrive.Proofs.Device.Collisions
import ScriptDrive.Proofs.Device.ControlReads
import ScriptDrive.Proofs.Device.DiskService
import ScriptDrive.Proofs.Device.DiskTurns
import ScriptDrive.Proofs.Device.Erasure
import ScriptDrive.Proofs.Device.Leftover
import ScriptDrive.Proofs.Device.SerialSettings
import ScriptDrive.Proofs.Device.Toggles
import ScriptDrive.Proofs.Drive.Abandoned
import ScriptDrive.Proofs.Drive.Attempts
import ScriptDrive.Proofs.Drive.Faultless
import ScriptDrive.Proofs.Drive.Postponed
import ScriptDrive.Proofs.Drive.Progress
import ScriptDrive.Proofs.Drive.Saving
import ScriptDrive.Proofs.Drive.Untouched
import ScriptDrive.Proofs.Drive.WriteBack
import ScriptDrive.Proofs.Host.Recovery
import ScriptDrive.Proofs.Transport.Decoding
import ScriptDrive.Proofs.Volume.Memory
import ScriptDrive.Proofs.Volume.Snooping
import ScriptDrive.Proofs.Volume.Windows
