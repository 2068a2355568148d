/-!
# The phases of a command

Where the transport stands between two packets.
-/

set_option autoImplicit false

namespace ScriptDrive

inductive Phase where
  | idle
  | dataIn
  | dataOut
  /-- The data phase is over; the status is queued or about to be. -/
  | statusPending
  deriving DecidableEq

def Phase.text : Phase → String
  | .idle => "Idle"
  | .dataIn => "DataIn"
  | .dataOut => "DataOut"
  | .statusPending => "StatusPending"

end ScriptDrive
