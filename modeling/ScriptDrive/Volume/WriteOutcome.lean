/-!
# What becomes of written data

The three ways in which a piece of data that the host writes can end.
-/

set_option autoImplicit false

namespace ScriptDrive

inductive WriteOutcome where
  /-- Stored in the memory behind the file, as far as it fits. -/
  | stored
  /-- Searched for the directory entry of the file. -/
  | snooped
  /-- Accepted and thrown away. -/
  | discarded
  deriving DecidableEq

def WriteOutcome.text : WriteOutcome → String
  | .stored => "Stored"
  | .snooped => "Snooped"
  | .discarded => "Discarded"

end ScriptDrive
