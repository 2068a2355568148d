import ScriptDrive.Link.Polling

/-!
# Console output

Text goes to the host in packets.  When the endpoint stays busy, the rest of the text is given up, so
that printing never holds up the device.
-/

set_option autoImplicit false

namespace ScriptDrive

variable {π : Type}

def packetsOf (bytes : List UInt8) : List Packet :=
  if bytes.isEmpty then
    []
  else
    .front bytes :: packetsOf (bytes.drop maxPacket)
termination_by bytes.length
decreasing_by
  cases bytes with
  | nil => simp_all
  | cons byte rest =>
    simp only [List.length_drop, List.length_cons, maxPacket]
    omega

@[simp] theorem packetsOf_nil : packetsOf [] = [] := by
  rw [packetsOf]
  rfl

theorem packetsOf_of_ne_nil {bytes : List UInt8} (some : bytes ≠ []) :
    packetsOf bytes = .front bytes :: packetsOf (bytes.drop maxPacket) := by
  rw [packetsOf, if_neg (by simpa using some)]

theorem flatten_packetsOf (bytes : List UInt8) :
    ((packetsOf bytes).map Packet.bytes).flatten = bytes := by
  fun_induction packetsOf bytes with
  | case1 bytes none => simp_all
  | case2 bytes some restInduction => simp [restInduction]

/-- Sends packets of console output one after the other, up to the first one that stays refused. -/
def printPackets [Link π] (endpoint : UInt8) : List Packet → Exchange π Unit
  | [] => return ()
  | packet :: rest => do
    match ← sendPolling endpoint packet.bytes consoleTries with
    | none => printPackets endpoint rest
    | some busy => Exchange.log (.consoleDropped busy)

def print [Link π] (endpoint : UInt8) (text : String) : Exchange π Unit :=
  printPackets endpoint (packetsOf (utf8 text))

end ScriptDrive
