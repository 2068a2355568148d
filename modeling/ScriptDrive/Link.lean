import ScriptDrive.Bytes

/-!
# Packets and the link they leave by

A packet carries at most 64 bytes.  The device offers bytes to a controller, one packet at a time; the
controller either takes them or says that the endpoint still holds the packet before.  `Link` is all the
rest of the device knows about a controller: any function of the endpoint, the bytes and the controller
is one, so what is said of every link holds whatever is refused and whoever is named as busy.

A link sets no limit of its own on the bytes of one offer.  The transport and the console keep to what a
packet carries: they make a `Packet` first and offer its bytes.
-/

set_option autoImplicit false

namespace ScriptDrive

def maxPacket : Nat := 64

@[ext] structure Packet where
  bytes : List UInt8
  length_le : bytes.length ≤ maxPacket
  deriving DecidableEq

namespace Packet

def empty : Packet := ⟨[], by decide⟩

def ofBytes (bytes : List UInt8) : Except Fault Packet :=
  if short : bytes.length ≤ maxPacket then .ok ⟨bytes, short⟩ else .error .packetTooLong

def front (bytes : List UInt8) : Packet := ⟨bytes.take maxPacket, List.length_take_le ..⟩

theorem ofBytes_of_le {bytes : List UInt8} (short : bytes.length ≤ maxPacket) :
    ofBytes bytes = .ok ⟨bytes, short⟩ := by
  simp [ofBytes, short]

theorem ofBytes_eq_error_iff {bytes : List UInt8} {fault : Fault} :
    ofBytes bytes = .error fault ↔ maxPacket < bytes.length ∧ fault = .packetTooLong := by
  unfold ofBytes
  by_cases short : bytes.length ≤ maxPacket
  · simp [short, Nat.not_lt.mpr short]
  · simp [short, Nat.lt_of_not_le short, eq_comm]

@[simp] theorem bytes_front (bytes : List UInt8) :
    (front bytes).bytes = bytes.take maxPacket := rfl

theorem bytes_front_of_le {bytes : List UInt8} (short : bytes.length ≤ maxPacket) :
    (front bytes).bytes = bytes :=
  List.take_of_length_le short

@[simp] theorem front_bytes (packet : Packet) : front packet.bytes = packet :=
  Packet.ext (bytes_front_of_le packet.length_le)

end Packet

structure Busy where
  endpoint : UInt8
  deriving DecidableEq

def Busy.message (busy : Busy) : String :=
  s!"endpoint {busy.endpoint.toNat} busy"

class Link (π : Type) where
  /-- Offers bytes to an endpoint as one packet.  The answer is a refusal, or nothing if they were
  taken. -/
  offer : UInt8 → List UInt8 → π → Option Busy × π

end ScriptDrive
