import ScriptDrive.Drive
import ScriptDrive.Proofs.Meets

/-!
# The endpoints a drive offers packets to

`Offering endpoint work` says that all `work` does with its link is to offer packets to one endpoint; then
the links it can leave are those that `Offered` lists, also when it comes to a halt.  The transport only
uses its own endpoint towards the host and the console only the other one, in whatever state they are;
nothing else in a drive uses a link at all.
-/

set_option autoImplicit false

namespace ScriptDrive

variable {π α β : Type} {capacity : Nat}

/-- The links that offers to one endpoint lead to. -/
inductive Offered [Link π] (endpoint : UInt8) (start : π) : π → Prop
  | nothing : Offered endpoint start start
  | more {link : π} (before : Offered endpoint start link) (bytes : List UInt8) :
      Offered endpoint start (Link.offer endpoint bytes link).2

theorem Offered.trans [Link π] {endpoint : UInt8} {first second third : π}
    (before : Offered endpoint first second) (after : Offered endpoint second third) :
    Offered endpoint first third := by
  induction after with
  | nothing => exact before
  | more _ bytes offered => exact .more offered bytes

namespace Exchange

/-- Work that offers packets to one endpoint and otherwise leaves its link alone. -/
inductive Offering [Link π] (endpoint : UInt8) : {α : Type} → Exchange π α → Prop
  | pure {α : Type} (value : α) : Offering endpoint (pure value : Exchange π α)
  | lift {α : Type} (checked : Except Fault α) : Offering endpoint (liftM checked : Exchange π α)
  | log (entry : Note) : Offering endpoint (log entry : Exchange π Unit)
  | logAll (entries : List Note) : Offering endpoint (logAll entries : Exchange π Unit)
  | offer (bytes : List UInt8) : Offering endpoint (offer endpoint bytes : Exchange π (Option Busy))
  | bind {α β : Type} {first : Exchange π α} {next : α → Exchange π β}
      (offersFirst : Offering endpoint first) (offersNext : ∀ value, Offering endpoint (next value)) :
      Offering endpoint (first >>= next)

/-- Whatever comes of such work, its link is one that offers to the endpoint lead to. -/
theorem Offering.offered [Link π] {endpoint : UInt8} {work : Exchange π α}
    (offers : Offering endpoint work) (start : π) : Offered endpoint start (work start).link := by
  induction offers generalizing start with
  | pure value => exact .nothing
  | lift checked => exact .nothing
  | log entry => exact .nothing
  | logAll entries => exact .nothing
  | offer bytes => exact .more .nothing bytes
  | @bind α β first next _ _ firstInduction nextInduction =>
    cases result : (first start).result with
    | error fault =>
      rw [bind_of_error result]
      exact firstInduction start
    | ok value =>
      rw [bind_of_ok result]
      exact (firstInduction start).trans (nextInduction value _)

end Exchange

open Exchange

section Polling

variable [Link π]

theorem offering_offerAgain (endpoint : UInt8) (bytes : List UInt8) (last : Busy) (tries : Nat) :
    Offering endpoint (offerAgain endpoint bytes last tries : Exchange π _) := by
  induction tries generalizing last with
  | zero => exact .pure _
  | succ tries triesInduction =>
    refine (Offering.offer bytes).bind fun refusal => ?_
    cases refusal with
    | none => exact .pure _
    | some busy => exact triesInduction busy

theorem offering_sendPolling (endpoint : UInt8) (bytes : List UInt8) (tries : Nat) :
    Offering endpoint (sendPolling endpoint bytes tries : Exchange π _) :=
  offering_offerAgain endpoint bytes ⟨endpoint⟩ tries

theorem offering_printPackets (endpoint : UInt8) (packets : List Packet) :
    Offering endpoint (printPackets endpoint packets : Exchange π Unit) := by
  induction packets with
  | nil => exact .pure _
  | cons packet rest restInduction =>
    refine (offering_sendPolling endpoint packet.bytes consoleTries).bind fun refusal => ?_
    cases refusal with
    | none => exact restInduction
    | some busy => exact .log _

end Polling

namespace Storage

variable [Link π]

theorem offering_offerPacket (storage : Storage capacity) (bytes : List UInt8) :
    Offering storage.identity.endpoints.diskIn (storage.offerPacket bytes : Exchange π _) :=
  (Offering.lift _).bind fun packet => offering_sendPolling _ packet.bytes diskTries

theorem offering_sendStatus (storage : Storage capacity) :
    Offering storage.identity.endpoints.diskIn (storage.sendStatus : Exchange π _) := by
  unfold sendStatus
  dsimp only
  split
  · exact .pure _
  · refine (storage.offering_offerPacket _).bind fun refusal => ?_
    cases refusal with
    | none => exact .pure _
    | some busy => exact (Offering.log _).bind fun _ => .pure _

theorem offering_sendPiece (storage : Storage capacity) :
    Offering storage.identity.endpoints.diskIn (storage.sendPiece : Exchange π _) := by
  refine (Offering.lift _).bind fun room => (Offering.lift _).bind fun file =>
    (Offering.lift _).bind fun buffer => (Offering.lift _).bind fun piece => ?_
  refine (storage.offering_offerPacket piece).bind fun refusal => ?_
  cases refusal with
  | none => exact (Offering.lift _).bind fun _ => (Offering.lift _).bind fun _ => .pure _
  | some busy => exact .pure _

theorem offering_sendFixed (storage : Storage capacity) (command : Scsi.Command) :
    Offering storage.identity.endpoints.diskIn (storage.sendFixed command : Exchange π _) := by
  refine (Offering.lift _).bind fun buffer => (Offering.lift _).bind fun answer => ?_
  refine (storage.offering_offerPacket answer).bind fun refusal => ?_
  cases refusal with
  | none => exact (Offering.lift _).bind fun _ => .pure _
  | some busy => exact .pure _

theorem offering_advance (storage : Storage capacity) :
    Offering storage.identity.endpoints.diskIn (storage.advance : Exchange π _) := by
  unfold advance
  split
  · exact storage.offering_sendStatus
  · split
    · exact .pure _
    · split
      · exact storage.offering_sendPiece
      · exact storage.offering_sendFixed _
      all_goals exact offering_sendStatus { storage with transfer := { storage.transfer with remaining := 0 } }

theorem offering_begin (storage : Storage capacity) (wrapper : CommandWrapper) :
    Offering storage.identity.endpoints.diskIn (storage.begin wrapper : Exchange π _) := by
  unfold begin
  refine (Offering.log _).bind fun _ => ?_
  -- What follows the note on the unit is the same with the note and without it.
  extract_lets rest
  have offersRest : Offering storage.identity.endpoints.diskIn (rest ()) := by
    refine (Offering.lift _).bind fun started => (Offering.logAll _).bind fun _ => ?_
    dsimp only
    split
    · exact offering_advance { storage with transfer := started.1 }
    · exact offering_sendStatus { storage with transfer := started.1 }
    all_goals exact .pure _
  split
  · exact (Offering.log _).bind fun _ => offersRest
  · exact offersRest

/-- Work that follows the data may rely on the endpoints being those from before. -/
theorem offering_takeData_bind {endpoint : UInt8} (storage : Storage capacity) (data : List UInt8)
    {next : Storage capacity → Exchange π α}
    (offersNext : ∀ taken : Storage capacity, taken.identity = storage.identity →
      Offering endpoint (next taken)) :
    Offering endpoint (storage.takeData data >>= next) := by
  generalize total : data.length = count
  induction count using Nat.strongRecOn generalizing storage data with
  | _ count countInduction =>
  by_cases empty : data = []
  · rw [empty, takeData_nil, pure_bind]
    exact offersNext storage rfl
  · have less := Transfer.length_lt_of_cutPiece empty (storage.transfer.cutPiece_eq data)
    simp only [storage.takeData_of_ne_nil empty, takePiece, bind_assoc, pure_bind]
    refine (Offering.lift _).bind fun written => (Offering.logAll _).bind fun _ =>
      (Offering.log _).bind fun _ => (Offering.lift _).bind fun offset => ?_
    exact countInduction _ (total ▸ less) _ _ offersNext rfl

theorem offering_receive (storage : Storage capacity) (packet : List UInt8) :
    Offering storage.identity.endpoints.diskIn (storage.receive packet : Exchange π _) := by
  refine (Offering.lift _).bind fun data => ?_
  refine storage.offering_takeData_bind _ fun taken identityIs => ?_
  refine (Offering.lift _).bind fun remaining => ?_
  dsimp only
  split
  · rw [← identityIs]
    exact offering_sendStatus
      { taken with transfer := { taken.transfer with remaining := remaining } }
  · exact .pure _

theorem offering_onPacket (storage : Storage capacity) (packet : List UInt8) :
    Offering storage.identity.endpoints.diskIn (storage.onPacket packet : Exchange π _) := by
  refine (Offering.log _).bind fun _ => ?_
  cases storage.transfer.phase with
  | idle =>
    cases CommandWrapper.decode packet with
    | ok wrapper => exact storage.offering_begin wrapper
    | error reason => exact (Offering.log _).bind fun _ => .pure _
  | dataOut =>
    cases CommandWrapper.decode packet with
    | ok wrapper => exact (Offering.log _).bind fun _ => storage.offering_begin wrapper
    | error reason => exact storage.offering_receive packet
  | dataIn | statusPending =>
    cases CommandWrapper.decode packet with
    | ok wrapper => exact (Offering.log _).bind fun _ => storage.offering_begin wrapper
    | error reason => exact (Offering.log _).bind fun _ => .pure _

theorem offering_onCollected (storage : Storage capacity) :
    Offering storage.identity.endpoints.diskIn (storage.onCollected : Exchange π _) := by
  unfold onCollected
  split
  · exact storage.offering_advance
  · split
    · exact (Offering.log _).bind fun _ => .pure _
    · exact storage.offering_sendStatus
  all_goals exact .pure _

theorem offering_poll (storage : Storage capacity) :
    Offering storage.identity.endpoints.diskIn (storage.poll : Exchange π _) := by
  unfold poll
  split
  · exact storage.offering_advance
  · split
    · exact .pure _
    · exact storage.offering_sendStatus
  all_goals exact .pure _

end Storage

namespace Drive

variable [Link π]

theorem offering_onPacket (drive : Drive capacity) (endpoint : UInt8) (packet : List UInt8) :
    Offering drive.identity.endpoints.diskIn (drive.onPacket endpoint packet : Exchange π _) := by
  unfold onPacket
  split
  · exact (drive.storage.offering_onPacket packet).bind fun _ => .pure _
  · split
    · exact (Offering.lift _).bind fun _ => (Offering.logAll _).bind fun _ => .pure _
    · exact (Offering.log _).bind fun _ => .pure _

theorem offering_onCollected (drive : Drive capacity) (endpoint : UInt8) :
    Offering drive.identity.endpoints.diskIn (drive.onCollected endpoint : Exchange π _) := by
  unfold onCollected
  split
  · exact drive.storage.offering_onCollected.bind fun _ => .pure _
  · exact .pure _

theorem offering_poll (drive : Drive capacity) :
    Offering drive.identity.endpoints.diskIn (drive.poll : Exchange π _) :=
  drive.storage.offering_poll.bind fun _ => .pure _

theorem offering_print (drive : Drive capacity) (text : String) :
    Offering drive.identity.endpoints.consoleIn (drive.print text : Exchange π Unit) :=
  offering_printPackets _ _

end Drive

end ScriptDrive
