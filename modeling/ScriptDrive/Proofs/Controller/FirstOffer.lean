import ScriptDrive.Proofs.Controller.Leaves

/-!
# What is offered first

An endpoint has room for one packet, and until the host has collected it the controller takes no other.  So of
all the packets that one piece of work offers to an endpoint, only the first can get through, however often the
others are offered: `Opens.grows`.

`Opens endpoint bytes work` says which packet that is.  Of a printed text it is the front of the text, and the
rest is lost if the text is longer than a packet.
-/

set_option autoImplicit false

namespace ScriptDrive

open Exchange

variable {α : Type} {endpoint : InEndpoint}

/-! ## An endpoint that is held -/

/-- Offers to an endpoint that the controller holds come to nothing. -/
theorem Offered.eq_of_held {start after : Controller} (offered : Offered endpoint.number start after)
    (held : start.holds (.toHost endpoint) = true) : after = start := by
  induction offered with
  | nothing => rfl
  | more _ bytes same => rw [same, Controller.offer_eq, if_pos held]

theorem Exchange.Offering.link_of_held {work : Exchange Controller α}
    (offers : Offering endpoint.number work) {start : Controller}
    (held : start.holds (.toHost endpoint) = true) : (work start).link = start :=
  (offers.offered start).eq_of_held held

/-- Whether the bytes were taken or not, the controller holds the endpoint once they have been offered. -/
theorem Controller.held_offered (start : Controller) (bytes : List UInt8) :
    (Link.offer endpoint.number bytes start).2.holds (.toHost endpoint) = true := by
  rw [Controller.offer_eq]
  split
  · rename_i held
    exact held
  · rw [Controller.holds_armIn, if_pos rfl]

/-! ## Work that begins with an offer -/

namespace Exchange

/-- Work that offers packets to one endpoint, these bytes before any other, and otherwise leaves its link
alone. -/
inductive Opens {π : Type} [Link π] (endpoint : UInt8) (bytes : List UInt8) :
    {α : Type} → Exchange π α → Prop
  | offer : Opens endpoint bytes (offer endpoint bytes : Exchange π (Option Busy))
  | bind {α β : Type} {first : Exchange π α} {next : α → Exchange π β}
      (opens : Opens endpoint bytes first) (offers : ∀ value, Offering endpoint (next value)) :
      Opens endpoint bytes (first >>= next)

variable {bytes : List UInt8} {work : Exchange Controller α}

/-- Nothing but the first offer makes a difference. -/
theorem Opens.link (opens : Opens endpoint.number bytes work) (start : Controller) :
    (work start).link = (Link.offer endpoint.number bytes start).2 := by
  induction opens with
  | offer => rfl
  | @bind α β first next opensFirst offers firstInduction =>
    cases result : (first start).result with
    | error fault =>
      rw [bind_of_error result]
      exact firstInduction
    | ok value =>
      have held : (first start).link.holds (.toHost endpoint) = true := by
        rw [firstInduction]
        exact start.held_offered bytes
      rw [bind_of_ok result]
      exact ((offers value).link_of_held held).trans firstInduction

/-- The endpoint is handed the first of the packets that are offered to it, and no other. -/
theorem Opens.grows (opens : Opens endpoint.number bytes work) (start : Controller) :
    Controller.Grows endpoint start (work start).link
      (if start.holds (.toHost endpoint) then [] else [bytes]) := by
  rw [opens.link, Controller.offer_eq]
  split
  · exact .nothing start
  · exact start.grows_armIn bytes

end Exchange

/-! ## Printing -/

section Printing

variable {π : Type} [Link π]

theorem opens_sendPolling (endpoint : UInt8) (bytes : List UInt8) (tries : Nat) :
    Opens endpoint bytes (sendPolling endpoint bytes (tries + 1) : Exchange π _) := by
  refine Opens.offer.bind fun refusal => ?_
  cases refusal with
  | none => exact .pure _
  | some busy => exact offering_offerAgain endpoint bytes busy tries

theorem opens_printPackets (endpoint : UInt8) (packet : Packet) (rest : List Packet) :
    Opens endpoint packet.bytes (printPackets endpoint (packet :: rest) : Exchange π Unit) := by
  refine (opens_sendPolling endpoint packet.bytes 1).bind fun refusal => ?_
  cases refusal with
  | none => exact offering_printPackets endpoint rest
  | some busy => exact .log _

theorem opens_print (endpoint : UInt8) {text : String} (some : utf8 text ≠ []) :
    Opens endpoint (Packet.front (utf8 text)).bytes (print endpoint text : Exchange π Unit) := by
  rw [print, packetsOf_of_ne_nil some]
  exact opens_printPackets endpoint _ _

end Printing

end ScriptDrive
