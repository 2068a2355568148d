import ScriptDrive.Exchange

/-!
# Offering a packet more than once

A busy endpoint is offered the same packet again, a bounded number of times and without waiting.
-/

set_option autoImplicit false

namespace ScriptDrive

variable {π : Type}

def diskTries : Nat := 64

def consoleTries : Nat := 2

/-- Offers bytes until they are taken or the tries are used up; `last` is the refusal so far. -/
def offerAgain [Link π] (endpoint : UInt8) (bytes : List UInt8) (last : Busy) :
    Nat → Exchange π (Option Busy)
  | 0 => return some last
  | tries + 1 => do
    match ← Exchange.offer endpoint bytes with
    | none => return none
    | some busy => offerAgain endpoint bytes busy tries

/-- Offers bytes as one packet up to `tries` times.  The answer is the last refusal, or nothing if they
were taken.  Without any try it is a refusal by the endpoint itself. -/
def sendPolling [Link π] (endpoint : UInt8) (bytes : List UInt8) (tries : Nat) :
    Exchange π (Option Busy) :=
  offerAgain endpoint bytes ⟨endpoint⟩ tries

end ScriptDrive
