import ScriptDrive.Link.Polling
import ScriptDrive.Proofs.Meets

/-!
# Packets the host gets

`Attempted` follows the offers of one packet, from the first to the one that is taken or the last that
is allowed.  `acceptedOn` is what the host gets from an endpoint, and `acceptedOn_attempted` ties the
two together: a packet that was offered reaches the host once if its last offer was taken, and not at
all otherwise.
-/

set_option autoImplicit false

namespace ScriptDrive

variable {π : Type}

def acceptedOn (endpoint : UInt8) (events : List Event) : List (List UInt8) :=
  ((takenOf events).filter fun made => made.endpoint = endpoint).map Offer.bytes

@[simp] theorem acceptedOn_nil (endpoint : UInt8) : acceptedOn endpoint [] = [] := rfl

@[simp] theorem acceptedOn_append (endpoint : UInt8) (first second : List Event) :
    acceptedOn endpoint (first ++ second) =
      acceptedOn endpoint first ++ acceptedOn endpoint second := by
  simp [acceptedOn]

@[simp] theorem acceptedOn_note (endpoint : UInt8) (entry : Note) (rest : List Event) :
    acceptedOn endpoint (.note entry :: rest) = acceptedOn endpoint rest := rfl

@[simp] theorem acceptedOn_notes (endpoint : UInt8) (entries : List Note) :
    acceptedOn endpoint (entries.map .note) = [] := by
  induction entries with
  | nil => rfl
  | cons entry rest restInduction => exact restInduction

@[simp] theorem acceptedOn_refused (endpoint other : UInt8) (bytes : List UInt8) (busy : Busy)
    (rest : List Event) :
    acceptedOn endpoint (.offer ⟨other, bytes, some busy⟩ :: rest) = acceptedOn endpoint rest := rfl

theorem acceptedOn_taken (endpoint other : UInt8) (bytes : List UInt8) (rest : List Event) :
    acceptedOn endpoint (.offer ⟨other, bytes, none⟩ :: rest) =
      if other = endpoint then bytes :: acceptedOn endpoint rest else acceptedOn endpoint rest := by
  have taken : takenOf (.offer ⟨other, bytes, none⟩ :: rest) =
      ⟨other, bytes, none⟩ :: takenOf rest := rfl
  unfold acceptedOn
  rw [taken]
  by_cases same : other = endpoint <;> simp [same]

theorem offersOf_notes (entries : List Note) : offersOf (entries.map .note) = [] := by
  induction entries with
  | nil => rfl
  | cons entry rest restInduction => exact restInduction

/-- The offers of one packet to a link, with as many tries as given, until it is taken or the tries are
used up. -/
inductive Attempted [Link π] (endpoint : UInt8) (bytes : List UInt8) :
    Nat → π → Option Busy → List Event → Prop
  | givenUp (link : π) (busy : Busy) : Attempted endpoint bytes 0 link (some busy) []
  | taken {tries : Nat} {link : π} (answer : (Link.offer endpoint bytes link).1 = none) :
      Attempted endpoint bytes (tries + 1) link none [.offer ⟨endpoint, bytes, none⟩]
  | refused {tries : Nat} {link : π} {refusal : Option Busy} {events : List Event} {busy : Busy}
      (answer : (Link.offer endpoint bytes link).1 = some busy)
      (later : Attempted endpoint bytes tries (Link.offer endpoint bytes link).2 refusal events) :
      Attempted endpoint bytes (tries + 1) link refusal
        (.offer ⟨endpoint, bytes, some busy⟩ :: events)

theorem acceptedOn_attempted [Link π] {endpoint : UInt8} {bytes : List UInt8} {tries : Nat}
    {link : π} {refusal : Option Busy} {events : List Event}
    (attempted : Attempted endpoint bytes tries link refusal events) (other : UInt8) :
    acceptedOn other events = if endpoint = other ∧ refusal = none then [bytes] else [] := by
  induction attempted with
  | givenUp link busy => simp
  | taken answer =>
    rw [acceptedOn_taken]
    simp
  | refused answer later laterInduction =>
    rw [acceptedOn_refused]
    exact laterInduction

/-- The same packet is offered every time. -/
theorem Attempted.offer_eq [Link π] {endpoint : UInt8} {bytes : List UInt8} {tries : Nat} {link : π}
    {refusal : Option Busy} {events : List Event}
    (attempted : Attempted endpoint bytes tries link refusal events) :
    ∀ made ∈ offersOf events, made.endpoint = endpoint ∧ made.bytes = bytes := by
  induction attempted with
  | givenUp link busy => exact List.forall_mem_nil _
  | taken answer => exact List.forall_mem_singleton.mpr ⟨rfl, rfl⟩
  | refused answer later laterInduction => exact List.forall_mem_cons.mpr ⟨⟨rfl, rfl⟩, laterInduction⟩

theorem Attempted.offered [Link π] {endpoint : UInt8} {bytes : List UInt8} {tries : Nat} {link : π}
    {refusal : Option Busy} {events : List Event}
    (attempted : Attempted endpoint bytes (tries + 1) link refusal events) : offersOf events ≠ [] := by
  cases attempted with
  | taken answer => exact List.cons_ne_nil _ _
  | refused answer later => exact List.cons_ne_nil _ _

theorem offerAgain_meets [Link π] (endpoint : UInt8) (bytes : List UInt8) (tries : Nat)
    (last : Busy) (start : π) :
    (offerAgain endpoint bytes last tries).Meets start fun refusal _ events =>
      Attempted endpoint bytes tries start refusal events := by
  induction tries generalizing last start with
  | zero =>
    rw [offerAgain, Exchange.meets_pure]
    exact .givenUp start last
  | succ tries triesInduction =>
    rw [offerAgain, Exchange.meets_bind, Exchange.meets_offer]
    cases answer : (Link.offer endpoint bytes start).1 with
    | none =>
      rw [Exchange.meets_pure]
      exact .taken answer
    | some busy =>
      refine (triesInduction busy _).mono ?_
      intro refusal after events attempted
      exact .refused answer attempted

theorem sendPolling_meets [Link π] (endpoint : UInt8) (bytes : List UInt8) (tries : Nat)
    (start : π) :
    (sendPolling endpoint bytes tries).Meets start fun refusal _ events =>
      Attempted endpoint bytes tries start refusal events :=
  offerAgain_meets endpoint bytes tries ⟨endpoint⟩ start

inductive Willing where
  | willing
  deriving DecidableEq

instance : Link Willing where
  offer := fun _ _ link => (none, link)

theorem Attempted.willing {endpoint : UInt8} {bytes : List UInt8} {tries : Nat} {link : Willing}
    {refusal : Option Busy} {events : List Event}
    (attempted : Attempted endpoint bytes (tries + 1) link refusal events) : refusal = none := by
  cases attempted with
  | taken => rfl
  | refused answer => cases answer

end ScriptDrive
