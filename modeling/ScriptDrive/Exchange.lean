import ScriptDrive.Note

/-!
# Exchanges with a link

Work of the device that may offer packets to a link, write to the log, and come to a halt.  An exchange
is a function from the link it starts with to a `Reply`: what it came to, the link it left behind, and
everything it did, in order.  A halt keeps the link and the events up to it.

`bind_of_ok` and `bind_of_error` say how two exchanges follow one another.
-/

set_option autoImplicit false

namespace ScriptDrive

structure Offer where
  endpoint : UInt8
  bytes : List UInt8
  /-- The refusal, if the bytes were not taken. -/
  refusal : Option Busy
  deriving DecidableEq

inductive Event where
  | note (entry : Note)
  | offer (made : Offer)
  deriving DecidableEq

structure Reply (π α : Type) where
  result : Except Fault α
  link : π
  events : List Event

def Exchange (π α : Type) : Type :=
  π → Reply π α

namespace Event

def note? : Event → Option Note
  | .note entry => some entry
  | .offer _ => none

def offer? : Event → Option Offer
  | .note _ => none
  | .offer made => some made

end Event

def notesOf (events : List Event) : List Note :=
  events.filterMap Event.note?

def offersOf (events : List Event) : List Offer :=
  events.filterMap Event.offer?

def takenOf (events : List Event) : List Offer :=
  (offersOf events).filter fun made => made.refusal.isNone

@[simp] theorem offersOf_append (first second : List Event) :
    offersOf (first ++ second) = offersOf first ++ offersOf second :=
  List.filterMap_append ..

@[simp] theorem takenOf_append (first second : List Event) :
    takenOf (first ++ second) = takenOf first ++ takenOf second := by
  simp [takenOf]

namespace Exchange

variable {π α β : Type}

def done (value : α) : Exchange π α :=
  fun link => ⟨.ok value, link, []⟩

def andThen (first : Exchange π α) (next : α → Exchange π β) : Exchange π β :=
  fun link =>
    match first link with
    | ⟨.ok value, middle, before⟩ =>
      match next value middle with
      | ⟨result, after, events⟩ => ⟨result, after, before ++ events⟩
    | ⟨.error fault, middle, before⟩ => ⟨.error fault, middle, before⟩

instance : Monad (Exchange π) where
  pure := done
  bind := andThen

def ofExcept (checked : Except Fault α) : Exchange π α :=
  fun link => ⟨checked, link, []⟩

instance : MonadLift (Except Fault) (Exchange π) where
  monadLift := ofExcept

def halt (fault : Fault) : Exchange π α :=
  ofExcept (.error fault)

def log (entry : Note) : Exchange π Unit :=
  fun link => ⟨.ok (), link, [.note entry]⟩

def logAll (entries : List Note) : Exchange π Unit :=
  fun link => ⟨.ok (), link, entries.map .note⟩

def offer [Link π] (endpoint : UInt8) (bytes : List UInt8) : Exchange π (Option Busy) :=
  fun link =>
    let (refusal, after) := Link.offer endpoint bytes link
    ⟨.ok refusal, after, [.offer ⟨endpoint, bytes, refusal⟩]⟩

def link : Exchange π π :=
  fun link => ⟨.ok link, link, []⟩

def modifyLink (change : π → π) : Exchange π Unit :=
  fun link => ⟨.ok (), change link, []⟩

theorem pure_run (value : α) (link : π) :
    (pure value : Exchange π α) link = ⟨.ok value, link, []⟩ := rfl

theorem bind_of_ok {first : Exchange π α} {next : α → Exchange π β} {link : π} {value : α}
    (success : (first link).result = .ok value) :
    (first >>= next) link =
      ⟨(next value (first link).link).result, (next value (first link).link).link,
        (first link).events ++ (next value (first link).link).events⟩ := by
  change andThen first next link = _
  unfold andThen
  cases started : first link with
  | mk result middle before =>
    rw [started] at success
    cases success
    rfl

theorem bind_of_error {first : Exchange π α} {next : α → Exchange π β} {link : π} {fault : Fault}
    (halted : (first link).result = .error fault) :
    (first >>= next) link = ⟨.error fault, (first link).link, (first link).events⟩ := by
  change andThen first next link = _
  unfold andThen
  cases started : first link with
  | mk result middle before =>
    rw [started] at halted
    cases halted
    rfl

instance : LawfulMonad (Exchange π) :=
  LawfulMonad.mk' (Exchange π)
    (by
      intro α exchange
      funext link
      change andThen exchange done link = exchange link
      unfold andThen done
      cases exchange link with
      | mk result after events => cases result <;> simp)
    (by
      intro α β value next
      funext link
      change andThen (done value) next link = next value link
      simp [andThen, done])
    (by
      intro α β γ exchange next last
      funext link
      change andThen (andThen exchange next) last link =
        andThen exchange (fun value => andThen (next value) last) link
      unfold andThen
      cases exchange link with
      | mk result after events =>
        cases result with
        | error fault => rfl
        | ok value =>
          cases second : next value after with
          | mk result after events => cases result <;> simp [second])

end Exchange

end ScriptDrive
