import Mathlib.Data.List.Forall2
import ScriptDrive.Proofs.Drive.Endpoints
import ScriptDrive.Proofs.Offers
import ScriptDrive.Proofs.Storage.Due

/-!
# What the host sees of printed text

Text is printed packet by packet, and a packet that is refused twice ends it.  `Offering.answered` says that
the offers recorded of such work, with their answers, are all the link ever saw.  `printPackets_spoken`
follows the packets, by induction on them: so many get through, each at its first or second try, and then
either none is left or the next one is refused twice.  `print_front` draws the conclusion: the host gets
a front of the text, cut into full packets.
-/

set_option autoImplicit false

namespace ScriptDrive

variable {π α : Type}

/-! ## What a link answers -/

/-- The link gave these answers to these offers, one after the other, and saw nothing else. -/
def Answered [Link π] : π → List Offer → π → Prop
  | link, [], last => last = link
  | link, made :: rest, last =>
    (Link.offer made.endpoint made.bytes link).1 = made.refusal ∧
      Answered (Link.offer made.endpoint made.bytes link).2 rest last

theorem Answered.append [Link π] {first middle last : π} {front back : List Offer}
    (before : Answered first front middle) (after : Answered middle back last) :
    Answered first (front ++ back) last := by
  induction front generalizing first with
  | nil =>
    rw [Answered] at before
    rw [before] at after
    exact after
  | cons made rest restInduction => exact ⟨before.1, restInduction before.2⟩

theorem Exchange.Offering.answered [Link π] {endpoint : UInt8} {work : Exchange π α}
    (offers : Exchange.Offering endpoint work) (start : π) :
    Answered start (offersOf (work start).events) (work start).link := by
  induction offers generalizing start with
  | pure value => rfl
  | lift checked => rfl
  | log entry => rfl
  | logAll entries =>
    have silent : offersOf (Exchange.logAll entries start).events = [] := offersOf_notes entries
    rw [silent]
    rfl
  | offer bytes => exact ⟨rfl, rfl⟩
  | @bind α β first next _ _ firstInduction nextInduction =>
    cases result : (first start).result with
    | error fault =>
      rw [Exchange.bind_of_error result]
      exact firstInduction start
    | ok value =>
      rw [Exchange.bind_of_ok result, offersOf_append]
      exact (firstInduction start).append (nextInduction value _)

/-! ## One packet, and the packets after it -/

inductive GetsThrough (endpoint : UInt8) (bytes : List UInt8) : List Offer → Prop
  | atOnce : GetsThrough endpoint bytes [⟨endpoint, bytes, none⟩]
  | again (busy : Busy) :
      GetsThrough endpoint bytes [⟨endpoint, bytes, some busy⟩, ⟨endpoint, bytes, none⟩]

/-- The offers that end the printing: none if no packet is left, else two of the next one. -/
inductive GivenUp (endpoint : UInt8) : List (List UInt8) → List Offer → Prop
  | never : GivenUp endpoint [] []
  | twice (bytes : List UInt8) (rest : List (List UInt8)) (first second : Busy) :
      GivenUp endpoint (bytes :: rest)
        [⟨endpoint, bytes, some first⟩, ⟨endpoint, bytes, some second⟩]

/-- How packets were offered: those `sent` got through, each by the offers in `tries`, and `last` are the
offers of the packet that did not. -/
structure Spoken (endpoint : UInt8) (packets : List (List UInt8)) (offers : List Offer)
    (sent unsent : List (List UInt8)) (tries : List (List Offer)) (last : List Offer) : Prop where
  packets_eq : packets = sent ++ unsent
  offers_eq : offers = tries.flatten ++ last
  through : List.Forall₂ (GetsThrough endpoint) sent tries
  ended : GivenUp endpoint unsent last

section Speaking

variable {endpoint : UInt8}

theorem GetsThrough.taken {bytes : List UInt8} {offers : List Offer}
    (through : GetsThrough endpoint bytes offers) :
    offers.filter (fun made => made.refusal.isNone) = [⟨endpoint, bytes, none⟩] := by
  cases through <;> rfl

theorem GivenUp.taken {unsent : List (List UInt8)} {offers : List Offer}
    (ended : GivenUp endpoint unsent offers) :
    offers.filter (fun made => made.refusal.isNone) = [] := by
  cases ended <;> rfl

/-- The packets that got through, each of them once and in their order, are all that was taken. -/
theorem Spoken.taken {packets sent unsent : List (List UInt8)} {offers last : List Offer}
    {tries : List (List Offer)} (spoken : Spoken endpoint packets offers sent unsent tries last) :
    offers.filter (fun made => made.refusal.isNone) =
      sent.map fun bytes => ⟨endpoint, bytes, none⟩ := by
  have through := spoken.through
  rw [spoken.offers_eq, List.filter_append, spoken.ended.taken, List.append_nil]
  clear spoken
  induction through with
  | nil => rfl
  | cons first _ restInduction =>
    rw [List.flatten_cons, List.filter_append, first.taken, restInduction]
    rfl

theorem Spoken.offers_eq_nil_iff {packets sent unsent : List (List UInt8)} {offers last : List Offer}
    {tries : List (List Offer)} (spoken : Spoken endpoint packets offers sent unsent tries last) :
    offers = [] ↔ packets = [] := by
  obtain ⟨packetsIs, offersIs, through, ended⟩ := spoken
  rw [packetsIs, offersIs]
  cases through with
  | nil =>
    cases ended with
    | never => exact iff_of_true rfl rfl
    | twice bytes rest first second =>
      exact iff_of_false (List.cons_ne_nil _ _) (List.cons_ne_nil _ _)
  | cons first rest =>
    refine iff_of_false ?_ (List.cons_ne_nil _ _)
    cases first <;> exact List.cons_ne_nil _ _

variable [Link π]

/-- Two tries are two offers: the packet gets through by one or both of them, or both are refused. -/
theorem Attempted.of_console {bytes : List UInt8} {start : π} {refusal : Option Busy}
    {events : List Event} (attempted : Attempted endpoint bytes consoleTries start refusal events) :
    (refusal = none ∧ GetsThrough endpoint bytes (offersOf events)) ∨
      ∃ busy first second, refusal = some busy ∧
        offersOf events = [⟨endpoint, bytes, some first⟩, ⟨endpoint, bytes, some second⟩] := by
  cases attempted with
  | taken => exact .inl ⟨rfl, .atOnce⟩
  | @refused _ _ _ _ first _ later =>
    cases later with
    | taken => exact .inl ⟨rfl, .again first⟩
    | @refused _ _ _ _ second _ later =>
      cases later with
      | givenUp _ busy => exact .inr ⟨busy, first, second, rfl, rfl⟩

theorem printPackets_spoken (endpoint : UInt8) (packets : List Packet) (start : π) :
    (printPackets endpoint packets).Meets start fun _ _ events =>
      ∃ sent unsent tries last,
        Spoken endpoint (packets.map Packet.bytes) (offersOf events) sent unsent tries last := by
  induction packets generalizing start with
  | nil => exact (Exchange.meets_pure ..).mpr ⟨[], [], [], [], rfl, rfl, .nil, .never⟩
  | cons packet rest restInduction =>
    rw [printPackets, Exchange.meets_bind]
    refine (sendPolling_meets endpoint packet.bytes consoleTries start).mono ?_
    intro refusal link events attempted
    rcases attempted.of_console with ⟨rfl, through⟩ | ⟨busy, first, second, rfl, offers⟩
    · refine (restInduction link).mono ?_
      rintro - - later ⟨sent, unsent, tries, last, spoken⟩
      refine ⟨packet.bytes :: sent, unsent, offersOf events :: tries, last, ?_, ?_,
        .cons through spoken.through, spoken.ended⟩
      · rw [List.map_cons, spoken.packets_eq, List.cons_append]
      · rw [offersOf_append, spoken.offers_eq, List.flatten_cons, List.append_assoc]
    · refine (Exchange.meets_log ..).mpr
        ⟨[], packet.bytes :: rest.map Packet.bytes, [], offersOf events, rfl, ?_, .nil, ?_⟩
      · rw [offersOf_append]
        exact List.append_nil _
      · rw [offers]
        exact .twice packet.bytes _ first second

end Speaking

/-- Text is cut into packets of 64 bytes, and printing it always comes to an end without a fault.
The packets before the first one refused twice in a row are taken, each once and after one or two offers;
that one is offered twice, and those behind it never. -/
theorem print_front [Link π] (endpoint : UInt8) (text : String) (start : π) :
    let bytes := text.toUTF8.data.toList
    let packets := (List.range ((bytes.length + 63) / 64)).map fun number =>
      (bytes.drop (64 * number)).take 64
    ∃ sent unsent tries last after events,
      (print endpoint text : Exchange π Unit) start = ⟨.ok (), after, events⟩ ∧
      Answered start (offersOf events) after ∧
      packets = sent ++ unsent ∧
      offersOf events = tries.flatten ++ last ∧
      List.Forall₂ (GetsThrough endpoint) sent tries ∧
      GivenUp endpoint unsent last ∧
      takenOf events = sent.map (fun packet => ⟨endpoint, packet, none⟩) ∧
      sent.flatten <+: bytes ∧
      (offersOf events = [] ↔ text = "") := by
  intro bytes packets
  have bytesIs : utf8 text = bytes := utf8_eq text
  have packetsIs : chunks bytes = packets := chunks_eq bytes
  obtain ⟨value, result, sent, unsent, tries, last, spoken⟩ :=
    printPackets_spoken endpoint (packetsOf (utf8 text)) start
  have split : packets = sent ++ unsent := by
    rw [← packetsIs, ← bytesIs]
    exact spoken.packets_eq
  have whole : bytes = sent.flatten ++ unsent.flatten := by
    rw [← List.flatten_append, ← split, ← packetsIs, flatten_chunks]
  have silent : packets = [] ↔ text = "" := by
    rw [← packetsIs, chunks_eq_nil_iff, ← List.length_eq_zero_iff]
    exact String.utf8ByteSize_eq_zero_iff
  refine ⟨sent, unsent, tries, last, _, _, congrArg (Reply.mk · _ _) result,
    (offering_printPackets endpoint _).answered start, split, spoken.offers_eq, spoken.through,
    spoken.ended, spoken.taken, ⟨unsent.flatten, whole.symm⟩, ?_⟩
  rw [← silent, ← packetsIs, ← bytesIs]
  exact spoken.offers_eq_nil_iff

end ScriptDrive
