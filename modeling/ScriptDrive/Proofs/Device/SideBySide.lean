import ScriptDrive.Proofs.Controller.Alike
import ScriptDrive.Proofs.Device.Ownership

/-!
# Two devices side by side

`Twins` are devices that differ only in where their queued console input lies in its store.  On controllers
that are `Alike`, each part of a turn does the same for both: it halts for both or for neither, makes the
same writes, and leaves twins and controllers that are alike.  `turn_together` says so of a whole turn.
-/

set_option autoImplicit false

namespace ScriptDrive

open Exchange

/-- A buffer from the host comes with as many bytes as its control word says. -/
def Presented.Whole (presented : Presented) : Prop :=
  ∀ buffer ∈ presented.returned, buffer.address < 0x80 → buffer.length = buffer.data.length

namespace Device

/-- The second device has the same bytes of console input queued, perhaps elsewhere in the store, and is
otherwise the same. -/
def Twins (first second : Device) : Prop :=
  ∃ queue, second = { first with drive := { first.drive with queue := queue } } ∧
    queue.bytes = first.drive.queue.bytes

variable {first second : Device}

theorem Twins.board (twins : first.Twins second) : second.board = first.board := by
  obtain ⟨queue, rfl, -⟩ := twins
  rfl

/-! ## The control endpoint -/

theorem Twins.answered (twins : first.Twins second) (setup : Setup) :
    (first.answered setup).2 = (second.answered setup).2 ∧
      (first.answered setup).1.Twins (second.answered setup).1 := by
  obtain ⟨queue, rfl, bytes⟩ := twins
  unfold Device.answered
  cases setup.asks with
  | getDescriptor name => cases name <;> exact ⟨rfl, queue, rfl, bytes⟩
  | disk code =>
    simp only [diskAnswered, Prod.map, Drive.requested, id]
    cases ClassRequest.ofCode? code.toNat with
    | none => exact ⟨rfl, queue, rfl, bytes⟩
    | some request => cases request <;> exact ⟨rfl, queue, rfl, bytes⟩
  | setAddress | setConfiguration | otherCommand | otherQuery | setLineCoding | getLineCoding
  | setControlLineState | foreign => exact ⟨rfl, queue, rfl, bytes⟩

theorem Twins.dropped (twins : first.Twins second) : first.dropped.Twins second.dropped := by
  obtain ⟨queue, rfl, bytes⟩ := twins
  exact ⟨queue, rfl, bytes⟩

theorem Twins.tookControl (twins : first.Twins second) (packet : List UInt8) :
    (first.tookControl packet).2 = (second.tookControl packet).2 ∧
      (first.tookControl packet).1.Twins (second.tookControl packet).1 := by
  obtain ⟨queue, rfl, bytes⟩ := twins
  unfold Device.tookControl
  split
  · exact ⟨rfl, queue, rfl, bytes⟩
  · exact ⟨rfl, queue, rfl, bytes⟩

variable {earlier otherEarlier : List Write} {asked : Prop} {returned : Endpoint → Prop}
  {start other : Controller}

def Matched (earlier otherEarlier : List Write) (asked : Prop) (returned : Endpoint → Prop)
    (next counterpart : Device) (after otherAfter : Controller) : Prop :=
  next.Twins counterpart ∧ Alike earlier otherEarlier asked returned after otherAfter

theorem onSetup_together (twins : first.Twins second)
    (alike : Alike earlier otherEarlier asked returned start other) (bytes : Octets 8) :
    Together (first.onSetup bytes) (second.onSetup bytes) start other
      (Matched earlier otherEarlier True returned) (Journals earlier otherEarlier) := by
  obtain ⟨act, twinsNext⟩ := twins.dropped.answered (.ofBytes bytes)
  refine (first.onSetup_meets_acted bytes start).together (second.onSetup_meets_acted bytes other) ?_
  rintro next after _ ⟨rfl, rfl⟩ counterpart otherAfter _ ⟨rfl, rfl⟩
  refine ⟨twinsNext, ?_⟩
  rw [act, twins.board]
  unfold takenUp
  exact ((((alike.write _).write _).write _).setNextControl true |>.acted trivial _).write _

/-! ## The drive -/

/-- The transport is the same in both, and it only talks to the disk's endpoint. -/
theorem storage_together (sound : first.Sound) {work : Exchange Controller (Storage boardCapacity)}
    (offers : Offering first.drive.identity.endpoints.diskIn work)
    (alike : Alike earlier otherEarlier asked returned start other) :
    Together work work start other
      (fun storage counterpart after otherAfter =>
        storage = counterpart ∧ Alike earlier otherEarlier asked returned after otherAfter)
      (Journals earlier otherEarlier) := by
  rw [sound.diskIn] at offers
  exact offers.together (Alike.answers (by decide)) (fun _ _ related => related.journals) alike

def Driven (earlier otherEarlier : List Write) (asked : Prop) (returned : Endpoint → Prop)
    (first second : Device) (drive counterpart : Drive boardCapacity) (after otherAfter : Controller) :
    Prop :=
  Matched earlier otherEarlier asked returned { first with drive := drive }
    { second with drive := counterpart } after otherAfter

theorem onPacket_together (sound : first.Sound) (twins : first.Twins second)
    (alike : Alike earlier otherEarlier asked returned start other) (endpoint : UInt8)
    (packet : List UInt8) :
    Together (first.drive.onPacket endpoint packet) (second.drive.onPacket endpoint packet) start other
      (Driven earlier otherEarlier asked returned first second) (Journals earlier otherEarlier) := by
  obtain ⟨queue, rfl, bytes⟩ := twins
  dsimp only
  by_cases disk : endpoint = first.drive.identity.endpoints.diskOut
  · have identity : Drive.identity ⟨first.drive.storage, queue⟩ = first.drive.identity := rfl
    rw [Drive.onPacket, Drive.onPacket, identity, if_pos disk, if_pos disk]
    apply Together.bind
    refine (storage_together sound (first.drive.storage.offering_onPacket packet) alike).mono ?_
    rintro storage counterpart after otherAfter ⟨rfl, alikeAfter⟩
    exact together_pure ⟨⟨queue, rfl, bytes⟩, alikeAfter⟩
  · by_cases console : endpoint = first.drive.identity.endpoints.consoleOut
    · rw [first.drive.onPacket_console packet disk console,
        Drive.onPacket_console ⟨first.drive.storage, queue⟩ packet disk console]
      apply Together.bind
      refine together_logAll (together_pure ⟨⟨queue.push packet, rfl, ?_⟩, alike⟩)
      rw [ConsoleQueue.bytes_push, bytes]
      exact (ConsoleQueue.bytes_push ..).symm
    · rw [first.drive.onPacket_unclaimed packet disk console,
        Drive.onPacket_unclaimed ⟨first.drive.storage, queue⟩ packet disk console]
      apply Together.bind
      exact .inr ⟨(), (), rfl, rfl, together_pure ⟨⟨queue, rfl, bytes⟩, alike⟩⟩

theorem onCollected_together (sound : first.Sound) (twins : first.Twins second)
    (alike : Alike earlier otherEarlier asked returned start other) (endpoint : UInt8) :
    Together (first.drive.onCollected endpoint) (second.drive.onCollected endpoint) start other
      (Driven earlier otherEarlier asked returned first second) (Journals earlier otherEarlier) := by
  obtain ⟨queue, rfl, bytes⟩ := twins
  have identity : Drive.identity ⟨first.drive.storage, queue⟩ = first.drive.identity := rfl
  unfold Drive.onCollected
  rw [identity]
  by_cases disk : endpoint = first.drive.identity.endpoints.diskIn
  · rw [if_pos disk, if_pos disk]
    apply Together.bind
    refine (storage_together sound first.drive.storage.offering_onCollected alike).mono ?_
    rintro storage counterpart after otherAfter ⟨rfl, alikeAfter⟩
    exact together_pure ⟨⟨queue, rfl, bytes⟩, alikeAfter⟩
  · rw [if_neg disk, if_neg disk]
    exact together_pure ⟨⟨queue, rfl, bytes⟩, alike⟩

/-! ## The buffers -/

theorem raisePin_together (alike : Alike earlier otherEarlier asked returned start other) (pin : Nat) :
    Together (raisePin pin) (raisePin pin) start other
      (fun _ _ after otherAfter => Alike earlier otherEarlier asked returned after otherAfter)
      (Journals earlier otherEarlier) :=
  together_modifyLink (alike.write _)

theorem armOut_together (alike : Alike earlier otherEarlier asked returned start other)
    (endpoint : OutEndpoint) (known : asked ∨ 2 ≤ (Endpoint.fromHost endpoint).index) :
    Together (armOut endpoint maxPacket) (armOut endpoint maxPacket) start other
      (fun _ _ after otherAfter => Alike earlier otherEarlier asked returned after otherAfter)
      (Journals earlier otherEarlier) :=
  together_modifyLink (alike.armOut maxPacket known)

theorem lowerPin_together (alike : Alike earlier otherEarlier asked returned start other) (pin : Nat) :
    Together (lowerPin pin) (lowerPin pin) start other
      (fun _ _ after otherAfter => Alike earlier otherEarlier asked returned after otherAfter)
      (Journals earlier otherEarlier) :=
  together_modifyLink (alike.write _)

theorem Matched.lowered {next counterpart : Device} {after otherAfter : Controller}
    (matched : Matched earlier otherEarlier asked returned next counterpart after otherAfter) (pin : Nat) :
    Together (lowerPin pin >>= fun _ => pure next) (lowerPin pin >>= fun _ => pure counterpart) after
      otherAfter (Matched earlier otherEarlier asked returned) (Journals earlier otherEarlier) := by
  apply Together.bind
  refine (lowerPin_together matched.2 pin).mono ?_
  intro _ _ lowered otherLowered alike
  exact together_pure ⟨matched.1, alike⟩

theorem onControlCollected_together (twins : first.Twins second)
    (alike : Alike earlier otherEarlier asked returned start other) (ask : asked) :
    Together first.onControlCollected second.onControlCollected start other
      (Matched earlier otherEarlier asked returned) (Journals earlier otherEarlier) := by
  obtain ⟨queue, rfl, bytes⟩ := twins
  refine (first.onControlCollected_meets start).together (onControlCollected_meets _ other) ?_
  rintro next after _ ⟨rfl, rfl⟩ counterpart otherAfter _ ⟨rfl, rfl⟩
  exact ⟨⟨queue, rfl, bytes⟩, alike.acted ask (some first.unfinished.collected.2)⟩

theorem onControlPacket_together (twins : first.Twins second)
    (alike : Alike earlier otherEarlier asked returned start other) (ask : asked) (packet : List UInt8) :
    Together (first.onControlPacket packet) (second.onControlPacket packet) start other
      (Matched earlier otherEarlier asked returned) (Journals earlier otherEarlier) := by
  obtain ⟨act, twinsNext⟩ := twins.tookControl packet
  refine (first.onControlPacket_meets packet start).together (second.onControlPacket_meets packet other) ?_
  rintro next after _ ⟨rfl, rfl⟩ counterpart otherAfter _ ⟨rfl, rfl⟩
  rw [act]
  exact ⟨twinsNext, alike.acted ask _⟩

theorem serve_together (sound : first.Sound) (twins : first.Twins second)
    (alike : Alike earlier otherEarlier asked returned start other) {endpoint : Endpoint}
    (back : returned endpoint) (known : asked ∨ 2 ≤ endpoint.index) :
    Together (first.serve endpoint) (second.serve endpoint) start other
      (Matched earlier otherEarlier asked returned) (Journals earlier otherEarlier) := by
  unfold serve
  apply Together.bind
  refine (raisePin_together alike _).mono ?_
  intro _ _ raised otherRaised alikeRaised
  apply Together.bind
  refine .inr ⟨raised, otherRaised, rfl, rfl, ?_⟩
  dsimp only [Exchange.link]
  rw [← alikeRaised.holds endpoint back]
  split
  · exact (together_halt alikeRaised.journals).bind
  · rename_i free
    cases endpoint with
    | toHost endpoint =>
      cases endpoint with
      | control =>
        have ask : asked := known.resolve_right (by decide)
        refine ((onControlCollected_together twins alikeRaised ask).mono ?_).bind
        intro next counterpart after otherAfter matched
        exact matched.lowered _
      | notify | console | disk =>
        refine ((onCollected_together sound twins alikeRaised _).mono ?_).bind
        intro drive counterpart after otherAfter driven
        exact (together_pure (Matched.lowered driven _)).bind
    | fromHost endpoint =>
      have received := alikeRaised.received endpoint back (Bool.eq_false_iff.mpr free)
      cases endpoint with
      | control =>
        have ask : asked := known.resolve_right (by decide)
        dsimp only
        rw [← received]
        refine ((onControlPacket_together twins alikeRaised ask _).mono ?_).bind
        intro next counterpart after otherAfter matched
        exact matched.lowered _
      | console | disk =>
        dsimp only
        rw [← received]
        refine ((onPacket_together sound twins alikeRaised _ _).mono ?_).bind
        intro drive counterpart after otherAfter driven
        refine ((armOut_together driven.2 _ (.inr (by decide))).mono ?_).bind
        intro _ _ armed otherArmed alikeArmed
        exact (together_pure (Matched.lowered ⟨driven.1, alikeArmed⟩ _)).bind

theorem serveAll_together (sound : first.Sound) (twins : first.Twins second)
    (alike : Alike earlier otherEarlier asked returned start other) {places : List Nat}
    (known : ∀ endpoint : Endpoint, endpoint.index ∈ places →
      returned endpoint ∧ (asked ∨ 2 ≤ endpoint.index)) :
    Together (first.serveAll places) (second.serveAll places) start other
      (Matched earlier otherEarlier asked returned) (Journals earlier otherEarlier) := by
  induction places generalizing first second start other with
  | nil => exact together_pure ⟨twins, alike⟩
  | cons index rest restInduction =>
    have knownRest (endpoint : Endpoint) (present : endpoint.index ∈ rest) :=
      known endpoint (List.mem_cons_of_mem _ present)
    rw [serveAll, serveAll]
    cases found : Endpoint.ofIndex? index with
    | none =>
      rw [pure_bind, pure_bind]
      exact restInduction sound twins alike knownRest
    | some endpoint =>
      have place := Endpoint.index_of_ofIndex? found
      obtain ⟨back, knownFirst⟩ := known endpoint (by rw [place]; exact List.mem_cons_self)
      apply Together.bind
      refine ((serve_together sound twins alike back knownFirst).withFirst
        (serve_yields sound endpoint start)).mono ?_
      rintro next counterpart after otherAfter ⟨⟨twinsNext, alikeNext⟩, carried, -⟩
      exact restInduction carried.sound twinsNext alikeNext knownRest

theorem onBuffers_together (sound : first.Sound) (twins : first.Twins second) {presented : Presented}
    (alike : Alike earlier otherEarlier asked presented.Returns start other)
    (known : ∀ endpoint, presented.Returns endpoint → asked ∨ 2 ≤ endpoint.index) :
    Together (first.onBuffers presented) (second.onBuffers presented) start other
      (Matched earlier otherEarlier asked presented.Returns) (Journals earlier otherEarlier) := by
  unfold onBuffers
  split
  · exact together_pure ⟨twins, alike⟩
  · unfold onReturned
    rw [twins.board]
    refine ((raisePin_together alike _).mono fun _ _ raised otherRaised alikeRaised => ?_).bind
    refine ((raisePin_together alikeRaised _).mono fun _ _ began otherBegan alikeBegan => ?_).bind
    apply Together.bind
    refine (serveAll_together sound twins alikeBegan fun endpoint present => ?_).mono ?_
    · have returns := mem_statusPlaces.mp present
      exact ⟨returns, known endpoint returns⟩
    · rintro next counterpart after otherAfter ⟨twinsNext, alikeNext⟩
      apply Together.bind
      refine together_modifyLink ?_
      exact Matched.lowered ⟨twinsNext, alikeNext.write _⟩ _

/-! ## The rest of a turn -/

theorem settle_together (twins : first.Twins second) (presented : Presented)
    (alike : Alike earlier otherEarlier asked returned start other) :
    Together (first.settle presented) (second.settle presented) start other
      (Matched earlier otherEarlier asked returned) (Journals earlier otherEarlier) := by
  unfold settle
  split
  · obtain ⟨queue, rfl, bytes⟩ := twins
    refine (first.onBusReset_meets start).together (onBusReset_meets _ other) ?_
    rintro next after _ ⟨rfl, rfl⟩ counterpart otherAfter _ ⟨rfl, rfl⟩
    refine ⟨⟨queue, rfl, bytes⟩, ?_⟩
    exact (((((alike.write _).write _).write _).disarmAll _).write _).write _
  · exact together_pure ⟨twins, alike⟩

theorem start_together (twins : first.Twins second)
    (alike : Alike earlier otherEarlier asked returned start other) :
    Together first.start second.start start other
      (Matched earlier otherEarlier asked returned) (Journals earlier otherEarlier) := by
  obtain ⟨queue, rfl, bytes⟩ := twins
  refine (first.start_meets start).together (start_meets _ other) ?_
  intro next after _ begins counterpart otherAfter _ otherBegins
  dsimp only at otherBegins
  split at begins
  · rename_i due
    rw [if_pos due] at otherBegins
    obtain ⟨rfl, rfl⟩ := begins
    obtain ⟨rfl, rfl⟩ := otherBegins
    refine ⟨⟨queue, rfl, bytes⟩, ?_⟩
    exact (alike.armOut maxPacket (.inr (by decide))).armOut maxPacket (.inr (by decide))
  · rename_i settled
    rw [if_neg settled] at otherBegins
    obtain ⟨rfl, rfl⟩ := begins
    obtain ⟨rfl, rfl⟩ := otherBegins
    exact ⟨⟨queue, rfl, bytes⟩, alike⟩

/-- Whatever the console says is offered on its own endpoint. -/
theorem console_together {α : Type} {work : Exchange Controller α}
    (offers : Offering InEndpoint.console.number work)
    (alike : Alike earlier otherEarlier asked returned start other) :
    Together work work start other
      (fun value counterpart after otherAfter =>
        value = counterpart ∧ Alike earlier otherEarlier asked returned after otherAfter)
      (Journals earlier otherEarlier) :=
  offers.together (Alike.answers (by decide)) (fun _ _ related => related.journals) alike

theorem offering_echo (input : List UInt8) : Offering InEndpoint.console.number (echo input) := by
  unfold echo
  split
  · refine (Offering.lift _).bind fun packet => ?_
    exact (offering_sendPolling _ packet.bytes consoleTries).bind fun _ => .pure _
  · exact .pure _

theorem offering_announce (sound : first.Sound) :
    Offering InEndpoint.console.number (announce first.drive) := by
  unfold announce
  rw [← sound.consoleIn]
  exact (first.drive.offering_print _).bind fun _ => (first.drive.offering_print _).bind fun _ =>
    first.drive.offering_print _

theorem poll_together (sound : first.Sound) (twins : first.Twins second)
    (alike : Alike earlier otherEarlier asked returned start other) :
    Together first.drive.poll second.drive.poll start other
      (fun result counterpart after otherAfter =>
        Driven earlier otherEarlier asked returned first second result.1 counterpart.1 after otherAfter ∧
          result.2.flatten = counterpart.2.flatten)
      (Journals earlier otherEarlier) := by
  obtain ⟨queue, rfl, bytes⟩ := twins
  unfold Drive.poll
  apply Together.bind
  refine (storage_together sound first.drive.storage.offering_poll alike).mono ?_
  rintro storage counterpart after otherAfter ⟨rfl, alikeAfter⟩
  refine together_pure ⟨⟨⟨queue.drain.2, rfl, ?_⟩, alikeAfter⟩, ?_⟩
  · exact queue.bytes_drain.trans (ConsoleQueue.bytes_drain _).symm
  · exact (ConsoleQueue.flatten_drain _).trans (bytes.symm.trans queue.flatten_drain.symm)

/-- What was announced of a file is the same for both. -/
theorem Twins.takeChanged {drive counterpart : Drive boardCapacity}
    (twins : Twins { first with drive := drive } { second with drive := counterpart }) :
    drive.takeChanged.2 = counterpart.takeChanged.2 ∧
      announce drive.takeChanged.1 = announce counterpart.takeChanged.1 ∧
      Twins { first with drive := drive.takeChanged.1 }
        { second with drive := counterpart.takeChanged.1 } := by
  obtain ⟨queue, devices, bytes⟩ := twins
  have drives := congrArg Device.drive devices
  dsimp only at drives
  subst drives
  refine ⟨rfl, rfl, queue, ?_, bytes⟩
  exact congrArg (fun device : Device =>
    { device with drive := (Drive.takeChanged ⟨drive.storage, queue⟩).1 }) devices

theorem run_together (sound : first.Sound) (twins : first.Twins second)
    (alike : Alike earlier otherEarlier asked returned start other) :
    Together first.run second.run start other
      (Matched earlier otherEarlier asked returned) (Journals earlier otherEarlier) := by
  have started : second.started = first.started := by
    obtain ⟨queue, rfl, -⟩ := twins
    rfl
  have soundPolled : first.drive.poll.Yields start fun result _ =>
      Sound { first with drive := result.1 } :=
    (poll_meets sound start).yields fun _ _ _ met => met.1
  unfold run
  by_cases running : first.started = true
  · rw [if_pos running, if_pos (started.trans running)]
    apply Together.bind
    refine ((poll_together sound twins alike).withFirst soundPolled).mono ?_
    rintro ⟨drive, input⟩ ⟨counterpart, otherInput⟩ polled otherPolled
      ⟨⟨⟨twinsPolled, alikePolled⟩, sameInput⟩, soundDrive⟩
    dsimp only at sameInput soundDrive ⊢
    rw [← sameInput]
    apply Together.bind
    refine (console_together (offering_echo input.flatten) alikePolled).mono ?_
    rintro _ _ echoed otherEchoed ⟨rfl, alikeEchoed⟩
    obtain ⟨sameDirty, sameAnnounced, twinsClean⟩ := twinsPolled.takeChanged
    rw [← sameDirty, ← sameAnnounced]
    split
    · apply Together.bind
      have soundClean : Sound { first with drive := drive.takeChanged.1 } := soundDrive.takeChanged
      refine (console_together (offering_announce soundClean) alikeEchoed).mono ?_
      rintro _ _ after otherAfter ⟨rfl, alikeAfter⟩
      exact together_pure ⟨twinsClean, alikeAfter⟩
    · exact together_pure ⟨twinsClean, alikeEchoed⟩
  · rw [if_neg running, if_neg (fun other => running (started.symm.trans other))]
    exact together_pure ⟨twins, alike⟩

theorem finish_together (sound : first.Sound) (twins : first.Twins second) (presented : Presented)
    (board : Board) (alike : Alike earlier otherEarlier asked returned start other) :
    Together (first.finish presented board) (second.finish presented board) start other
      (Matched earlier otherEarlier asked returned) (Journals earlier otherEarlier) := by
  unfold finish
  apply Together.bind
  refine ((settle_together twins presented alike).withFirst (settle_sound sound presented start)).mono ?_
  rintro settled otherSettled quiet otherQuiet ⟨⟨twinsSettled, alikeSettled⟩, soundSettled, -⟩
  apply Together.bind
  refine ((start_together twinsSettled alikeSettled).withFirst (start_sound soundSettled quiet)).mono ?_
  rintro begun otherBegun armed otherArmed ⟨⟨twinsBegun, alikeBegun⟩, soundBegun, -⟩
  apply Together.bind
  refine (run_together soundBegun twinsBegun alikeBegun).mono ?_
  intro done otherDone after otherAfter matched
  exact matched.lowered _

theorem notice_together (sound : first.Sound) (twins : first.Twins second) {presented : Presented}
    (alike : Alike earlier otherEarlier asked presented.Returns start other)
    (known : ∀ endpoint, presented.Returns endpoint →
      (asked ∨ presented.setup.isSome = true) ∨ 2 ≤ endpoint.index) :
    Together (first.notice presented) (second.notice presented) start other
      (Matched earlier otherEarlier (asked ∨ presented.setup.isSome = true) presented.Returns)
      (Journals earlier otherEarlier) := by
  have request : Together (first.stepIf onSetup presented.setup) (second.stepIf onSetup presented.setup)
      start other (Matched earlier otherEarlier (asked ∨ presented.setup.isSome = true) presented.Returns)
      (Journals earlier otherEarlier) := by
    cases presented.setup with
    | none => exact together_pure ⟨twins, alike.ofAsked fun ask => ask.resolve_right Bool.false_ne_true⟩
    | some bytes =>
      refine (onSetup_together twins alike bytes).mono ?_
      rintro next counterpart after otherAfter ⟨twinsNext, alikeNext⟩
      exact ⟨twinsNext, alikeNext.ofAsked fun _ => trivial⟩
  have soundAsked : (first.stepIf onSetup presented.setup).Yields start fun next _ => next.Sound := by
    refine (first.stepIf_meets_asked presented.setup start).yields ?_
    rintro next after events ⟨rfl, -⟩
    exact sound_asked sound presented.setup
  apply Together.bind
  refine (request.withFirst soundAsked).mono ?_
  rintro next counterpart after otherAfter ⟨⟨twinsNext, alikeNext⟩, soundNext⟩
  exact onBuffers_together soundNext twinsNext alikeNext known

/-- A turn of both goes the same way, as long as no buffer of the control endpoint comes back before a request
has come. -/
theorem turn_together (sound : first.Sound) (twins : first.Twins second) {presented : Presented}
    (released : presented.Released) (whole : presented.Whole)
    (known : asked ∨ presented.setup.isSome = true ∨ ∀ buffer ∈ presented.returned, 2 ≤ buffer.index)
    (alike : Alike earlier otherEarlier asked (fun _ => False) start other) :
    Together (first.turn presented) (second.turn presented) start other
      (Matched earlier otherEarlier (asked ∨ presented.setup.isSome = true) (fun _ => False))
      (Journals earlier otherEarlier) := by
  unfold turn
  apply Together.bind
  refine together_modifyLink ?_
  have alikeHanded : Alike earlier otherEarlier asked presented.Returns (handed start presented)
      (handed other presented) :=
    (alike.handBackAll released whole).weaken fun _ back => .inr back
  rw [handle_parts, handle_parts, twins.board]
  apply Together.bind
  refine ((notice_together sound twins alikeHanded ?_).withFirst (notice_yields sound presented _)).mono ?_
  · rintro endpoint ⟨buffer, present, place⟩
    rcases known with ask | setup | bulk
    · exact .inl (.inl ask)
    · exact .inl (.inr setup)
    · exact .inr (place ▸ bulk buffer present)
  · rintro served otherServed between otherBetween ⟨⟨twinsServed, alikeServed⟩, noticed⟩
    exact finish_together noticed.sound twinsServed presented first.board
      (alikeServed.weaken fun _ => False.elim)

end Device

end ScriptDrive
