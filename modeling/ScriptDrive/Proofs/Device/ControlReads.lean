import ScriptDrive.Proofs.Device.Leftover

/-!
# Reads on the control endpoint

A host reads data from the control endpoint in packets, one for each time it collects the one before.
`ControlView` is what a control transfer depends on, of the device and of its controller.  In a turn
without a request, a bus reset and a packet on the control endpoint it moves on if the host collected a
packet, and otherwise stays, whatever happens on the bulk endpoints: `turn_view`.  `ControlRead` says how
far a read has come, and `ControlRead.collected` takes it one packet further; from both, by induction on
the turns, follows `turns_reads`.
-/

set_option autoImplicit false

namespace ScriptDrive

/-! ## What a read takes -/

/-- The packets of a read: what is asked for, cut at the multiples of 64, and an empty packet behind it if
there is nothing at all, or if the data ends on a full packet short of what was asked for. -/
def readPackets (data : List UInt8) (requested : Nat) : List (List UInt8) :=
  let cut := data.take requested
  ((List.range ((cut.length + 63) / 64)).map fun number => (cut.drop (64 * number)).take 64) ++
    if cut = [] ∨ cut.length < requested ∧ cut.length % 64 = 0 then [[]] else []

/-- The writes by which packets are handed to the control endpoint, of the odd kind and the even kind in
turn, and by which room is made for the host's status in the end. -/
def readWrites (packets : List (List UInt8)) : List Write :=
  packets.mapIdx (fun number bytes => .buffer (.toHost .control)
    { full := true, data1 := number % 2 == 0, available := true, length := bytes.length }
    (some (.front bytes))) ++
    [.buffer (.fromHost .control) { data1 := true, available := true, length := 0 } none]

theorem DataStage.packets_opening (data : List UInt8) (requested : Nat) :
    (opening data requested).packets.map Packet.bytes =
      chunks (data.take requested) ++
        if (data.take requested).length < requested ∧ (data.take requested).length % 64 = 0 then [[]]
        else [] := by
  have due : (opening data requested).emptyDue = true ↔
      (data.take requested).length < requested ∧ (data.take requested).length % 64 = 0 := by
    rw [opening, Bool.and_eq_true, decide_eq_true_iff, beq_iff_eq, maxPacket]
  rw [packets, List.map_append, chunks]
  simp only [due]
  congr 1
  split <;> rfl

/-- The first packet of a data stage and those it still has to send then. -/
theorem DataStage.packets_read (data : List UInt8) (requested : Nat) :
    ((opened data requested).1 :: (opened data requested).2.packets).map Packet.bytes =
      readPackets data requested := by
  obtain ⟨first, rest⟩ := packets_opened data requested
  have bytesAre := packets_opening data requested
  rw [first, rest, readPackets, ← chunks_eq]
  cases packets : (opening data requested).packets with
  | nil =>
    rw [packets, List.map_nil, eq_comm, List.append_eq_nil_iff, chunks_eq_nil_iff] at bytesAre
    rw [if_pos (.inl bytesAre.1), bytesAre.1, chunks_nil]
    rfl
  | cons packet later =>
    rw [packets] at bytesAre
    rw [List.headD_cons, List.tail_cons, bytesAre]
    by_cases due : (data.take requested).length < requested ∧ (data.take requested).length % 64 = 0
    · rw [if_pos due, if_pos (.inr due)]
    · have some : data.take requested ≠ [] := by
        intro nothing
        rw [if_neg due, nothing, chunks_nil] at bytesAre
        cases bytesAre
      rw [if_neg due, if_neg fun either => either.elim some due]

/-! ## The view of a control transfer -/

structure ControlView where
  left : Unfinished
  side : ControlSide

def ControlView.collected (view : ControlView) : ControlView :=
  ⟨view.left.collected.1, view.side.act view.left.collected.2⟩

def Device.controlView (device : Device) (controller : Controller) : ControlView :=
  ⟨device.unfinished, controller.controlSide⟩

/-- The read of some packets has come this far: `count` writes have been made for it, since those in
`earlier`. -/
structure ControlRead (packets : List Packet) (earlier : List Write) (count : Nat) (view : ControlView) :
    Prop where
  left : view.left.agenda = (packets.drop count).map .send
  writes : view.side.writes = earlier ++ (readWrites (packets.map Packet.bytes)).take count
  next : count ≤ packets.length → view.side.nextIn = (count % 2 == 0) ∧ view.side.nextOut = true

section Reading

variable {packets : List Packet} {earlier : List Write} {count : Nat} {view : ControlView}

theorem readWrites_of_lt {packets : List (List UInt8)} {number : Nat} (inside : number < packets.length) :
    (readWrites packets)[number]? = some (.buffer (.toHost .control)
      { full := true, data1 := number % 2 == 0, available := true, length := packets[number].length }
      (some (.front packets[number]))) := by
  rw [readWrites, List.getElem?_append_left (by rw [List.length_mapIdx]; exact inside),
    List.getElem?_mapIdx, List.getElem?_eq_getElem inside, Option.map_some]

theorem readWrites_last (packets : List (List UInt8)) :
    (readWrites packets)[packets.length]? =
      some (.buffer (.fromHost .control) { data1 := true, available := true, length := 0 } none) := by
  rw [readWrites, List.getElem?_append_right (Nat.le_of_eq List.length_mapIdx), List.length_mapIdx,
    Nat.sub_self]
  rfl

/-- A read begins with its first packet, of the odd kind. -/
theorem ControlRead.opened (data : List UInt8) (requested : Nat) (earlier : List Write) :
    ControlRead ((DataStage.opened data requested).1 :: (DataStage.opened data requested).2.packets) earlier 1
      ⟨{ stage := (DataStage.opened data requested).2 },
        ControlSide.act ⟨earlier, true, true⟩ (.send (DataStage.opened data requested).1)⟩ where
  left := rfl
  writes := by
    rw [List.map_cons, readWrites, List.mapIdx_cons, Packet.front_bytes]
    rfl
  next := fun _ => ⟨rfl, rfl⟩

/-- A packet collected is followed by the next one, and the last by room for the status. -/
theorem ControlRead.collected (reads : ControlRead packets earlier count view)
    (more : count ≤ packets.length) :
    ControlRead packets earlier (count + 1) view.collected := by
  obtain ⟨left, writes, kinds⟩ := reads
  obtain ⟨nextIn, nextOut⟩ := kinds more
  obtain ⟨actIs, agenda⟩ := view.left.collected_of_agenda
  have written (made : Write)
      (next : (readWrites (packets.map Packet.bytes))[count]? = some made) :
      view.side.writes ++ [made] =
        earlier ++ (readWrites (packets.map Packet.bytes)).take (count + 1) := by
    rw [writes, List.append_assoc, List.take_add_one, next]
    rfl
  have leftNext : view.collected.left.agenda = (packets.drop (count + 1)).map .send := by
    rw [← List.tail_drop, List.map_tail, ← left]
    exact agenda
  rcases Nat.lt_or_eq_of_le more with before | last
  · -- The next packet is of the other kind than the one before.
    have send : view.left.collected.2 = .send packets[count] := by
      rw [actIs, left, List.drop_eq_getElem_cons before]
      rfl
    have next : (readWrites (packets.map Packet.bytes))[count]? = some (.buffer (.toHost .control)
        { full := true, data1 := view.side.nextIn, available := true,
          length := packets[count].bytes.length } (some packets[count])) := by
      rw [readWrites_of_lt (by rw [List.length_map]; exact before), List.getElem_map, nextIn,
        Packet.front_bytes]
    have sideIs : view.collected.side = view.side.act (.send packets[count]) := by
      rw [ControlView.collected, send]
    have other : (!(count % 2 == 0)) = ((count + 1) % 2 == 0) := by
      rw [Bool.eq_iff_iff, Bool.not_eq_true', beq_eq_false_iff_ne, beq_iff_eq]
      omega
    refine ⟨leftNext, ?_, fun _ => ?_⟩
    · rw [sideIs, ← written _ next]
      rfl
    · rw [sideIs, ← other, ← nextIn]
      exact ⟨rfl, nextOut⟩
  · -- Nothing is left to send, so the host's status is all that is still due.
    have room : view.left.collected.2 = .room 0 := by
      rw [actIs, left, last, List.drop_length]
      rfl
    have next : (readWrites (packets.map Packet.bytes))[count]? = some (.buffer (.fromHost .control)
        { data1 := view.side.nextOut, available := true, length := 0 } none) := by
      have whole := readWrites_last (packets.map Packet.bytes)
      rw [List.length_map, ← last] at whole
      rw [whole, nextOut]
    have sideIs : view.collected.side = view.side.act (.room 0) := by
      rw [ControlView.collected, room]
    refine ⟨leftNext, ?_, fun within => absurd within (by omega)⟩
    rw [sideIs, ← written _ next]
    rfl

end Reading

/-! ## Turns -/

/-- No bus reset and no packet from the host disturbs the control transfer, and no buffer is stuck. -/
structure Presented.Undisturbed (presented : Presented) : Prop where
  noReset : presented.busReset = false
  noPacket : ¬ presented.Returns (.fromHost .control)
  released : presented.Released

def ControlView.afterTurn (view : ControlView) (presented : Presented) : ControlView :=
  if presented.Returns (.toHost .control) then view.collected else view

namespace Device

variable {device : Device} {presented : Presented}

/-- Only the half of the control endpoint towards the host shows, if its buffer came back. -/
theorem serveIf_side (sound : device.Sound) (presented : Presented) (start : Controller) :
    (device.serveIf presented (.toHost .control)).Yields start fun next after =>
      next.Sound ∧ after.controlSide =
        ((device.controlView start).afterTurn presented).side := by
  unfold serveIf ControlView.afterTurn
  split
  · refine device.serve_yields_attend (.toHost .control) start fun _ => ?_
    refine (device.onControlCollected_meets _).yields ?_
    rintro next after events ⟨rfl, rfl⟩
    refine ⟨sound.of_drive rfl, ?_⟩
    rw [Controller.controlSide_write _ rfl, Controller.controlSide_act, Controller.controlSide_write _ rfl]
    rfl
  · exact Exchange.yields_pure _ _ ⟨sound, rfl⟩

theorem onBuffers_side (sound : device.Sound) (noPacket : ¬ presented.Returns (.fromHost .control))
    (start : Controller) :
    (device.onBuffers presented).Yields start fun next after =>
      next.Sound ∧ after.controlSide =
        ((device.controlView start).afterTurn presented).side := by
  refine device.onBuffers_yields_serveAll presented start ?_ ?_
  · intro nothing
    rw [ControlView.afterTurn, if_neg (nothing _)]
    exact ⟨sound, rfl⟩
  · rw [serveAll_statusPlaces]
    refine Exchange.Yields.bind ((serveIf_side sound presented _).mono ?_)
    rintro collected between ⟨soundCollected, side⟩
    rw [serveIf, if_neg noPacket, pure_bind]
    refine (serveAll_drove soundCollected bulk_of_mem_bulkPlaces between).mono ?_
    intro next after drove
    refine ⟨drove.sound, ?_⟩
    rw [Controller.controlSide_write _ rfl, Controller.controlSide_write _ rfl, drove.side, side,
      controlView, controlView, Controller.controlSide_write _ rfl, Controller.controlSide_write _ rfl]

theorem proceed_side (sound : device.Sound) (undisturbed : presented.Undisturbed) (board : Board)
    (start : Controller) :
    (device.proceed presented board).Yields start fun _ after =>
      after.controlSide = ((device.controlView start).afterTurn presented).side := by
  refine Exchange.Yields.bind ((onBuffers_side sound undisturbed.noPacket start).mono ?_)
  rintro served between ⟨soundServed, side⟩
  rw [settle, undisturbed.noReset, if_neg Bool.false_ne_true, pure_bind]
  refine Exchange.Meets.thenYields ((served.start_meets between).mono ?_)
  intro begun armed _ begins
  obtain ⟨soundBegun, sideBegun⟩ : begun.Sound ∧ armed.controlSide = between.controlSide := by
    split at begins
    · obtain ⟨rfl, rfl⟩ := begins
      exact ⟨soundServed.of_drive rfl, controlSide_receiving between⟩
    · obtain ⟨rfl, rfl⟩ := begins
      exact ⟨soundServed, rfl⟩
  refine Exchange.Meets.thenYields ((run_meets soundBegun armed).mono ?_)
  rintro done after _ ⟨drove, -⟩
  refine Exchange.Meets.thenYields ((meets_lowerPin ..).mpr (Exchange.yields_pure _ _ ?_))
  rw [Controller.controlSide_write _ rfl, drove.side, sideBegun, side]

/-- What is left of a control transfer goes on only when the host collects a packet. -/
theorem afterServing_eq (undisturbed : presented.Undisturbed) (controller : Controller) :
    device.unfinished.afterServing presented =
      ((device.controlView controller).afterTurn presented).left := by
  rw [Unfinished.afterServing, undisturbed.noReset, if_neg Bool.false_ne_true,
    if_neg undisturbed.noPacket, ControlView.afterTurn]
  split <;> rfl

theorem proceed_view (sound : device.Sound) (undisturbed : presented.Undisturbed) {start : Controller}
    (free : ∀ endpoint : Endpoint, endpoint ≠ .fromHost .control → presented.Returns endpoint →
      start.holds endpoint = false) (board : Board) :
    (device.proceed presented board).Meets start fun next after _ =>
      next.Sound ∧ next.controlView after = (device.controlView start).afterTurn presented := by
  have clear : ¬ device.Blocked presented start := by
    rintro (⟨returns, held⟩ | ⟨returns, -⟩)
    · rw [free _ Endpoint.noConfusion returns] at held
      cases held
    · exact undisturbed.noPacket returns
  obtain ⟨next, result, soundNext, left, -⟩ :=
    proceed_meets sound clear (fun endpoint bulk => free endpoint (apart_control_out bulk)) board
  have side := proceed_side sound undisturbed board start next result
  refine ⟨next, result, soundNext, ?_⟩
  rw [controlView, side, left, afterServing_eq undisturbed start]

theorem controlSide_handed (controller : Controller) (presented : Presented) :
    (handed controller presented).controlSide = controller.controlSide := by
  unfold handed
  induction presented.returned generalizing controller with
  | nil => rfl
  | cons buffer rest restInduction =>
    rw [List.foldl_cons, restInduction, Controller.controlSide_handBack]

/-- A turn without a request goes on with the control transfer if the host collected a packet, and else
leaves it as it is. -/
theorem turn_view (sound : device.Sound) (undisturbed : presented.Undisturbed)
    (noRequest : presented.setup = none) (controller : Controller) :
    (device.turn presented).Meets controller fun next after _ =>
      next.Sound ∧ next.controlView after = (device.controlView controller).afterTurn presented := by
  have view : device.controlView (handed controller presented) = device.controlView controller := by
    rw [controlView, controlSide_handed]
    rfl
  rw [← view]
  simp only [turn, handle_eq, noRequest, stepIf, pure_bind, Exchange.meets_bind,
    Exchange.meets_modifyLink]
  exact proceed_view sound undisturbed
    (fun _ _ returns => holds_handed undisturbed.released returns) device.board

/-! ## The request -/

def turnReading (device : Device) (data : List UInt8) (requested : Nat) (presented : Presented) :
    Exchange Controller Device := do
  Exchange.modifyLink fun controller => presented.returned.foldl Controller.handBack controller
  let asked ← device.onRequest fun fresh => fresh.openStage data requested
  asked.proceed presented device.board

/-- The requests for the device's and for the configuration's descriptors are answered by reads. -/
theorem turn_eq_turnReading {bytes : Octets 8} (brought : presented.setup = some bytes)
    {name : DescriptorName} {data : List UInt8}
    (described : (name, data) ∈ [(.device, Descriptor.device), (.configuration, Descriptor.configuration)])
    (asks : (Setup.ofBytes bytes).asks = .getDescriptor name) :
    device.turn presented =
      device.turnReading data (Setup.ofBytes bytes).length.toNat presented := by
  have answer (fresh : Device) : fresh.answer (.ofBytes bytes) =
      fresh.openStage data (Setup.ofBytes bytes).length.toNat := by
    rw [answer, asks]
    simp only [List.mem_cons, Prod.mk.injEq, List.not_mem_nil, or_false] at described
    rcases described with ⟨rfl, rfl⟩ | ⟨rfl, rfl⟩
    · rfl
    · rfl
  rw [turn, turnReading, ← funext answer, ← onSetup_eq]
  simp only [handle_eq, brought, stepIf]

theorem controlSide_takenUp (board : Board) (controller : Controller) :
    (takenUp board controller).controlSide = ⟨controller.controlWrites, true, true⟩ := by
  have writes : (takenUp board controller).writes = controller.writes ++
      ([.register .pinRaise (bit board.lampPin)] ++ ([.register .pinRaise (bit setupPin)] ++
        [.register .serialStatus (bit 17)])) :=
    (List.append_assoc ..).trans (List.append_assoc ..)
  apply ControlSide.ext
  · exact (Controller.controlWrites_of_writes writes).trans (List.append_nil _)
  · rfl
  · rfl

/-- Once a request is answered by a read, the first packet has been handed over. -/
theorem turnReading_view (sound : device.Sound) (noAddress : device.newAddress = none)
    (undisturbed : presented.Undisturbed) (idle : ¬ presented.Returns (.toHost .control))
    (data : List UInt8) (requested : Nat) (controller : Controller) :
    (device.turnReading data requested presented).Meets controller fun next after _ =>
      next.Sound ∧
        ControlRead ((DataStage.opened data requested).1 :: (DataStage.opened data requested).2.packets)
          controller.controlWrites 1 (next.controlView after) := by
  simp only [turnReading, Exchange.meets_bind, Exchange.meets_modifyLink]
  refine device.onRequest_meets ((device.dropped.openStage_meets data requested _).mono ?_)
  rintro asked answered events ⟨rfl, rfl⟩
  generalize noticedIs : Controller.write _ (.register .pinLower (bit setupPin)) = noticed
  have free (endpoint : Endpoint) (notOut : endpoint ≠ .fromHost .control)
      (returns : presented.Returns endpoint) : noticed.holds endpoint = false := by
    have notIn : endpoint ≠ .toHost .control := fun same => idle (same ▸ returns)
    rw [← noticedIs, Controller.holds_write, Controller.holds_act_of_ne _ _ notIn notOut, holds_takenUp]
    exact holds_handed undisturbed.released returns
  have writes : (handed controller presented).controlWrites = controller.controlWrites :=
    congrArg ControlSide.writes (controlSide_handed controller presented)
  have side : noticed.controlSide = ControlSide.act ⟨controller.controlWrites, true, true⟩
      (.send (DataStage.opened data requested).1) := by
    rw [← noticedIs, Controller.controlSide_write _ rfl, Controller.controlSide_act, controlSide_takenUp,
      ← writes]
    rfl
  have soundAsked : Sound { device.dropped with stage := (DataStage.opened data requested).2 } :=
    sound.of_drive rfl
  refine (proceed_view soundAsked undisturbed free device.board).mono ?_
  rintro next after later ⟨soundNext, view⟩
  refine ⟨soundNext, ?_⟩
  rw [view, ControlView.afterTurn, if_neg idle, controlView, side]
  simp only [unfinished, dropped, noAddress]
  exact .opened data requested _

/-! ## Runs -/

def collections (later : List Presented) : Nat :=
  later.countP fun presented => decide (presented.Returns (.toHost .control))

/-- As long as the host does not collect more packets than there are, a read goes on by one write for each
that it does. -/
theorem turns_reads {packets : List Packet} {earlier : List Write} {later : List Presented} {count : Nat}
    {controller : Controller} (sound : device.Sound)
    (undisturbed : ∀ presented ∈ later, presented.Undisturbed ∧ presented.setup = none)
    (reads : ControlRead packets earlier count (device.controlView controller))
    (enough : count + collections later ≤ packets.length + 1) :
    ∃ last, device.turns controller later = some last ∧
      ControlRead packets earlier (count + collections later) (last.1.controlView last.2) := by
  -- A packet collected raises `count` by one and leaves one turn less to collect in.
  induction later generalizing device controller count with
  | nil => exact ⟨_, rfl, reads⟩
  | cons presented later laterInduction =>
    obtain ⟨⟨quiet, noRequest⟩, laterQuiet⟩ := List.forall_mem_cons.mp undisturbed
    obtain ⟨next, result, soundNext, view⟩ := turn_view sound quiet noRequest controller
    rw [turns, result]
    rw [ControlView.afterTurn] at view
    by_cases collected : presented.Returns (.toHost .control)
    · have counted : collections (presented :: later) = collections later + 1 :=
        List.countP_cons_of_pos (decide_eq_true collected)
      have shifted : count + collections (presented :: later) = count + 1 + collections later := by omega
      rw [if_pos collected] at view
      rw [shifted] at enough ⊢
      refine laterInduction soundNext laterQuiet ?_ enough
      rw [view]
      exact reads.collected (by omega)
    · have counted : collections (presented :: later) = collections later :=
        List.countP_cons_of_neg (by rw [decide_eq_true_iff]; exact collected)
      rw [if_neg collected] at view
      rw [counted] at enough ⊢
      refine laterInduction soundNext laterQuiet ?_ enough
      rw [view]
      exact reads

/-- A read on the control endpoint, of any data and of any length asked for, with no address awaited.  What
the device writes to the control endpoint from the request on are the packets of the read, of the odd kind
and the even kind in turn, the first with the request and another one each time the host collects the one
before, and room for the status once it has collected the last, whatever happens on the bulk endpoints
meanwhile.  The requests for the device's and the configuration's descriptors are such reads. -/
theorem Reached.control_read {board : Board} {controller : Controller}
    (reached : Reached board device controller) (noAddress : device.newAddress = none)
    (undisturbed : presented.Undisturbed) (idle : ¬ presented.Returns (.toHost .control))
    (data : List UInt8) (requested : Nat) :
    (∀ bytes name, presented.setup = some bytes → (Setup.ofBytes bytes).length.toNat = requested →
      (Setup.ofBytes bytes).asks = .getDescriptor name →
      (name, data) ∈ [(.device, Descriptor.device), (.configuration, Descriptor.configuration)] →
        device.turn presented = device.turnReading data requested presented) ∧
    ∃ next, (device.turnReading data requested presented controller).result = .ok next ∧
      ∀ later : List Presented, (∀ turn ∈ later, turn.Undisturbed ∧ turn.setup = none) →
        collections later ≤ (readPackets data requested).length →
        ∃ last,
          next.turns (device.turnReading data requested presented controller).link later = some last ∧
          last.2.controlWrites = controller.controlWrites ++
            (readWrites (readPackets data requested)).take (1 + collections later) := by
  constructor
  · rintro bytes name brought rfl asks described
    exact device.turn_eq_turnReading brought described asks
  · obtain ⟨next, result, sound, reads⟩ :=
      turnReading_view reached.sound.1 noAddress undisturbed idle data requested controller
    refine ⟨next, result, fun later laterQuiet enough => ?_⟩
    have packets := DataStage.packets_read data requested
    have size := congrArg List.length packets
    rw [List.length_map] at size
    obtain ⟨last, went, readsLast⟩ := turns_reads sound laterQuiet reads (by omega)
    refine ⟨last, went, ?_⟩
    rw [← packets]
    exact readsLast.writes

def collectsCommanding (wrapper : CommandWrapper) : Presented :=
  { returned := collects.returned ++ (commanding wrapper).returned }

/-- The host reads the 98 bytes of the configuration's descriptor, and sends a command to the disk when it
collects the first packet of them. -/
theorem Reached.control_read_configuration :
    ∃ device controller last, Reached .pico device controller ∧ device.newAddress = none ∧
      device.turns controller
        [asksForConfiguration, collectsCommanding (.reading 7 65 1), collects] = some last ∧
      last.2.controlWrites = controller.controlWrites ++
        [.buffer (.toHost .control) { full := true, data1 := true, available := true, length := 64 }
            (some (.front (Descriptor.configuration.take 64))),
          .buffer (.toHost .control) { full := true, data1 := false, available := true, length := 34 }
            (some (.front (Descriptor.configuration.drop 64))),
          .buffer (.fromHost .control) { data1 := true, available := true, length := 0 } none] := by
  have ran : (poweredUp [configuring]).any (fun before => decide (before.1.newAddress = none)) = true := by
    decide +kernel
  simp only [Option.any_eq_true, decide_eq_true_eq] at ran
  obtain ⟨before, went, noAddress⟩ := ran
  have reached := reached_of_poweredUp went
  have undisturbed : asksForConfiguration.Undisturbed := ⟨rfl, by decide, released_of_returned rfl⟩
  obtain ⟨isRead, next, result, goesOn⟩ :=
    reached.control_read noAddress undisturbed (by decide) Descriptor.configuration 98
  have quiet : ∀ turn ∈ [collectsCommanding (.reading 7 65 1), collects],
      turn.Undisturbed ∧ turn.setup = none := by
    refine List.forall_mem_cons.mpr ⟨⟨⟨rfl, by decide, by rw [Presented.Released]; decide⟩, rfl⟩, ?_⟩
    exact List.forall_mem_singleton.mpr ⟨⟨rfl, by decide, collects_released⟩, rfl⟩
  obtain ⟨last, wentOn, writes⟩ := goesOn _ quiet (by decide)
  have same := isRead _ .configuration rfl (by decide) (by decide) (.tail _ (.head _))
  refine ⟨before.1, before.2, last, reached, noAddress, ?_, writes.trans (congrArg _ (by decide))⟩
  rw [Device.turns, same, result]
  exact wentOn

end Device

end ScriptDrive
