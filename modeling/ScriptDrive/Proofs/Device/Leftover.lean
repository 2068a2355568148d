import ScriptDrive.Proofs.Device.DiskTurns

/-!
# What is left of a command that was dropped

The host drops the command in flight by a bus reset or by a bulk-only reset.  The transport is idle then, and
until the next command it hands the host nothing; but only a bus reset takes back a packet that waits on the
disk's endpoint already.  `Cleared` keeps track of that packet, and `Cleared.collects` says that nothing else
is left: whatever the host gets after the next command is the response to it, from the first packet on.

`packet_outlives_reset` is a run in which the packet is there: the host collects it as if it were an answer
to the command it sent after the reset.
-/

set_option autoImplicit false

namespace ScriptDrive

def Presented.keeps (presented : Presented) : Bool :=
  !presented.busReset && !decide (presented.Returns (.toHost .disk))

namespace Device

/-- The states since a turn that dropped the command in flight, as long as no command has come since.
`left` tells whether a packet that waited on the disk's endpoint then is still there. -/
inductive Cleared (board : Board) : Bool → Device → Controller → Prop
  | dropped {device next : Device} {controller : Controller} {presented : Presented}
      (before : Reached board device controller)
      (drops : presented.busReset = true ∨
        presented.command? (handed controller presented) = none ∧ presented.AsksReset)
      (turned : (device.turn presented controller).result = .ok next) :
      Cleared board (controller.holds (.toHost .disk) && presented.keeps) next
        (device.turn presented controller).link
  | turn {left : Bool} {device next : Device} {controller : Controller} {presented : Presented}
      (before : Cleared board left device controller)
      (quiet : presented.command? (handed controller presented) = none)
      (turned : (device.turn presented controller).result = .ok next) :
      Cleared board (left && presented.keeps) next (device.turn presented controller).link

inductive Uncommanded (device : Device) (controller : Controller) : Device → Controller → Prop
  | nothing : Uncommanded device controller device controller
  | turn {last next : Device} {after : Controller} {presented : Presented}
      (before : Uncommanded device controller last after)
      (quiet : presented.command? (handed after presented) = none)
      (turned : (last.turn presented after).result = .ok next) :
      Uncommanded device controller next (last.turn presented after).link

/-! ## Turns one after the other -/

def turns (device : Device) (controller : Controller) : List Presented → Option (Device × Controller)
  | [] => some (device, controller)
  | presented :: later =>
    match (device.turn presented controller).result with
    | .ok next => next.turns (device.turn presented controller).link later
    | .error _ => none

theorem of_turns_cons {device : Device} {controller : Controller} {presented : Presented}
    {later : List Presented} {last : Device × Controller}
    (went : device.turns controller (presented :: later) = some last) :
    ∃ next, (device.turn presented controller).result = .ok next ∧
      next.turns (device.turn presented controller).link later = some last := by
  rw [turns] at went
  cases turned : (device.turn presented controller).result with
  | error fault =>
    rw [turned] at went
    cases went
  | ok next =>
    rw [turned] at went
    exact ⟨next, rfl, went⟩

theorem Reached.turns {board : Board} {device : Device} {controller : Controller} {later : List Presented}
    {last : Device × Controller} (reached : Reached board device controller)
    (went : device.turns controller later = some last) : Reached board last.1 last.2 := by
  induction later generalizing device controller with
  | nil =>
    cases went
    exact reached
  | cons presented later laterInduction =>
    obtain ⟨next, turned, wentOn⟩ := of_turns_cons went
    exact laterInduction (reached.turn turned) wentOn

def commanding (wrapper : CommandWrapper) : Presented :=
  { returned := [{ address := 6, data := wrapper.encode, length := 31 }] }

/-- The host asks for a bulk-only reset. -/
def recovering : Presented :=
  { setup := some ⟨[0x21, 0xFF, 0, 0, 2, 0, 0, 0], rfl⟩ }

def collecting : Presented :=
  { returned := [{ address := 0x85 }] }

def poweredUp (later : List Presented) : Option (Device × Controller) :=
  (Device.powerUp .pico).toOption.bind fun device => device.turns (.powerUp (bringUpWrites .pico 0)) later

theorem reached_of_poweredUp {later : List Presented} {last : Device × Controller}
    (went : poweredUp later = some last) : Reached .pico last.1 last.2 := by
  obtain ⟨device, started, wentOn⟩ := Option.bind_eq_some_iff.mp went
  have powered : Device.powerUp .pico = .ok device := by
    cases startedIs : Device.powerUp .pico with
    | error fault =>
      rw [startedIs] at started
      cases started
    | ok other =>
      rw [startedIs] at started
      cases started
      rfl
  exact (Reached.powerUp 0 powered).turns wentOn

/-- A bulk-only reset that comes while a packet waits leaves it waiting. -/
theorem Cleared.of_recovering {later : List Presented} {before dropped : Device × Controller}
    (went : poweredUp later = some before) (held : before.2.holds (.toHost .disk) = true)
    (recovered : before.1.turns before.2 [recovering] = some dropped) :
    Cleared .pico true dropped.1 dropped.2 := by
  obtain ⟨next, turned, same⟩ := of_turns_cons recovered
  cases same
  have noCommand : recovering.command? (handed before.2 recovering) = none := if_neg (by decide)
  have asks : recovering.AsksReset := by decide
  have cleared := Cleared.dropped (reached_of_poweredUp went) (.inr ⟨noCommand, asks⟩) turned
  rw [held] at cleared
  exact cleared

/-! ## What is collected -/

theorem Uncommanded.supplies {device last : Device} {controller after : Controller}
    (sound : device.Sound) (uncommanded : device.Uncommanded controller last after) :
    last.Sound ∧ Supplies device.drive.storage.due controller last.drive.storage.due after := by
  induction uncommanded with
  | nothing => exact ⟨sound, .of_packets rfl List.prefix_rfl⟩
  | turn before quiet turned beforeInduction =>
    obtain ⟨soundBefore, supplies⟩ := beforeInduction
    have handles := turn_handles soundBefore _ _ _ turned
    exact ⟨(turn_sound soundBefore _ _ _ turned).1, supplies.trans (handles.supplies quiet)⟩

variable {board : Board} {left : Bool} {device : Device} {controller : Controller}

theorem Cleared.rests (cleared : Cleared board left device controller) :
    device.Sound ∧ device.drive.storage.transfer = .idle ∧ controller.holds (.toHost .disk) = left := by
  induction cleared with
  | dropped before drops turned =>
    have sound := before.sound.1
    have handles := turn_handles sound _ _ _ turned
    refine ⟨(turn_sound sound _ _ _ turned).1, handles.rests (drops.imp id fun quiet => ?_)⟩
    exact ⟨quiet.1, .inr quiet.2⟩
  | turn before quiet turned beforeInduction =>
    obtain ⟨sound, idle, held⟩ := beforeInduction
    have handles := turn_handles sound _ _ _ turned
    rw [← held]
    exact ⟨(turn_sound sound _ _ _ turned).1, handles.rests (.inr ⟨quiet, .inl idle⟩)⟩

/-- The packets that go out by a supply are as they were promised. -/
theorem packets_of_supplies {storage : Storage boardCapacity} {wrapper : CommandWrapper}
    {start after : Controller} {due : List (List UInt8)}
    (supplies : Supplies (storage.response wrapper) start due after) :
    ∃ packets : List Packet,
      after.packetsFor (.toHost .disk) = start.packetsFor (.toHost .disk) ++ packets ∧
        packets.map Packet.bytes <+: storage.response wrapper := by
  obtain ⟨sent, packets, prefixed⟩ := supplies
  have front : sent <+: storage.response wrapper := (List.prefix_append sent due).trans prefixed
  have whole : (sent.map Packet.front).map Packet.bytes = sent := by
    rw [List.map_map]
    refine (List.map_congr_left fun bytes present => ?_).trans (List.map_id _)
    exact Packet.bytes_front_of_le (Storage.length_le_of_mem_response (front.subset present))
  refine ⟨_, packets, ?_⟩
  rw [whole]
  exact front

/-- Once a reset of either kind has dropped a command, the transport is idle until the next one, and the
disk's endpoint is armed only with a packet that waited there when a bulk-only reset came.  All that it is
handed from the next command on, before another one comes, is the response to that command. -/
theorem Cleared.collects (cleared : Cleared board left device controller) :
    device.drive.phase = .idle ∧ controller.holds (.toHost .disk) = left ∧
      ∀ presented wrapper next last after,
        presented.command? (handed controller presented) = some wrapper →
        (device.turn presented controller).result = .ok next →
        next.Uncommanded (device.turn presented controller).link last after →
          ∃ packets : List Packet,
            after.packetsFor (.toHost .disk) = controller.packetsFor (.toHost .disk) ++ packets ∧
              packets.map Packet.bytes <+: device.drive.storage.response wrapper := by
  obtain ⟨sound, idle, held⟩ := cleared.rests
  refine ⟨?_, held, ?_⟩
  · rw [Drive.phase, idle]
    rfl
  · intro presented wrapper next last after delivered turned uncommanded
    have handles := turn_handles sound _ _ _ turned
    have later := uncommanded.supplies (turn_sound sound _ _ _ turned).1
    exact packets_of_supplies ((handles.answers wrapper delivered idle).trans later.2)

/-- The host gives up a read after its first packet, resets the transport and collects that packet.  Then its
next command is answered. -/
theorem Cleared.collects_after_packet :
    ∃ device controller next packet, Cleared .pico false device controller ∧
      (device.drive.phase = .idle ∧ controller.holds (.toHost .disk) = false) ∧
      (device.turn (commanding (.reading 8 33 1)) controller).result = .ok next ∧
      (device.turn (commanding (.reading 8 33 1)) controller).link.packetsFor (.toHost .disk) =
        controller.packetsFor (.toHost .disk) ++ [packet] ∧
      [packet.bytes] <+: device.drive.storage.response (.reading 8 33 1) := by
  have ran : (poweredUp [configuring, commanding (.reading 7 65 1)]).any (fun before =>
      before.2.holds (.toHost .disk) && (before.1.turns before.2 [recovering]).any fun dropped =>
        (dropped.1.turns dropped.2 [collecting]).any fun collected =>
          decide ((commanding (.reading 8 33 1)).command?
            (handed collected.2 (commanding (.reading 8 33 1))) = some (.reading 8 33 1)) &&
          (collected.1.turns collected.2 [commanding (.reading 8 33 1)]).any fun last =>
            decide ((last.2.packetsFor (.toHost .disk)).length =
              (collected.2.packetsFor (.toHost .disk)).length + 1)) = true := by
    decide +kernel
  simp only [Option.any_eq_true, Bool.and_eq_true, decide_eq_true_eq] at ran
  obtain ⟨before, went, held, dropped, recovered, collected, taken, command, last, wentOn, count⟩ := ran
  obtain ⟨device, turned, collectedIs⟩ := of_turns_cons taken
  cases collectedIs
  obtain ⟨next, answered, lastIs⟩ := of_turns_cons wentOn
  cases lastIs
  have noCommand : collecting.command? (handed dropped.2 collecting) = none := if_neg (by decide)
  have cleared := (Cleared.of_recovering went held recovered).turn noCommand turned
  obtain ⟨idle, free, collects⟩ := cleared.collects
  obtain ⟨packets, packetsAre, prefixed⟩ := collects _ _ _ _ _ command answered .nothing
  dsimp only at count
  rw [packetsAre, List.length_append, Nat.add_left_cancel_iff] at count
  obtain ⟨packet, rfl⟩ := List.length_eq_one_iff.mp count
  exact ⟨device, _, next, packet, cleared, ⟨idle, free⟩, answered, packetsAre, prefixed⟩

/-- The host gives up a read after its first packet and resets the transport.  The packet is still there, and
when the host sends its next command, none of the response to that one takes its place. -/
theorem packet_outlives_reset :
    ∃ device controller next, Cleared .pico true device controller ∧
      controller.holds (.toHost .disk) = true ∧
      (commanding (.reading 8 33 1)).command? (handed controller (commanding (.reading 8 33 1))) =
        some (.reading 8 33 1) ∧
      (device.turn (commanding (.reading 8 33 1)) controller).result = .ok next ∧
      (device.turn (commanding (.reading 8 33 1)) controller).link.holds (.toHost .disk) = true ∧
      (device.turn (commanding (.reading 8 33 1)) controller).link.packetsFor (.toHost .disk) =
        controller.packetsFor (.toHost .disk) := by
  have ran : (poweredUp [configuring, commanding (.reading 7 65 1)]).any (fun before =>
      before.2.holds (.toHost .disk) && (before.1.turns before.2 [recovering]).any fun dropped =>
        decide ((commanding (.reading 8 33 1)).command? (handed dropped.2 (commanding (.reading 8 33 1))) =
          some (.reading 8 33 1)) &&
        (dropped.1.turns dropped.2 [commanding (.reading 8 33 1)]).any fun last =>
          last.2.holds (.toHost .disk) &&
            decide (last.2.packetsFor (.toHost .disk) = dropped.2.packetsFor (.toHost .disk))) = true := by
    decide +kernel
  simp only [Option.any_eq_true, Bool.and_eq_true, decide_eq_true_eq] at ran
  obtain ⟨before, went, held, dropped, recovered, command, last, wentOn, waits, same⟩ := ran
  obtain ⟨next, turned, lastIs⟩ := of_turns_cons wentOn
  cases lastIs
  have cleared := Cleared.of_recovering went held recovered
  exact ⟨dropped.1, dropped.2, next, cleared, cleared.rests.2.2, command, turned, waits, same⟩

end Device

end ScriptDrive
