import Mathlib.Data.Nat.Digits.Defs
import ScriptDrive.Proofs.Controller.FirstOffer
import ScriptDrive.Proofs.Device.ConsoleService
import ScriptDrive.Proofs.Device.Leftover

/-!
# What the console is told

At the end of a turn the device says on the console what the host typed, or else that the file has been moved
or resized.  What was typed goes out whole.  The announcement is printed in three pieces, and since the
endpoint takes one packet a turn, only the first of them gets there: `Reached.announcement_cut_short`.  The
mark of the changed file is gone by then, so that the rest is never sent.
-/

set_option autoImplicit false

namespace ScriptDrive

open Exchange

def announcementPieces (size : UInt32) : List String :=
  ["\r\nmain.py: ", toString size.toNat, " bytes\r\n"]

def announcement (size : UInt32) : List UInt8 :=
  (announcementPieces size).flatMap utf8

def announcementFront : List UInt8 :=
  utf8 "\r\nmain.py: "

theorem length_utf8_le (text : String) : (utf8 text).length ≤ 4 * text.length := by
  rw [utf8, ← String.length_toList]
  induction text.toList with
  | nil => exact Nat.le_refl 0
  | cons character rest restInduction =>
    have one := character.utf8Size_le_four
    rw [List.flatMap_cons, List.length_append, String.length_utf8EncodeChar, List.length_cons]
    omega

theorem announcement_eq (size : UInt32) :
    announcement size = announcementFront ++ (utf8 (toString size.toNat) ++ utf8 " bytes\r\n") := by
  simp only [announcement, announcementPieces, announcementFront, List.flatMap_cons, List.flatMap_nil,
    List.append_nil]

/-- Every size has at most ten digits, so the line always fits a packet. -/
theorem length_announcement_le (size : UInt32) : (announcement size).length ≤ maxPacket := by
  have digits : (toString size.toNat).length ≤ 10 := by
    apply Nat.repr_length _ _ (by decide)
    exact Nat.lt_of_lt_of_le size.toNat_lt (by decide)
  have middle := length_utf8_le (toString size.toNat)
  have front : announcementFront.length = 11 := by decide
  have back : (utf8 " bytes\r\n").length = 8 := by decide
  rw [announcement_eq, List.length_append, List.length_append, front, back, maxPacket]
  omega

/-- The front is a part of the line and not all of it. -/
theorem announcement_begins (size : UInt32) :
    announcementFront <+: announcement size ∧ announcementFront ≠ announcement size := by
  rw [announcement_eq]
  refine ⟨List.prefix_append _ _, fun same => ?_⟩
  have nothing := List.append_eq_nil_iff.mp (List.self_eq_append_right.mp same)
  exact absurd nothing.2 (by decide)

/-- What the console is told in a turn, if its endpoint is free: what the host typed, or else that the file has
been moved or resized. -/
def told (typed : List UInt8) (changed : Bool) : List (List UInt8) :=
  if typed = [] then if changed then [announcementFront] else [] else [typed]

namespace Device

def speak (input : List UInt8) (drive : Drive boardCapacity) (changed : Bool) :
    Exchange Controller Unit := do
  echo input
  if changed then
    announce drive

theorem run_eq (device : Device) :
    device.run =
      if device.started then do
        let polled ← device.drive.poll
        speak polled.2.flatten polled.1.takeChanged.1 polled.1.takeChanged.2
        return { device with drive := polled.1.takeChanged.1 }
      else
        return device := by
  unfold run speak
  split
  · refine congrArg (device.drive.poll >>= ·) (funext fun polled => ?_)
    dsimp only
    rw [bind_assoc]
    refine congrArg (echo polled.2.flatten >>= ·) (funext fun _ => ?_)
    split
    · rfl
    · rfl
  · rfl

variable {device served next : Device} {start : Controller}

theorem opens_echo {input : List UInt8} (some : input ≠ []) (short : input.length ≤ maxPacket) :
    Opens InEndpoint.console.number input (echo input) := by
  have packed : echo input =
      sendPolling InEndpoint.console.number input consoleTries >>= fun _ => pure () := by
    have notEmpty : (!input.isEmpty) = true := by simpa using some
    unfold echo
    rw [if_pos notEmpty, Packet.ofBytes_of_le short]
    rfl
  rw [packed]
  exact (opens_sendPolling _ input 1).bind fun _ => .pure _

theorem announce_eq (drive : Drive boardCapacity) :
    announce drive = (announcementPieces drive.file.size).forM drive.print := by
  simp only [announce, announcementPieces, List.forM, bind_pure_unit]

/-- The pieces of the announcement are offered one after the other. -/
theorem opens_announce (sound : device.Sound) :
    Opens InEndpoint.console.number announcementFront (announce device.drive) := by
  have some : announcementFront ≠ [] := by decide
  have whole : (Packet.front announcementFront).bytes = announcementFront :=
    Packet.bytes_front_of_le (by decide)
  have prints (text : String) :
      Offering InEndpoint.console.number (device.drive.print text : Exchange Controller Unit) := by
    rw [← sound.consoleIn]
    exact device.drive.offering_print text
  have opens : Opens InEndpoint.console.number announcementFront
      (device.drive.print "\r\nmain.py: " : Exchange Controller Unit) := by
    rw [Drive.print, sound.consoleIn, ← whole]
    exact opens_print _ some
  rw [announce_eq]
  exact opens.bind fun _ => (prints _).bind fun _ => (prints _).bind fun _ => .pure _

theorem speak_tells {drive : Drive boardCapacity} (sound : Sound { device with drive := drive })
    {input : List UInt8} (short : input.length ≤ maxPacket) (changed : Bool) (start : Controller) :
    Controller.Grows .console start (speak input drive changed start).link
      (if start.holds (.toHost .console) then [] else told input changed) := by
  have announces := opens_announce sound
  by_cases none : input = []
  · have silent : echo input = pure () := by
      rw [none]
      rfl
    rw [speak, silent, pure_bind, told, if_pos none]
    cases changed with
    | true => exact announces.grows start
    | false =>
      simp only [Bool.false_eq_true, if_false, ite_self]
      exact .nothing start
  · have opens : Opens InEndpoint.console.number input (speak input drive changed) := by
      refine (opens_echo none short).bind fun _ => ?_
      split
      · exact offering_announce sound
      · exact .pure _
    rw [told, if_neg none]
    exact opens.grows start

/-! ## The end of a turn -/

structure Tells (device : Device) (start : Controller) (next : Device) (after : Controller) : Prop where
  packets : after.packetsFor (.toHost .console) = start.packetsFor (.toHost .console) ++
    (if start.holds (.toHost .console) then []
      else told device.drive.queue.bytes device.drive.file.dirty).map Packet.front
  typed : next.drive.queue.bytes = []
  clean : next.drive.file.dirty = false

theorem run_tells (sound : device.Sound) (running : device.started = true) (start : Controller) :
    device.run.Yields start fun next after => device.Tells start next after := by
  have offers : Offering InEndpoint.disk.number (device.drive.storage.poll : Exchange Controller _) := by
    rw [← sound.diskIn]
    exact device.drive.storage.offering_poll
  have apart : Controller.Leaves (.toHost .console) start (device.drive.storage.poll start).link :=
    offers.leaves (by decide) (by decide) start
  rw [run_eq, if_pos running]
  unfold Drive.poll
  simp only [bind_assoc, pure_bind]
  refine Exchange.Meets.thenYields
    (((Storage.poll_meets sound.drive.transfer start).withLink apart).mono ?_)
  rintro storage polled events ⟨serves, leaves⟩
  have soundPolled : Sound { device with drive := ⟨storage, device.drive.queue.drain.2⟩ } := by
    have does : device.drive.Does ⟨storage, device.drive.queue.drain.2⟩ events .poll :=
      .served (fun _ => Operation.noConfusion) serves
    exact sound.withDrive does
  have short : device.drive.queue.drain.1.flatten.length ≤ maxPacket := by
    rw [device.drive.queue.flatten_drain]
    exact device.drive.queue.length_le
  have grows := speak_tells soundPolled.takeChanged short storage.file.dirty polled
  apply Exchange.Yields.bind
  intro _ _
  refine Exchange.yields_pure _ _ ⟨?_, device.drive.queue.bytes_drain, rfl⟩
  have marked : storage.file.dirty = device.drive.file.dirty := serves.dirty
  rw [← device.drive.queue.flatten_drain, ← marked, ← leaves.holds, ← leaves.packets]
  exact grows.packets

theorem start_begins (configured : device.configured = true) (start : Controller) :
    device.start.Meets start fun next after _ =>
      next = { device with started := true } ∧ Controller.Leaves (.toHost .console) start after := by
  refine (device.start_meets start).mono ?_
  intro next after events begins
  split at begins
  · obtain ⟨rfl, rfl⟩ := begins
    exact ⟨rfl, ((Controller.Leaves.refl start).armOut Endpoint.noConfusion maxPacket).armOut
      Endpoint.noConfusion maxPacket⟩
  · rename_i settled
    obtain ⟨rfl, rfl⟩ := begins
    have running : next.started = true := by
      rw [configured, Bool.true_and, Bool.not_eq_true, Bool.not_eq_false'] at settled
      exact settled
    exact ⟨by rw [← running], .refl _⟩

theorem finish_tells (sound : served.Sound) (configured : served.configured = true)
    {presented : Presented} (kept : presented.busReset = false) (board : Board) (start : Controller) :
    (served.finish presented board).Yields start fun next after => served.Tells start next after := by
  unfold finish settle
  rw [kept, if_neg Bool.false_ne_true, pure_bind]
  refine Exchange.Meets.thenYields ((start_begins configured start).mono ?_)
  rintro begun armed _ ⟨rfl, leaves⟩
  have soundBegun : Sound { served with started := true } := sound.of_drive rfl
  refine Exchange.Yields.bind ((run_tells soundBegun rfl armed).mono ?_)
  intro done after tells
  refine Exchange.Meets.thenYields ((meets_lowerPin ..).mpr (Exchange.yields_pure _ _ ?_))
  refine ⟨?_, tells.typed, tells.clean⟩
  rw [Controller.packetsFor_write, tells.packets, leaves.packets, leaves.holds]
  exact List.append_nil _

/-- A bus reset leaves what there is to say for later. -/
theorem finish_puts_off (served : Device) {presented : Presented} (reset : presented.busReset = true)
    (board : Board) (start : Controller) :
    (served.finish presented board).Yields start fun next after =>
      next.drive.file = served.drive.file ∧
        after.packetsFor (.toHost .console) = start.packetsFor (.toHost .console) := by
  refine (served.finish_wiped reset board start).yields ?_
  rintro next after events ⟨rfl, rfl⟩
  refine ⟨rfl, ?_⟩
  rw [Controller.packetsFor_write, packetsFor_wipedController]
  exact List.append_nil _

/-! ## Whole turns -/

variable {board : Board} {controller : Controller} {presented : Presented}

/-- A turn that does not halt has noticed everything and then finished. -/
theorem of_turn (turned : (device.turn presented controller).result = .ok next) :
    ∃ served between, (device.notice presented (handed controller presented)).result = .ok served ∧
      (device.notice presented (handed controller presented)).link = between ∧
      (served.finish presented device.board between).result = .ok next ∧
      (device.turn presented controller).link = (served.finish presented device.board between).link := by
  obtain ⟨_, -, handled, turnLink⟩ := Exchange.of_bind_ok turned
  rw [handle_parts] at handled
  obtain ⟨served, noticed, finished, handleLink⟩ := Exchange.of_bind_ok handled
  rw [← handle_parts] at handleLink
  exact ⟨served, _, noticed, rfl, finished, turnLink.trans handleLink⟩

/-- Between turns a configured device has nothing to say. -/
theorem Reached.silent (reached : Reached board device controller)
    (configured : device.configured = true) :
    device.drive.queue.bytes = [] ∧ device.drive.file.dirty = false := by
  cases reached with
  | powerUp resets started =>
    obtain ⟨-, notConfigured, -⟩ := configured_of_powerUp started
    rw [notConfigured] at configured
    cases configured
  | @turn earlier _ before presented reachedBefore turned =>
    have sound := reachedBefore.sound.1
    obtain ⟨served, between, noticed, rfl, finished, -⟩ := of_turn turned
    have soundServed := (notice_yields sound presented _ served noticed).sound
    obtain ⟨-, -, still, -⟩ := finish_sound soundServed presented _ _ device finished
    rw [configured, eq_comm, Bool.and_eq_true, Bool.not_eq_true'] at still
    have tells := finish_tells soundServed still.2 still.1 _ _ device finished
    exact ⟨tells.typed, tells.clean⟩

def resizing (size : UInt32) : Presented :=
  { returned := [{
      address := 6
      data := (DirEntry.ofFile boardIdentity.fileName { size := size }).encode ++ List.replicate 32 0
      length := 64 }] }

/-- The file is marked in the turn in which the host moves or resizes it.  When the host has typed nothing, the
console is then handed the front of the announcement and no more, and the mark is taken away; only a bus reset
in the same turn puts both off.  The whole line would always have fit the packet. -/
theorem Reached.announcement_cut_short (reached : Reached board device controller)
    (configured : device.configured = true)
    (free : (handed controller presented).holds (.toHost .console) = false)
    (turned : (device.turn presented controller).result = .ok next) :
    device.drive.file.dirty = false ∧
    ∃ served, (device.notice presented (handed controller presented)).result = .ok served ∧
      device.drive.file.Marks served.drive.file ∧
      (¬ presented.Returns (.fromHost .console) → served.drive.queue.bytes = []) ∧
      (served.drive.queue.bytes = [] →
        (device.turn presented controller).link.packetsFor (.toHost .console) =
          controller.packetsFor (.toHost .console) ++
            if served.drive.file.dirty && !presented.busReset then [.front announcementFront] else []) ∧
      next.drive.file.dirty = (served.drive.file.dirty && presented.busReset) ∧
      ∀ size, (announcement size).length ≤ maxPacket ∧
        announcementFront <+: announcement size ∧ announcementFront ≠ announcement size := by
  have sound := reached.sound.1
  obtain ⟨nothingTyped, unmarked⟩ := reached.silent configured
  obtain ⟨served, between, noticedAs, betweenIs, finished, link⟩ := of_turn turned
  have noticed := notice_yields sound presented _ served noticedAs
  have hushed := notice_hushes sound presented _ served noticedAs
  rw [betweenIs] at noticed hushed
  have packets := hushed.console.packets.trans (packetsFor_handed controller presented _)
  have freeStill := hushed.console.holds.trans free
  have line (size : UInt32) := And.intro (length_announcement_le size) (announcement_begins size)
  refine ⟨unmarked, served, noticedAs, hushed.file, fun quiet => ?_, ?_⟩
  · rw [hushed.queue.resolve_left quiet]
    exact nothingTyped
  rw [link]
  cases reset : presented.busReset with
  | true =>
    obtain ⟨file, same⟩ := served.finish_puts_off reset device.board between next finished
    rw [Bool.not_true, Bool.and_false, Bool.and_true, if_neg Bool.false_ne_true, List.append_nil, file]
    exact ⟨fun _ => same.trans packets, rfl, line⟩
  | false =>
    have configuredServed : served.configured = true := by
      rw [noticed.configured, configured, Bool.or_true]
    have tells := finish_tells noticed.sound configuredServed reset device.board between next finished
    rw [Bool.not_false, Bool.and_true, Bool.and_false]
    refine ⟨fun nothing => ?_, tells.clean, line⟩
    rw [tells.packets, packets, freeStill, if_neg Bool.false_ne_true, nothing, told, if_pos rfl]
    split
    · rfl
    · rfl

/-- The host makes the file sixteen bytes long. -/
theorem Reached.announcement_cut_short_sixteen :
    ∃ device controller next, Reached .pico device controller ∧ device.configured = true ∧
      (handed controller (resizing 16)).holds (.toHost .console) = false ∧
      (device.turn (resizing 16) controller).result = .ok next ∧
      (device.turn (resizing 16) controller).link.packetsFor (.toHost .console) =
        controller.packetsFor (.toHost .console) ++ [.front announcementFront] ∧
      next.drive.file.dirty = false := by
  have ran : (poweredUp [configuring, commanding (.writing 7 33 1)]).any (fun before =>
      before.1.configured && decide ((handed before.2 (resizing 16)).holds (.toHost .console) = false) &&
        (before.1.notice (resizing 16) (handed before.2 (resizing 16))).result.toOption.any (fun served =>
          served.drive.file.dirty) &&
        (before.1.turns before.2 [resizing 16]).isSome) = true := by
    decide +kernel
  simp only [Option.any_eq_true, Bool.and_eq_true, decide_eq_true_eq, Option.isSome_iff_exists] at ran
  obtain ⟨before, went, ⟨⟨configured, free⟩, marking, markedAs, marked⟩, last, wentOn⟩ := ran
  obtain ⟨next, turned, -⟩ := of_turns_cons wentOn
  obtain ⟨-, served, noticed, -, quiet, handed, clean, -⟩ :=
    (reached_of_poweredUp went).announcement_cut_short configured free turned
  rw [noticed] at markedAs
  cases markedAs
  have nothingTyped : ¬ (resizing 16).Returns (.fromHost .console) := by decide
  have packets := handed (quiet nothingTyped)
  rw [marked] at packets
  refine ⟨before.1, before.2, next, reached_of_poweredUp went, configured, free, turned, packets, ?_⟩
  rw [clean]
  exact Bool.and_false _

/-- Then the line that announces it is not what the console is handed. -/
theorem announcement_incomplete :
    ∃ device controller next, Reached .pico device controller ∧ device.configured = true ∧
      device.drive.queue.bytes = [] ∧ ¬ (resizing 16).Returns (.fromHost .console) ∧
      (handed controller (resizing 16)).holds (.toHost .console) = false ∧
      (device.turn (resizing 16) controller).result = .ok next ∧
      device.drive.file.size ≠ 16 ∧ next.drive.file.size = 16 ∧
      (device.turn (resizing 16) controller).link.packetsFor (.toHost .console) ≠
        controller.packetsFor (.toHost .console) ++ [.front (announcement 16)] := by
  have ran : (poweredUp [configuring, commanding (.writing 7 33 1)]).any (fun before =>
      before.1.configured && decide (before.1.drive.queue.bytes = []) &&
        decide ((handed before.2 (resizing 16)).holds (.toHost .console) = false) &&
        decide (before.1.drive.file.size ≠ 16) &&
        (before.1.turns before.2 [resizing 16]).any fun last =>
          decide (last.1.drive.file.size = 16) &&
            decide (last.2.packetsFor (.toHost .console) ≠
              before.2.packetsFor (.toHost .console) ++ [.front (announcement 16)])) = true := by
    decide +kernel
  simp only [Option.any_eq_true, Bool.and_eq_true, decide_eq_true_eq] at ran
  obtain ⟨before, went, ⟨⟨⟨configured, nothingTyped⟩, free⟩, other⟩, last, wentOn, resized, cut⟩ := ran
  obtain ⟨next, turned, lastIs⟩ := of_turns_cons wentOn
  cases lastIs
  have quiet : ¬ (resizing 16).Returns (.fromHost .console) := by decide
  exact ⟨before.1, before.2, next, reached_of_poweredUp went, configured, nothingTyped, quiet, free, turned,
    other, resized, cut⟩

end Device

end ScriptDrive
