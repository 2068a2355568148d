import ScriptDrive.Proofs.Controller.Leaves
import ScriptDrive.Proofs.Device.SideBySide
import ScriptDrive.Proofs.Drive.Histories

/-!
# Serving the disk

What serving the buffers of a turn does to the transport and to the packets that the host gets from it.  The
endpoints in front of the disk's do nothing to either: `Spares`.  Serving the disk's own hands the host the
first of the packets that are due, and nothing at all while the transport is idle: `Tends`.  Only a packet
that is a command makes others due, and `Attends` says so of all the buffers.
-/

set_option autoImplicit false

namespace ScriptDrive

open Exchange

def Presented.command? (presented : Presented) (controller : Controller) : Option CommandWrapper :=
  if presented.Returns (.fromHost .disk) then
    (CommandWrapper.decode (controller.received (.fromHost .disk))).toOption
  else
    none

/-- The host has got more packets from the disk's endpoint: with those that are due now they are the first
that it was promised. -/
def Supplies (promised : List (List UInt8)) (start : Controller) (due : List (List UInt8))
    (after : Controller) : Prop :=
  ∃ sent : List (List UInt8),
    after.packetsFor (.toHost .disk) = start.packetsFor (.toHost .disk) ++ sent.map Packet.front ∧
      sent ++ due <+: promised

namespace Supplies

variable {promised due later : List (List UInt8)} {start between after : Controller}

theorem of_packets (same : after.packetsFor (.toHost .disk) = start.packetsFor (.toHost .disk))
    (fewer : due <+: promised) : Supplies promised start due after :=
  ⟨[], same.trans (List.append_nil _).symm, fewer⟩

theorem of_leaves (leaves : Controller.Leaves (.toHost .disk) start after) (fewer : due <+: promised) :
    Supplies promised start due after :=
  of_packets leaves.packets fewer

theorem nothing (supplies : Supplies [] start due after) :
    after.packetsFor (.toHost .disk) = start.packetsFor (.toHost .disk) := by
  obtain ⟨sent, packets, prefixed⟩ := supplies
  obtain ⟨rfl, -⟩ := List.append_eq_nil_iff.mp (List.prefix_nil.mp prefixed)
  exact packets.trans (List.append_nil _)

theorem trans (before : Supplies promised start due between) (rest : Supplies due between later after) :
    Supplies promised start later after := by
  obtain ⟨sent, packets, prefixed⟩ := before
  obtain ⟨more, packetsRest, prefixedRest⟩ := rest
  refine ⟨sent ++ more, ?_, ?_⟩
  · rw [packetsRest, packets, List.map_append, List.append_assoc]
  · rw [List.append_assoc]
    exact ((List.prefix_append_right_inj sent).mpr prefixedRest).trans prefixed

/-- Writes to registers around it make no difference. -/
theorem around {register other : Register} {value otherValue : UInt32}
    (supplies : Supplies promised (start.write (.register register value)) due after) :
    Supplies promised start due (after.write (.register other otherValue)) :=
  (of_leaves ((Controller.Leaves.refl start).write rfl) List.prefix_rfl).trans (supplies.trans
    (of_leaves ((Controller.Leaves.refl after).write rfl) List.prefix_rfl))

end Supplies

namespace Device

structure Spares (device : Device) (start : Controller) (next : Device) (after : Controller) : Prop where
  sound : next.Sound
  storage : next.drive.storage = device.drive.storage
  leaves : ∀ endpoint : Endpoint, 10 ≤ endpoint.index → Controller.Leaves endpoint start after

/-- The host has got the first of the packets that were due, and none if the transport was idle. -/
structure Tends (device : Device) (start : Controller) (next : Device) (after : Controller) : Prop where
  sound : next.Sound
  supplies : Supplies device.drive.storage.due start next.drive.storage.due after
  idle : device.drive.storage.transfer = .idle → next.drive.storage.transfer = .idle ∧
    after.slot (.toHost .disk) = start.slot (.toHost .disk)

variable {device middle next : Device} {start between after : Controller}

theorem Spares.refl (sound : device.Sound) (start : Controller) : device.Spares start device start :=
  ⟨sound, rfl, fun _ _ => .refl start⟩

theorem Spares.trans (before : device.Spares start middle between)
    (later : middle.Spares between next after) : device.Spares start next after :=
  ⟨later.sound, later.storage.trans before.storage,
    fun endpoint disk => (before.leaves endpoint disk).trans (later.leaves endpoint disk)⟩

theorem Tends.of_leaves (sound : next.Sound) (storage : next.drive.storage = device.drive.storage)
    (leaves : Controller.Leaves (.toHost .disk) start after) : device.Tends start next after := by
  have due : next.drive.storage.due <+: device.drive.storage.due := storage ▸ List.prefix_rfl
  refine ⟨sound, .of_leaves leaves due, fun idle => ⟨?_, leaves.slot⟩⟩
  rw [storage]
  exact idle

theorem Tends.trans (before : device.Tends start middle between)
    (later : middle.Tends between next after) : device.Tends start next after := by
  refine ⟨later.sound, before.supplies.trans later.supplies, fun idle => ?_⟩
  obtain ⟨idleMiddle, slotMiddle⟩ := before.idle idle
  obtain ⟨idleNext, slotNext⟩ := later.idle idleMiddle
  exact ⟨idleNext, slotNext.trans slotMiddle⟩

theorem Tends.around {register other : Register} {value otherValue : UInt32}
    (tends : device.Tends (start.write (.register register value)) next after) :
    device.Tends start next (after.write (.register other otherValue)) :=
  ⟨tends.sound, tends.supplies.around, tends.idle⟩

theorem Spares.tends (spares : device.Spares start next after) : device.Tends start next after :=
  .of_leaves spares.sound spares.storage (spares.leaves _ (Nat.le_refl 10))

/-- A quiet call to the drive tends the disk. -/
theorem tends_of_does (sound : device.Sound) {drive : Drive boardCapacity} {operation : Operation}
    {events : List Event} (does : device.drive.Does drive events operation)
    (quiet : operation.Quiet device.drive.identity.endpoints)
    (noCommand : operation.command? device.drive.identity.endpoints = none)
    (grows : Controller.Grows .disk start after (acceptedOn InEndpoint.disk.number events)) :
    device.Tends start { device with drive := drive } after := by
  have due := (does.quietly quiet).due
  rw [sound.diskIn] at due
  have soundNext := sound.withDrive does
  refine ⟨soundNext, ⟨_, grows.packets, due ▸ List.prefix_rfl⟩, fun idle => ?_⟩
  have nothing : device.drive.storage.due = [] := Storage.due_of_idle (by rw [idle]; rfl)
  have silent := (List.append_eq_nil_iff.mp (due.symm.trans nothing)).1
  refine ⟨?_, grows.still silent⟩
  have leads := does.leads
  rw [noCommand] at leads
  cases leads with
  | went leadsTo =>
    refine soundNext.drive.transfer.eq_idle_of_command ?_
    rcases leadsTo.command with ended | same
    · exact ended
    · rw [same, idle]
      rfl

/-! ## Serving an endpoint -/

def attend (device : Device) (packet : List UInt8) : Endpoint → Exchange Controller Device
  | .toHost .control => device.onControlCollected
  | .fromHost .control => device.onControlPacket packet
  | .fromHost other => do
    let drive ← device.drive.onPacket other.number packet
    armOut other maxPacket
    return { device with drive := drive }
  | .toHost other => do
    let drive ← device.drive.onCollected other.number
    return { device with drive := drive }

theorem serve_eq (device : Device) (endpoint : Endpoint) :
    device.serve endpoint = do
      raisePin (servicePin endpoint)
      let controller ← Exchange.link
      if controller.holds endpoint then
        Exchange.halt .bufferHeld
      let next ← device.attend (controller.received endpoint) endpoint
      lowerPin (servicePin endpoint)
      return next := by
  cases endpoint with
  | toHost endpoint => cases endpoint <;> simp only [serve, attend, bind_assoc, pure_bind]
  | fromHost endpoint => cases endpoint <;> simp only [serve, attend, bind_assoc, pure_bind]

theorem serve_yields_attend (device : Device) (endpoint : Endpoint) (start : Controller)
    {post : Device → Controller → Prop}
    (attended : start.holds endpoint = false →
      (device.attend (start.received endpoint) endpoint).Yields
        (start.write (.register .pinRaise (bit (servicePin endpoint)))) fun next after =>
          post next (after.write (.register .pinLower (bit (servicePin endpoint))))) :
    (device.serve endpoint).Yields start post := by
  cases held : start.holds endpoint with
  | true => exact (device.serve_halts held).yields post
  | false =>
    rw [serve_eq]
    refine Exchange.Meets.thenYields ((meets_raisePin ..).mpr
      (Exchange.Meets.thenYields ((Exchange.meets_link ..).mpr ?_)))
    simp only [Controller.holds_write, held, Bool.false_eq_true, if_false]
    refine Exchange.Yields.bind ((attended held).mono ?_)
    intro next after holds
    exact Exchange.Meets.thenYields ((meets_lowerPin ..).mpr (Exchange.yields_pure _ _ holds))

/-- What holds between a state and itself, and goes on to hold when a buffer is served, holds once they all
have been. -/
theorem serveAll_yields_each (kept : Device → Controller → Device → Controller → Prop) {places : List Nat}
    (refl : ∀ device start, device.Sound → kept device start device start)
    (trans : ∀ {first second third : Device} {start between after : Controller},
      kept first start second between → kept second between third after →
        kept first start third after)
    (sound : ∀ {device next : Device} {start after : Controller},
      kept device start next after → next.Sound)
    (served : ∀ (device : Device) (start : Controller) (endpoint : Endpoint), device.Sound →
      endpoint.index ∈ places →
        (device.serve endpoint).Yields start fun next after => kept device start next after)
    (device : Device) (start : Controller) (soundDevice : device.Sound) :
    (device.serveAll places).Yields start fun next after => kept device start next after := by
  induction places generalizing device start with
  | nil => exact Exchange.yields_pure _ _ (refl device start soundDevice)
  | cons index rest restInduction =>
    have servedRest := restInduction fun device start endpoint soundHere present =>
      served device start endpoint soundHere (List.mem_cons_of_mem _ present)
    rw [serveAll]
    cases found : Endpoint.ofIndex? index with
    | none =>
      rw [pure_bind]
      exact servedRest device start soundDevice
    | some endpoint =>
      have present : endpoint.index ∈ index :: rest := by
        rw [Endpoint.index_of_ofIndex? found]
        exact List.mem_cons_self
      apply Exchange.Yields.bind
      refine (served device start endpoint soundDevice present).mono ?_
      intro middle between first
      refine (servedRest middle between (sound first)).mono ?_
      intro next after later
      exact trans first later

/-- The buffers of the bulk endpoints only make the drive go on. -/
theorem serveAll_drove (sound : device.Sound) {places : List Nat} (bulk : ∀ index ∈ places, 2 ≤ index)
    (start : Controller) :
    (device.serveAll places).Yields start fun next after => device.Drove start next after := by
  refine serveAll_yields_each Drove ?_ Drove.trans Drove.sound ?_ device start sound
  · intro device start sound
    exact ⟨sound, rfl, rfl, .refl start⟩
  · intro device start endpoint sound present
    cases held : start.holds endpoint with
    | true => exact (device.serve_halts held).yields _
    | false => exact (serve_meets sound (bulk _ present) held).yields fun _ _ _ served => served.toDrove

/-! ## In front of the disk -/

/-- Packets for the console are put into its queue. -/
theorem Sound.onPacket_console (sound : device.Sound) (packet : List UInt8) :
    (device.drive.onPacket OutEndpoint.console.number packet : Exchange Controller _) = do
      Exchange.logAll (device.drive.queue.pushNotes packet)
      return { device.drive with queue := device.drive.queue.push packet } := by
  apply device.drive.onPacket_console
  · rw [sound.identity]
    decide
  · rw [sound.identity]
    rfl

theorem attend_spares (sound : device.Sound) (packet : List UInt8) {endpoint : Endpoint}
    (front : endpoint.index < 10) (start : Controller) :
    (device.attend packet endpoint).Yields start fun next after => device.Spares start next after := by
  have bulk {other : Endpoint} (disk : 10 ≤ other.index) : 2 ≤ other.index := by omega
  cases endpoint with
  | toHost endpoint =>
    cases endpoint with
    | control =>
      refine (device.onControlCollected_meets start).yields ?_
      rintro next after events ⟨rfl, rfl⟩
      exact ⟨sound.of_drive rfl, rfl, fun other disk =>
        (Controller.Leaves.refl start).acted (bulk disk) (some _)⟩
    | notify | console =>
      simp only [attend]
      rw [Drive.onCollected_elsewhere, pure_bind]
      · exact Exchange.yields_pure _ _ (.refl sound start)
      · rw [sound.diskIn]
        decide
    | disk => exact absurd front (by decide)
  | fromHost endpoint =>
    cases endpoint with
    | control =>
      refine (device.onControlPacket_meets packet start).yields ?_
      rintro next after events ⟨rfl, rfl⟩
      refine ⟨sound.of_drive (device.drive_tookControl packet), ?_, fun other disk => ?_⟩
      · rw [drive_tookControl]
      · exact (Controller.Leaves.refl start).acted (bulk disk) _
    | console =>
      simp only [attend, sound.onPacket_console, bind_assoc, pure_bind]
      refine Exchange.Meets.thenYields ((Exchange.meets_logAll ..).mpr (Exchange.Meets.thenYields
        ((meets_armOut _ _ _ (Nat.le_refl maxPacket)).mpr (Exchange.yields_pure _ _ ?_))))
      refine ⟨⟨⟨sound.drive.transfer, sound.drive.file⟩, sound.identity⟩, rfl, fun other disk => ?_⟩
      refine (Controller.Leaves.refl start).armOut ?_ maxPacket
      rintro rfl
      exact absurd disk (by decide)
    | disk => exact absurd front (by decide)

theorem serve_spares (sound : device.Sound) {endpoint : Endpoint} (front : endpoint.index < 10)
    (start : Controller) :
    (device.serve endpoint).Yields start fun next after => device.Spares start next after := by
  refine device.serve_yields_attend endpoint start fun _ => ?_
  refine (attend_spares sound (start.received endpoint) front _).mono ?_
  intro next after spares
  refine ⟨spares.sound, spares.storage, fun other disk => ?_⟩
  exact (((Controller.Leaves.refl start).write rfl).trans (spares.leaves other disk)).write rfl

theorem serveAll_spares (sound : device.Sound) {places : List Nat} (front : ∀ index ∈ places, index < 10)
    (start : Controller) :
    (device.serveAll places).Yields start fun next after => device.Spares start next after := by
  refine serveAll_yields_each Spares ?_ Spares.trans Spares.sound ?_ device start sound
  · intro device start sound
    exact .refl sound start
  · intro device start endpoint sound present
    exact serve_spares sound (front _ present) start

theorem serveAll_of_unused {places : List Nat} (unused : ∀ index ∈ places, Endpoint.ofIndex? index = none)
    (device : Device) : device.serveAll places = pure device := by
  induction places with
  | nil => rfl
  | cons index rest restInduction =>
    obtain ⟨unusedFirst, unusedRest⟩ := List.forall_mem_cons.mp unused
    rw [serveAll, unusedFirst, pure_bind]
    exact restInduction unusedRest

def frontPlaces (returned : List Returned) : List Nat :=
  (List.range 10).filter fun index => returned.any fun buffer => buffer.index == index

theorem lt_of_mem_frontPlaces {returned : List Returned} :
    ∀ index ∈ frontPlaces returned, index < 10 := by
  intro index present
  exact List.mem_range.mp (List.mem_filter.mp present).1

/-- The disk's endpoints are served last, towards the host before from the host. -/
theorem serveAll_disk (device : Device) (presented : Presented) :
    device.serveAll (statusPlaces presented.returned) =
      device.serveAll (frontPlaces presented.returned) >>= fun front =>
        front.serveIf presented (.toHost .disk) >>= fun collected =>
          collected.serveIf presented (.fromHost .disk) := by
  have parts : List.range 32 = List.range 10 ++ ([(Endpoint.toHost .disk).index] ++
      (List.range' 11 2 ++ ([(Endpoint.fromHost .disk).index] ++ List.range' 14 18))) := by decide
  have between : ∀ index ∈ List.range' 11 2, Endpoint.ofIndex? index = none := by decide
  have behind : ∀ index ∈ List.range' 14 18, Endpoint.ofIndex? index = none := by decide
  have unused {places : List Nat} (unused : ∀ index ∈ places, Endpoint.ofIndex? index = none)
      (device : Device) : device.serveAll (places.filter fun index =>
        presented.returned.any fun buffer => buffer.index == index) = pure device :=
    serveAll_of_unused (fun index present => unused index (List.mem_filter.mp present).1) device
  simp only [statusPlaces, parts, List.filter_append, serveAll_append, serveAll_place, unused between,
    unused behind, pure_bind, bind_pure]
  rfl

/-! ## The disk's endpoints -/

theorem onCollected_idle {drive : Drive boardCapacity} (idle : drive.storage.transfer = .idle)
    (endpoint : UInt8) : (drive.onCollected endpoint : Exchange Controller _) = pure drive := by
  unfold Drive.onCollected Storage.onCollected
  rw [idle]
  split <;> rfl

theorem onCollected_tends (sound : device.Sound) (start : Controller) :
    (device.drive.onCollected InEndpoint.disk.number).Meets start fun drive after _ =>
      device.Tends start { device with drive := drive } after ∧
        Controller.Leaves (.fromHost .disk) start after ∧
        (device.drive.storage.transfer = .idle → drive = device.drive) := by
  have offers : Offering InEndpoint.disk.number
      (device.drive.onCollected InEndpoint.disk.number : Exchange Controller _) := by
    rw [← sound.diskIn]
    exact device.drive.offering_onCollected _
  obtain ⟨drive, result, serves⟩ :=
    Drive.collected_meets sound.drive.transfer InEndpoint.disk.number start
  have does : device.drive.Does drive _ (.collected InEndpoint.disk.number) :=
    .served (fun _ => Operation.noConfusion) serves
  refine ⟨drive, result, tends_of_does sound does not_false rfl (offers.grows start),
    offers.leaves (by decide) Endpoint.noConfusion start, fun idle => ?_⟩
  rw [onCollected_idle idle] at result
  exact (Except.ok.inj result).symm

theorem offering_onPacket_disk (sound : device.Sound) (packet : List UInt8) :
    Offering InEndpoint.disk.number
      (device.drive.onPacket OutEndpoint.disk.number packet : Exchange Controller _) := by
  rw [← sound.diskIn]
  exact device.drive.offering_onPacket _ packet

/-- A packet for the disk that is no command tends it. -/
theorem onPacket_tends (sound : device.Sound) {packet : List UInt8}
    {reason : CommandWrapper.DecodeError} (undecoded : CommandWrapper.decode packet = .error reason)
    (start : Controller) :
    (device.drive.onPacket OutEndpoint.disk.number packet).Meets start fun drive after _ =>
      device.Tends start { device with drive := drive } after := by
  obtain ⟨drive, result, does⟩ :=
    Drive.packet_meets sound.drive.transfer OutEndpoint.disk.number packet start
  refine ⟨drive, result, tends_of_does sound does (fun _ => ⟨reason, undecoded⟩) ?_
    ((offering_onPacket_disk sound packet).grows start)⟩
  rw [Operation.command?, undecoded]
  exact ite_self _

/-- A command makes its own response due, whatever was due before. -/
theorem onPacket_answers (sound : device.Sound) {packet : List UInt8} {wrapper : CommandWrapper}
    (decoded : CommandWrapper.decode packet = .ok wrapper) (start : Controller) :
    (device.drive.onPacket OutEndpoint.disk.number packet).Meets start fun drive after _ =>
      Sound { device with drive := drive } ∧
        Supplies (device.drive.storage.response wrapper) start drive.storage.due after := by
  obtain ⟨drive, result, does⟩ :=
    Drive.packet_meets sound.drive.transfer OutEndpoint.disk.number packet start
  refine ⟨drive, result, sound.withDrive does, ?_⟩
  have grows := (offering_onPacket_disk sound packet).grows start
  cases does with
  | handled same handled =>
    obtain ⟨-, rfl⟩ := Operation.packet.inj same
    cases handled with
    | begun decodedAs serves =>
      rw [decoded] at decodedAs
      cases decodedAs
      have due := serves.due
      rw [(device.drive.storage.opens_transfer wrapper).due] at due
      rw [← sound.diskIn] at grows
      exact ⟨_, grows.packets, due ▸ List.prefix_rfl⟩
    | written undecoded =>
      rw [decoded] at undecoded
      cases undecoded
    | stray undecoded =>
      rw [decoded] at undecoded
      cases undecoded
  | served elsewhere =>
    refine absurd ?_ (elsewhere packet)
    rw [sound.diskOut]
  | cleaned taken => cases taken
  | dropped drops => exact absurd drops id
  | printed print => cases print

theorem serve_collected (sound : device.Sound) (start : Controller) :
    (device.serve (.toHost .disk)).Yields start fun next after =>
      device.Tends start next after ∧ Controller.Leaves (.fromHost .disk) start after ∧
        start.holds (.toHost .disk) = false ∧
        (device.drive.storage.transfer = .idle → next.drive = device.drive) := by
  refine device.serve_yields_attend (.toHost .disk) start fun free => ?_
  simp only [attend]
  refine Exchange.Meets.thenYields ((onCollected_tends sound _).mono ?_)
  rintro drive after events ⟨tends, leaves, same⟩
  exact Exchange.yields_pure _ _
    ⟨tends.around, (((Controller.Leaves.refl start).write rfl).trans leaves).write rfl, free, same⟩

theorem serve_stray (sound : device.Sound) {start : Controller} {reason : CommandWrapper.DecodeError}
    (undecoded : CommandWrapper.decode (start.received (.fromHost .disk)) = .error reason) :
    (device.serve (.fromHost .disk)).Yields start fun next after => device.Tends start next after := by
  refine device.serve_yields_attend (.fromHost .disk) start fun _ => ?_
  simp only [attend]
  refine Exchange.Meets.thenYields ((onPacket_tends sound undecoded _).mono ?_)
  intro drive after events tends
  refine Exchange.Meets.thenYields ((meets_armOut _ _ _ (Nat.le_refl maxPacket)).mpr
    (Exchange.yields_pure _ _ ?_))
  have room : Controller.Leaves (.toHost .disk) after (after.armOut .disk maxPacket) :=
    (Controller.Leaves.refl after).armOut Endpoint.noConfusion maxPacket
  exact (tends.trans (.of_leaves tends.sound rfl room)).around

theorem serve_command (sound : device.Sound) {start : Controller} {wrapper : CommandWrapper}
    (decoded : CommandWrapper.decode (start.received (.fromHost .disk)) = .ok wrapper) :
    (device.serve (.fromHost .disk)).Yields start fun next after =>
      next.Sound ∧
        Supplies (device.drive.storage.response wrapper) start next.drive.storage.due after := by
  refine device.serve_yields_attend (.fromHost .disk) start fun _ => ?_
  simp only [attend]
  refine Exchange.Meets.thenYields ((onPacket_answers sound decoded _).mono ?_)
  rintro drive after events ⟨soundNext, supplies⟩
  refine Exchange.Meets.thenYields ((meets_armOut _ _ _ (Nat.le_refl maxPacket)).mpr
    (Exchange.yields_pure _ _ ⟨soundNext, ?_⟩))
  have room : Controller.Leaves (.toHost .disk) after (after.armOut .disk maxPacket) :=
    (Controller.Leaves.refl after).armOut Endpoint.noConfusion maxPacket
  exact (supplies.trans (.of_leaves room List.prefix_rfl)).around

/-! ## All buffers of a turn -/

/-- What serving the buffers of a turn comes to for the disk: a command of the turn makes its own response
due if the transport was idle, and without one the disk is tended. -/
structure Attends (device : Device) (presented : Presented) (start : Controller) (next : Device)
    (after : Controller) : Prop where
  sound : next.Sound
  free : presented.Returns (.toHost .disk) → start.holds (.toHost .disk) = false
  tends : presented.command? start = none → device.Tends start next after
  answers : ∀ wrapper, presented.command? start = some wrapper →
    device.drive.storage.transfer = .idle →
      Supplies (device.drive.storage.response wrapper) start next.drive.storage.due after

theorem serveIf_collected (sound : device.Sound) (presented : Presented) (start : Controller) :
    (device.serveIf presented (.toHost .disk)).Yields start fun next after =>
      device.Tends start next after ∧ Controller.Leaves (.fromHost .disk) start after ∧
        (presented.Returns (.toHost .disk) → start.holds (.toHost .disk) = false) ∧
        (device.drive.storage.transfer = .idle → next.drive = device.drive) := by
  unfold serveIf
  split
  · refine (serve_collected sound start).mono ?_
    rintro next after ⟨tends, leaves, free, same⟩
    exact ⟨tends, leaves, fun _ => free, same⟩
  · rename_i kept
    exact Exchange.yields_pure _ _ ⟨.of_leaves sound rfl (.refl start), .refl start,
      fun returns => absurd returns kept, fun _ => rfl⟩

theorem serveIf_attends (sound : device.Sound) (presented : Presented) (start : Controller) :
    (device.serveIf presented (.fromHost .disk)).Yields start fun next after =>
      next.Sound ∧
        (presented.command? start = none → device.Tends start next after) ∧
        ∀ wrapper, presented.command? start = some wrapper →
          Supplies (device.drive.storage.response wrapper) start next.drive.storage.due after := by
  unfold serveIf Presented.command?
  split
  · cases decodedIs : CommandWrapper.decode (start.received (.fromHost .disk)) with
    | error reason =>
      refine (serve_stray sound decodedIs).mono ?_
      intro next after tends
      refine ⟨tends.sound, fun _ => tends, ?_⟩
      rintro wrapper ⟨⟩
    | ok wrapper =>
      refine (serve_command sound decodedIs).mono ?_
      rintro next after ⟨soundNext, supplies⟩
      refine ⟨soundNext, ?_, ?_⟩
      · rintro ⟨⟩
      · rintro _ ⟨⟩
        exact supplies
  · refine Exchange.yields_pure _ _ ⟨sound, fun _ => .of_leaves sound rfl (.refl start), ?_⟩
    rintro wrapper ⟨⟩

theorem serveReturned_attends (sound : device.Sound) (presented : Presented) (start : Controller) :
    (device.serveAll (statusPlaces presented.returned)).Yields start fun next after =>
      device.Attends presented start next after := by
  rw [serveAll_disk]
  refine Exchange.Yields.bind ((serveAll_spares sound lt_of_mem_frontPlaces start).mono ?_)
  intro front middle spares
  refine Exchange.Yields.bind ((serveIf_collected spares.sound presented middle).mono ?_)
  rintro collected between ⟨tends, leaves, free, same⟩
  refine (serveIf_attends tends.sound presented between).mono ?_
  rintro next after ⟨soundNext, tendsLast, answers⟩
  have received : between.received (.fromHost .disk) = start.received (.fromHost .disk) :=
    leaves.received.trans (spares.leaves _ (by decide)).received
  have command : presented.command? between = presented.command? start := by
    rw [Presented.command?, received]
    rfl
  rw [command] at tendsLast answers
  have before : device.Tends start collected between := spares.tends.trans tends
  refine ⟨soundNext, fun returns => ?_, fun none => before.trans (tendsLast none), ?_⟩
  · exact (spares.leaves (.toHost .disk) (Nat.le_refl 10)).holds.symm.trans (free returns)
  · intro wrapper delivered idle
    have storage : collected.drive.storage = device.drive.storage := by
      rw [same (by rw [spares.storage]; exact idle), spares.storage]
    have quiet := before.supplies
    rw [Storage.due_of_idle (by rw [idle]; rfl)] at quiet
    rw [← storage]
    exact (Supplies.of_packets quiet.nothing List.prefix_rfl).trans (answers wrapper delivered)

theorem onBuffers_attends (sound : device.Sound) (presented : Presented) (start : Controller) :
    (device.onBuffers presented).Yields start fun next after =>
      device.Attends presented start next after := by
  refine device.onBuffers_yields_serveAll presented start ?_ ?_
  · intro nothing
    have noCommand : presented.command? start = none := if_neg (nothing (.fromHost .disk))
    refine ⟨sound, fun returns => absurd returns (nothing _),
      fun _ => .of_leaves sound rfl (.refl start), ?_⟩
    intro wrapper command
    rw [noCommand] at command
    cases command
  · refine (serveReturned_attends sound presented _).mono ?_
    intro next after attends
    exact ⟨attends.sound, attends.free, fun none => (attends.tends none).around.around,
      fun wrapper command idle => (attends.answers wrapper command idle).around.around⟩

end Device

end ScriptDrive
