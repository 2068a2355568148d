import ScriptDrive.Proofs.Console.Newest
import ScriptDrive.Proofs.Device.DiskTurns

/-!
# Serving without the console

What a turn does before a bus reset does not reach the endpoint that takes what is printed, and unless the host
types something, the queue of console input stays as it is.  `Hushed` says so of the request and of every
buffer, and also that the file is marked whenever it has been moved or resized; `notice_hushes` puts them
together.
-/

set_option autoImplicit false

namespace ScriptDrive

open Exchange

/-! ## The mark of a changed file -/

namespace TrackedFile

/-- Unless it is marked now, the file is the same, or has only been put back where it can be read. -/
def Marks (file next : TrackedFile) : Prop :=
  next.dirty = true ∨ next = file ∨ next = file.rehome

variable {first second third : TrackedFile}

theorem Marks.refl (file : TrackedFile) : file.Marks file :=
  .inr (.inl rfl)

theorem Marks.trans (before : first.Marks second) (after : second.Marks third) : first.Marks third := by
  rcases after with marked | rfl | rfl
  · exact .inl marked
  · exact before
  · rcases before with marked | rfl | rfl
    · exact .inl marked
    · exact .inr (.inr rfl)
    · exact .inr (.inr first.rehome_rehome)

theorem marks_relocate (file : TrackedFile) (cluster : UInt16) (size : UInt32) :
    file.Marks (file.relocate cluster size) := by
  cases changed : (cluster != file.cluster || size != file.size) with
  | true => exact .inl (Bool.or_eq_true_iff.mpr (.inr changed))
  | false =>
    rw [Bool.or_eq_false_iff, bne_eq_false_iff_eq, bne_eq_false_iff_eq] at changed
    obtain ⟨rfl, rfl⟩ := changed
    exact .inr (.inl file.relocate_same)

theorem eq_of_rehome (rehomed : second.rehome = first.rehome) (same : second.cluster = first.cluster) :
    second = first := by
  have sizes := congrArg size rehomed
  have marks := congrArg dirty rehomed
  cases first
  cases second
  simp only [rehome] at sizes marks same
  rw [same, sizes, marks]

end TrackedFile

theorem Volume.Becomes.marks {room : Nat} {file next : TrackedFile}
    (becomes : Volume.Becomes room file next) : file.Marks next := by
  induction becomes with
  | same => exact .refl file
  | moved _ _ _ marksBefore => exact marksBefore.trans (TrackedFile.marks_relocate ..)

theorem Storage.Keeps.marks {capacity : Nat} {storage next : Storage capacity}
    (keeps : storage.Keeps next) : storage.file.Marks next.file := by
  rcases keeps.cluster with same | home
  · exact .inr (.inl (TrackedFile.eq_of_rehome keeps.file same))
  · right; right
    rw [← keeps.file, TrackedFile.rehome, ← home]

namespace Drive

variable {π : Type} {capacity : Nat} {drive next : Drive capacity} {events : List Event}

/-- Whatever moves or resizes the file also marks it, and only the program takes the mark away. -/
theorem Does.marks {operation : Operation} (does : drive.Does next events operation)
    (kept : operation ≠ .takeChanged) : drive.file.Marks next.file := by
  cases does with
  | handled packet handled =>
    cases handled with
    | begun _ serves => exact serves.keeps.marks
    | written _ _ takes serves => exact takes.becomes.marks.trans serves.keeps.marks
    | stray _ _ serves => exact serves.keeps.marks
  | served _ serves => exact serves.keeps.marks
  | cleaned taken => exact absurd taken kept
  | dropped _ storageIs | printed _ storageIs =>
    have fileIs := congrArg Storage.file storageIs
    exact .inr (.inl fileIs)

end Drive

namespace Device

/-- Nothing has happened where the console prints, what has come in is as it was unless the host has typed
something, and the file is marked if it has been moved or resized. -/
structure Hushed (typed : Prop) (device : Device) (start : Controller) (next : Device)
    (after : Controller) : Prop where
  sound : next.Sound
  queue : typed ∨ next.drive.queue = device.drive.queue
  file : device.drive.file.Marks next.drive.file
  console : Controller.Leaves (.toHost .console) start after

variable {typed : Prop} {device middle next : Device} {start between after : Controller}

theorem hushed_of_drive (sound : device.Sound) (driveIs : next.drive = device.drive)
    (console : Controller.Leaves (.toHost .console) start after) :
    Hushed typed device start next after := by
  refine ⟨sound.of_drive driveIs, .inr ?_, ?_, console⟩
  · rw [driveIs]
  · rw [driveIs]
    exact .refl _

theorem Hushed.trans (before : Hushed typed device start middle between)
    (later : Hushed typed middle between next after) : Hushed typed device start next after := by
  refine ⟨later.sound, ?_, before.file.trans later.file, before.console.trans later.console⟩
  rcases later.queue with some | same
  · exact .inl some
  · rw [same]
    exact before.queue

theorem Hushed.around {register other : Register} {value otherValue : UInt32}
    (hushed : Hushed typed device (start.write (.register register value)) next after) :
    Hushed typed device start next (after.write (.register other otherValue)) :=
  ⟨hushed.sound, hushed.queue, hushed.file,
    (((Controller.Leaves.refl start).write rfl).trans hushed.console).write rfl⟩

/-! ## The buffers -/

theorem onCollected_hushes (typed : Prop) (sound : device.Sound) (endpoint : InEndpoint)
    (start : Controller) :
    (device.drive.onCollected endpoint.number).Yields start fun drive after =>
      Hushed typed device start { device with drive := drive } after := by
  have offers : Offering InEndpoint.disk.number
      (device.drive.onCollected endpoint.number : Exchange Controller _) := by
    rw [← sound.diskIn]
    exact device.drive.offering_onCollected endpoint.number
  intro drive result
  obtain ⟨other, otherResult, serves⟩ :=
    Drive.collected_meets sound.drive.transfer endpoint.number start
  rw [result] at otherResult
  cases otherResult
  have does : device.drive.Does drive _ (.collected endpoint.number) :=
    .served (fun _ => Operation.noConfusion) serves
  exact ⟨sound.withDrive does, .inr (Drive.queue_onCollected _ _ drive result),
    does.marks Operation.noConfusion, offers.leaves (by decide) (by decide) start⟩

theorem onPacket_hushes (typed : Prop) (sound : device.Sound) (packet : List UInt8)
    (start : Controller) :
    (device.drive.onPacket OutEndpoint.disk.number packet).Yields start fun drive after =>
      Hushed typed device start { device with drive := drive } after := by
  intro drive result
  obtain ⟨other, otherResult, does⟩ :=
    Drive.packet_meets sound.drive.transfer OutEndpoint.disk.number packet start
  rw [result] at otherResult
  cases otherResult
  refine ⟨sound.withDrive does, .inr ?_, does.marks Operation.noConfusion,
    (offering_onPacket_disk sound packet).leaves (by decide) (by decide) start⟩
  rw [← sound.diskOut] at result
  exact Drive.queue_onPacket_disk packet start drive result

theorem attend_hushes (sound : device.Sound) (packet : List UInt8) {endpoint : Endpoint}
    (typing : endpoint = .fromHost .console → typed) (start : Controller) :
    (device.attend packet endpoint).Yields start fun next after =>
      Hushed typed device start next after := by
  cases endpoint with
  | toHost endpoint =>
    cases endpoint with
    | control =>
      refine (device.onControlCollected_meets start).yields ?_
      rintro next after events ⟨rfl, rfl⟩
      exact hushed_of_drive sound rfl ((Controller.Leaves.refl start).acted (by decide) (some _))
    | notify | console | disk =>
      refine Exchange.Yields.bind ((onCollected_hushes typed sound _ start).mono ?_)
      intro drive after hushed
      exact Exchange.yields_pure _ _ hushed
  | fromHost endpoint =>
    cases endpoint with
    | control =>
      refine (device.onControlPacket_meets packet start).yields ?_
      rintro next after events ⟨rfl, rfl⟩
      exact hushed_of_drive sound (device.drive_tookControl packet)
        ((Controller.Leaves.refl start).acted (by decide) _)
    | console =>
      simp only [attend, sound.onPacket_console, bind_assoc, pure_bind]
      refine Exchange.Meets.thenYields ((Exchange.meets_logAll ..).mpr (Exchange.Meets.thenYields
        ((meets_armOut _ _ _ (Nat.le_refl maxPacket)).mpr (Exchange.yields_pure _ _ ?_))))
      exact ⟨⟨⟨sound.drive.transfer, sound.drive.file⟩, sound.identity⟩, .inl (typing rfl), .refl _,
        (Controller.Leaves.refl start).armOut Endpoint.noConfusion maxPacket⟩
    | disk =>
      refine Exchange.Yields.bind ((onPacket_hushes typed sound packet start).mono ?_)
      intro drive after hushed
      refine Exchange.Meets.thenYields ((meets_armOut _ _ _ (Nat.le_refl maxPacket)).mpr
        (Exchange.yields_pure _ _ ?_))
      exact ⟨hushed.sound, hushed.queue, hushed.file,
        hushed.console.armOut Endpoint.noConfusion maxPacket⟩

theorem serve_hushes (sound : device.Sound) {endpoint : Endpoint}
    (typing : endpoint = .fromHost .console → typed) (start : Controller) :
    (device.serve endpoint).Yields start fun next after => Hushed typed device start next after := by
  refine device.serve_yields_attend endpoint start fun _ => ?_
  refine (attend_hushes sound (start.received endpoint) typing _).mono ?_
  intro next after hushed
  exact hushed.around

theorem serveAll_hushes (sound : device.Sound) {places : List Nat}
    (typing : (Endpoint.fromHost .console).index ∈ places → typed) (start : Controller) :
    (device.serveAll places).Yields start fun next after => Hushed typed device start next after := by
  refine serveAll_yields_each (Hushed typed) ?_ Hushed.trans Hushed.sound ?_ device start sound
  · intro device start sound
    exact hushed_of_drive sound rfl (.refl start)
  · intro device start endpoint sound present
    refine serve_hushes sound ?_ start
    rintro rfl
    exact typing present

theorem onBuffers_hushes (sound : device.Sound) (presented : Presented) (start : Controller) :
    (device.onBuffers presented).Yields start fun next after =>
      Hushed (presented.Returns (.fromHost .console)) device start next after := by
  refine device.onBuffers_yields_serveAll presented start ?_ ?_
  · intro _
    exact hushed_of_drive sound rfl (.refl start)
  · refine (serveAll_hushes sound mem_statusPlaces.mp _).mono ?_
    intro next after hushed
    exact hushed.around.around

/-! ## The request -/

/-- No request concerns the queue or the file. -/
theorem drive_asked (device : Device) (setup : Option (Octets 8)) :
    (device.asked setup).1.drive.queue = device.drive.queue ∧
      (device.asked setup).1.drive.file = device.drive.file := by
  unfold asked
  cases setup with
  | none => exact ⟨rfl, rfl⟩
  | some bytes =>
    dsimp only
    unfold answered
    cases (Setup.ofBytes bytes).asks with
    | disk code =>
      simp only [Prod.map_fst, diskAnswered, Drive.requested, id]
      cases ClassRequest.ofCode? code.toNat with
      | none => exact ⟨rfl, rfl⟩
      | some request => cases request <;> exact ⟨rfl, rfl⟩
    | getDescriptor name => cases name <;> exact ⟨rfl, rfl⟩
    | setAddress | setConfiguration | otherCommand | otherQuery | setLineCoding | getLineCoding
    | setControlLineState | foreign => exact ⟨rfl, rfl⟩

theorem notice_hushes (sound : device.Sound) (presented : Presented) (start : Controller) :
    (device.notice presented).Yields start fun next after =>
      Hushed (presented.Returns (.fromHost .console)) device start next after := by
  refine Exchange.Meets.thenYields ((device.stepIf_leaves presented.setup start).mono ?_)
  rintro asked looked events ⟨rfl, leaves⟩
  have soundAsked := sound_asked sound presented.setup
  obtain ⟨queue, file⟩ := device.drive_asked presented.setup
  have hushed : Hushed (presented.Returns (.fromHost .console)) device start
      (device.asked presented.setup).1 looked := by
    refine ⟨soundAsked, .inr queue, ?_, leaves (.toHost .console) (by decide)⟩
    rw [file]
    exact .refl _
  exact (onBuffers_hushes soundAsked presented looked).mono fun _ _ later => hushed.trans later

end Device

end ScriptDrive
