import ScriptDrive.Proofs.Device.Service

/-!
# The buffers of one turn

The two halves of the control endpoint come first among the buffers that are served, and only they can be
found to be held: by an act of the request of the same turn, or, for the half from the host, by the room
that is made when nothing is left to send.  `Blocked` says when that is.  `serveAll_halts` and
`serveReturned_meets` are the two cases.
-/

set_option autoImplicit false

namespace ScriptDrive

def Presented.Returns (presented : Presented) (endpoint : Endpoint) : Prop :=
  ∃ buffer ∈ presented.returned, buffer.index = endpoint.index

instance (presented : Presented) (endpoint : Endpoint) : Decidable (presented.Returns endpoint) :=
  inferInstanceAs (Decidable (∃ buffer ∈ presented.returned, buffer.index = endpoint.index))

/-- The controller has let go of every buffer it hands back. -/
def Presented.Released (presented : Presented) : Prop :=
  ∀ buffer ∈ presented.returned, buffer.stuck = false

namespace Device

/-! ## The order of the buffers -/

def bulkPlaces (returned : List Returned) : List Nat :=
  (List.range' 2 30).filter fun index => returned.any fun buffer => buffer.index == index

theorem mem_bulkPlaces {returned : List Returned} {index : Nat} :
    index ∈ bulkPlaces returned ↔
      (2 ≤ index ∧ index < 32) ∧ ∃ buffer ∈ returned, buffer.index = index := by
  simp only [bulkPlaces, List.mem_filter, List.mem_range'_1, List.any_eq_true, beq_iff_eq]

theorem bulk_of_mem_bulkPlaces {returned : List Returned} : ∀ index ∈ bulkPlaces returned, 2 ≤ index :=
  fun _ present => (mem_bulkPlaces.mp present).1.1

theorem pairwise_bulkPlaces (returned : List Returned) :
    (bulkPlaces returned).Pairwise (· < ·) :=
  List.Pairwise.filter _ List.pairwise_lt_range'

theorem serveAll_append (device : Device) (first second : List Nat) :
    device.serveAll (first ++ second) = device.serveAll first >>= fun next => next.serveAll second := by
  induction first generalizing device with
  | nil => rw [List.nil_append, serveAll, pure_bind]
  | cons index rest restInduction =>
    rw [List.cons_append, serveAll, serveAll]
    cases Endpoint.ofIndex? index with
    | none =>
      rw [pure_bind, pure_bind]
      exact restInduction device
    | some endpoint =>
      rw [bind_assoc]
      exact congrArg (device.serve endpoint >>= ·) (funext restInduction)

def serveIf (device : Device) (presented : Presented) (endpoint : Endpoint) :
    Exchange Controller Device :=
  if presented.Returns endpoint then device.serve endpoint else pure device

theorem serveAll_place (device : Device) (presented : Presented) (endpoint : Endpoint) :
    device.serveAll ([endpoint.index].filter fun index =>
        presented.returned.any fun buffer => buffer.index == index) =
      device.serveIf presented endpoint := by
  have came : (presented.returned.any fun buffer => buffer.index == endpoint.index) = true ↔
      presented.Returns endpoint := by
    simp only [List.any_eq_true, beq_iff_eq, Presented.Returns]
  unfold serveIf
  rw [List.filter_cons, List.filter_nil]
  by_cases returns : presented.Returns endpoint
  · rw [if_pos returns, if_pos (came.mpr returns), serveAll, Endpoint.ofIndex?_index]
    exact bind_pure (device.serve endpoint)
  · rw [if_neg returns, if_neg (fun any => returns (came.mp any))]
    rfl

/-- The control endpoint is served first, towards the host before from the host. -/
theorem serveAll_statusPlaces (device : Device) (presented : Presented) :
    device.serveAll (statusPlaces presented.returned) =
      device.serveIf presented (.toHost .control) >>= fun collected =>
        collected.serveIf presented (.fromHost .control) >>= fun took =>
          took.serveAll (bulkPlaces presented.returned) := by
  have parts : List.range 32 = [(Endpoint.toHost .control).index] ++
      ([(Endpoint.fromHost .control).index] ++ List.range' 2 30) := by decide
  simp only [statusPlaces, parts, List.filter_append, serveAll_append, serveAll_place]
  rfl

/-! ## What comes of them -/

theorem apart_control_in {other : Endpoint} (bulk : 2 ≤ other.index) : other ≠ .toHost .control := by
  rintro rfl
  exact absurd bulk (by decide)

theorem apart_control_out {other : Endpoint} (bulk : 2 ≤ other.index) :
    other ≠ .fromHost .control := by
  rintro rfl
  exact absurd bulk (by decide)

/-- A buffer of the control endpoint will be found to be held. -/
def Blocked (asked : Device) (presented : Presented) (start : Controller) : Prop :=
  presented.Returns (.toHost .control) ∧ start.holds (.toHost .control) = true ∨
    presented.Returns (.fromHost .control) ∧
      (start.holds (.fromHost .control) = true ∨
        presented.Returns (.toHost .control) ∧ asked.unfinished.collected.2 = .room 0)

def controlCollected (asked : Device) (presented : Presented) : Device :=
  if presented.Returns (.toHost .control) then asked.resume asked.unfinished.collected.1 else asked

def controlServed (asked : Device) (presented : Presented) (packet : List UInt8) : Device :=
  if presented.Returns (.fromHost .control) then
    ((asked.controlCollected presented).tookControl packet).1
  else
    asked.controlCollected presented

def controlActs (asked : Device) (presented : Presented) : List ControlAct :=
  (if presented.Returns (.toHost .control) then [asked.unfinished.collected.2] else []) ++
    (if presented.Returns (.fromHost .control) ∧ asked.lineCodingDue = true then [.send .empty]
      else [])

theorem lineCodingDue_controlCollected (asked : Device) (presented : Presented) :
    (asked.controlCollected presented).lineCodingDue = asked.lineCodingDue := by
  unfold controlCollected
  split
  · exact asked.unfinished.lineCodingDue_collected
  · rfl

theorem drive_controlCollected (asked : Device) (presented : Presented) :
    (asked.controlCollected presented).drive = asked.drive := by
  unfold controlCollected
  split <;> rfl

theorem drive_tookControl (device : Device) (packet : List UInt8) :
    (device.tookControl packet).1.drive = device.drive := by
  unfold tookControl
  split <;> rfl

theorem act_tookControl (device : Device) (packet : List UInt8) :
    (device.tookControl packet).2.toList =
      if device.lineCodingDue = true then [.send .empty] else [] := by
  unfold tookControl
  split <;> rfl

theorem Sound.of_drive {device next : Device} (sound : device.Sound)
    (driveIs : next.drive = device.drive) : next.Sound := by
  refine ⟨?_, ?_⟩
  · rw [driveIs]
    exact sound.drive
  · rw [driveIs]
    exact sound.identity

theorem act_collected (left : Unfinished) :
    (∃ value, left.collected.2 = .address value) ∨ (∃ packet, left.collected.2 = .send packet) ∨
      left.collected.2 = .room 0 := by
  unfold Unfinished.collected
  split
  · exact .inl ⟨_, rfl⟩
  · split
    · exact .inr (.inl ⟨_, rfl⟩)
    · exact .inr (.inr rfl)

/-- Once the host collected a packet, the buffer from the host is held if it was before, or for the
room that is made for the host's status. -/
theorem holds_collected {left : Unfinished} {start after : Controller}
    (did : start.Did (some left.collected.2) after) :
    after.holds (.fromHost .control) = true ↔
      start.holds (.fromHost .control) = true ∨ left.collected.2 = .room 0 := by
  rw [did.holds, Controller.acted, Option.elim_some, Controller.holds_act]
  rcases act_collected left with ⟨value, actIs⟩ | ⟨packet, actIs⟩ | actIs
  · simp only [actIs, reduceCtorEq, or_false]
  · simp only [actIs, reduceCtorEq, or_false, if_false]
  · simp only [actIs, or_true, if_true]

theorem serveIf_meets_collected (device : Device) {presented : Presented} {start : Controller}
    (free : presented.Returns (.toHost .control) → start.holds (.toHost .control) = false) :
    (device.serveIf presented (.toHost .control)).Meets start fun next after _ =>
      next = device.controlCollected presented ∧
        after.acts = start.acts ++
          (if presented.Returns (.toHost .control) then [device.unfinished.collected.2] else []) ∧
        (∀ other : Endpoint, 2 ≤ other.index → after.holds other = start.holds other) ∧
        (after.holds (.fromHost .control) = true ↔ start.holds (.fromHost .control) = true ∨
          presented.Returns (.toHost .control) ∧ device.unfinished.collected.2 = .room 0) := by
  unfold serveIf controlCollected
  by_cases returns : presented.Returns (.toHost .control)
  · simp only [if_pos returns]
    refine (device.serve_meets_collected (free returns)).mono ?_
    rintro next after events ⟨nextIs, did⟩
    refine ⟨nextIs, did.acts, fun other bulk => ?_, ?_⟩
    · exact did.holds_of_ne (apart_control_in bulk) (apart_control_out bulk)
    · rw [holds_collected did]
      simp only [returns, true_and]
  · simp only [returns, if_false, false_and, or_false]
    exact (Exchange.meets_pure ..).mpr
      ⟨rfl, (List.append_nil _).symm, fun _ _ => rfl, Iff.rfl⟩

theorem serveIf_meets_control (device : Device) {presented : Presented} {start : Controller}
    (free : presented.Returns (.fromHost .control) → start.holds (.fromHost .control) = false) :
    (device.serveIf presented (.fromHost .control)).Meets start fun next after _ =>
      (∃ packet, next = if presented.Returns (.fromHost .control) then (device.tookControl packet).1
        else device) ∧
        after.acts = start.acts ++
          (if presented.Returns (.fromHost .control) ∧ device.lineCodingDue = true then
            [.send .empty] else []) ∧
        ∀ other : Endpoint, 2 ≤ other.index → after.holds other = start.holds other := by
  unfold serveIf
  by_cases returns : presented.Returns (.fromHost .control)
  · simp only [returns, true_and, if_true]
    refine (device.serve_meets_control (free returns)).mono ?_
    rintro next after events ⟨packet, nextIs, did⟩
    refine ⟨⟨packet, nextIs⟩, ?_, fun other bulk => ?_⟩
    · rw [did.acts, act_tookControl]
    · exact did.holds_of_ne (apart_control_in bulk) (apart_control_out bulk)
  · simp only [returns, false_and, if_false]
    exact (Exchange.meets_pure ..).mpr ⟨⟨[], rfl⟩, (List.append_nil _).symm, fun _ _ => rfl⟩

/-- Unless a buffer of the control endpoint is held, all buffers are served. -/
theorem serveReturned_meets {asked : Device} (sound : asked.Sound) {presented : Presented}
    {start : Controller} (clear : ¬ asked.Blocked presented start)
    (free : ∀ endpoint : Endpoint, 2 ≤ endpoint.index → presented.Returns endpoint →
      start.holds endpoint = false) :
    (asked.serveAll (statusPlaces presented.returned)).Meets start fun next after _ =>
      next.Sound ∧
        (∃ packet, next = { asked.controlServed presented packet with drive := next.drive }) ∧
        after.acts = start.acts ++ asked.controlActs presented := by
  have freeIn (returns : presented.Returns (.toHost .control)) :
      start.holds (.toHost .control) = false :=
    Bool.eq_false_iff.mpr fun held => clear (.inl ⟨returns, held⟩)
  rw [serveAll_statusPlaces, Exchange.meets_bind]
  refine (asked.serveIf_meets_collected freeIn).mono ?_
  rintro collected between events ⟨collectedIs, actsIn, heldIn, heldOut⟩
  have freeOut (returns : presented.Returns (.fromHost .control)) :
      between.holds (.fromHost .control) = false :=
    Bool.eq_false_iff.mpr fun held => clear (.inr ⟨returns, heldOut.mp held⟩)
  have due : collected.lineCodingDue = asked.lineCodingDue := by
    rw [collectedIs]
    exact asked.lineCodingDue_controlCollected presented
  have soundCollected : collected.Sound := by
    refine sound.of_drive ?_
    rw [collectedIs]
    exact asked.drive_controlCollected presented
  rw [Exchange.meets_bind]
  refine (collected.serveIf_meets_control freeOut).mono ?_
  rintro took middle later ⟨⟨packet, tookIs⟩, actsOut, heldBulk⟩
  have servedIs : took = asked.controlServed presented packet := by
    rw [tookIs, collectedIs]
    rfl
  have soundTook : took.Sound := by
    refine soundCollected.of_drive ?_
    rw [tookIs]
    split
    · exact collected.drive_tookControl packet
    · rfl
  refine (serveAll_meets soundTook (pairwise_bulkPlaces presented.returned) bulk_of_mem_bulkPlaces
    fun endpoint present => ?_).mono ?_
  · obtain ⟨⟨bulk, -⟩, returns⟩ := mem_bulkPlaces.mp present
    rw [heldBulk endpoint bulk, heldIn endpoint bulk]
    exact free endpoint bulk returns
  · rintro next after last ⟨drove, -⟩
    refine ⟨drove.sound, ⟨packet, ?_⟩, ?_⟩
    · rw [← servedIs]
      exact drove.rest
    · rw [drove.acts, actsOut, actsIn, due, controlActs, List.append_assoc]

theorem serveReturned_halts {asked : Device} {presented : Presented} {start : Controller}
    (blocked : asked.Blocked presented start) :
    (asked.serveAll (statusPlaces presented.returned)).Halts start .bufferHeld := by
  rw [serveAll_statusPlaces]
  by_cases first : presented.Returns (.toHost .control) ∧ start.holds (.toHost .control) = true
  · obtain ⟨returns, held⟩ := first
    refine Exchange.Halts.bind ?_ _
    rw [serveIf, if_pos returns]
    exact asked.serve_halts held
  · obtain ⟨returnsOut, heldOut⟩ := blocked.resolve_left first
    have freeIn (returns : presented.Returns (.toHost .control)) :
        start.holds (.toHost .control) = false :=
      Bool.eq_false_iff.mpr fun held => first ⟨returns, held⟩
    refine ((asked.serveIf_meets_collected freeIn).mono ?_).halts
    rintro collected between events ⟨-, -, -, heldBetween⟩
    refine Exchange.Halts.bind ?_ _
    rw [serveIf, if_pos returnsOut]
    exact collected.serve_halts (heldBetween.mpr heldOut)

end Device

end ScriptDrive
