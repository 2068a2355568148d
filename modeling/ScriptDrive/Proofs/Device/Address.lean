import ScriptDrive.Proofs.Device.Runs

/-!
# The address and the data stage

Both the new address and the rest of a data stage wait for the host to collect a packet.  `agenda` lists
what is waiting, in the order in which it is done; a packet collected does the first of it and no more.
`Setup.agenda` is what a request has waiting once it is answered.

`After.acts_eq` says what an address waits for in every run.  It goes on to runs in which no other request
comes while an address is waiting: there, what is done is what the latest request asked for, packet by
packet.  Other runs are different, since a request drops the data stage before it but not the address.
`address_outlives_request` is such a run.
-/

set_option autoImplicit false

namespace ScriptDrive

/-! ## What is waiting -/

namespace DataStage

def packets (stage : DataStage) : List Packet :=
  packetsOf stage.rest ++ if stage.emptyDue = true then [.empty] else []

theorem packets_of_next? (stage : DataStage) :
    stage.packets = stage.next?.elim [] fun next => next.1 :: next.2.packets := by
  obtain ⟨rest, emptyDue⟩ := stage
  unfold next? packets
  cases rest with
  | nil => cases emptyDue <;> simp
  | cons byte rest =>
    simp only [packetsOf_of_ne_nil (List.cons_ne_nil byte rest), List.isEmpty_cons, Bool.false_eq_true,
      if_false, Option.elim_some, List.cons_append]

@[simp] theorem packets_empty : ({} : DataStage).packets = [] := by
  rw [packets_of_next?]
  rfl

/-- No byte of a data stage is lost, and none comes twice. -/
theorem flatten_packets_opening (data : List UInt8) (requested : Nat) :
    ((opening data requested).packets.map Packet.bytes).flatten = data.take requested := by
  unfold packets opening
  dsimp only
  rw [List.map_append, List.flatten_append, flatten_packetsOf]
  split
  · exact List.append_nil _
  · exact List.append_nil _

theorem packets_opened (data : List UInt8) (requested : Nat) :
    (opened data requested).1 = (opening data requested).packets.headD .empty ∧
      (opened data requested).2.packets = (opening data requested).packets.tail := by
  have packets := (opening data requested).packets_of_next?
  unfold opened
  cases next : (opening data requested).next? with
  | some next =>
    rw [next] at packets
    rw [packets]
    exact ⟨rfl, rfl⟩
  | none =>
    rw [next] at packets
    simp only [Option.getD_none, packets, Option.elim_none, List.tail_nil, and_true]
    rfl

end DataStage

def addressWord (address : UInt8) : UInt32 :=
  UInt32.ofNat (address.toNat % 128)

/-- What waits for the host to collect packets, one for each of them. -/
def Unfinished.agenda (left : Unfinished) : List ControlAct :=
  (left.address.map fun address => .address (addressWord address)).toList ++
    left.stage.packets.map .send

namespace Setup

def address? (setup : Setup) : Option UInt8 :=
  match setup.asks with
  | .setAddress address => some address
  | _ => none

def stage? (setup : Setup) : Option DataStage :=
  match setup.asks with
  | .getDescriptor .device => some (.opening Descriptor.device setup.length.toNat)
  | .getDescriptor .configuration => some (.opening Descriptor.configuration setup.length.toNat)
  | _ => none

/-- What waits once the request is answered, the first packet of its data being sent. -/
def agenda (setup : Setup) : List ControlAct :=
  (setup.address?.map fun address => .address (addressWord address)).toList ++
    (setup.stage?.elim [] fun stage => stage.packets.tail.map .send)

end Setup

namespace Presented

def request (presented : Presented) : Option Setup :=
  presented.setup.map .ofBytes

def awaits (presented : Presented) (before : Option UInt8) : Option UInt8 :=
  (presented.request.bind Setup.address?).or before

def asking (presented : Presented) (before : Option (Setup × Nat)) : Option (Setup × Nat) :=
  (presented.request.map fun setup => (setup, 0)).or before

end Presented

def Write.address? : Write → Option UInt32
  | .register .deviceAddress value => some value
  | _ => none

def Controller.addresses (controller : Controller) : List UInt32 :=
  controller.writes.filterMap Write.address?

/-! ## Histories -/

/-- The address that was asked for last, as long as neither the host has collected a packet since nor the
bus was reset. -/
def awaited : List Presented → Option UInt8
  | [] => none
  | presented :: earlier =>
    if presented.busReset = true ∨ presented.Returns (.toHost .control) then none
    else presented.awaits (awaited earlier)

/-- The latest request since the last bus reset, and how many packets the host has collected since. -/
def latest : List Presented → Option (Setup × Nat)
  | [] => none
  | presented :: earlier =>
    if presented.busReset = true then none
    else if presented.Returns (.toHost .control) then
      (presented.asking (latest earlier)).map fun asked => (asked.1, asked.2 + 1)
    else presented.asking (latest earlier)

def waiting (latest : Option (Setup × Nat)) : List ControlAct :=
  latest.elim [] fun asked => asked.1.agenda.drop asked.2

/-- While an address is awaited, no request comes but for another address. -/
def Unhurried : List Presented → Prop
  | [] => True
  | presented :: earlier =>
    Unhurried earlier ∧
      ∀ setup ∈ presented.request, (awaited earlier).isSome → setup.address?.isSome

/-! ## One turn -/

namespace Unfinished

theorem collected_of_agenda (left : Unfinished) :
    left.collected.2 = left.agenda.headD (.room 0) ∧ left.collected.1.agenda = left.agenda.tail := by
  obtain ⟨address, stage, lineCodingDue⟩ := left
  have packets := stage.packets_of_next?
  unfold collected agenda
  cases address with
  | some address => exact ⟨rfl, rfl⟩
  | none =>
    cases next : stage.next? with
    | some next =>
      simp only [next] at packets ⊢
      rw [packets]
      exact ⟨rfl, rfl⟩
    | none =>
      simp only [next] at packets ⊢
      rw [packets]
      exact ⟨rfl, rfl⟩

theorem address_collected (left : Unfinished) : left.collected.1.address = none := by
  obtain ⟨address, stage, lineCodingDue⟩ := left
  unfold collected
  cases address with
  | some address => rfl
  | none => cases stage.next? <;> rfl

theorem agenda_afterServing (left : Unfinished) (presented : Presented) :
    (left.afterServing presented).agenda =
      if presented.busReset = true then []
      else if presented.Returns (.toHost .control) then left.agenda.tail
      else left.agenda := by
  unfold afterServing
  dsimp only
  by_cases reset : presented.busReset = true
  · rw [if_pos reset, if_pos reset, agenda, DataStage.packets_empty]
    rfl
  · rw [if_neg reset, if_neg reset, ← left.collected_of_agenda.2]
    by_cases returns : presented.Returns (.toHost .control)
    · rw [if_pos returns, if_pos returns]
      split <;> rfl
    · rw [if_neg returns, if_neg returns]
      split <;> rfl

theorem address_afterServing (left : Unfinished) (presented : Presented) :
    (left.afterServing presented).address =
      if presented.busReset = true ∨ presented.Returns (.toHost .control) then none
      else left.address := by
  unfold afterServing
  dsimp only
  by_cases reset : presented.busReset = true
  · rw [if_pos reset, if_pos (.inl reset)]
  · by_cases returns : presented.Returns (.toHost .control)
    · rw [if_neg reset, if_pos (Or.inr returns), if_pos returns]
      split <;> exact left.address_collected
    · rw [if_neg reset, if_neg (not_or.mpr ⟨reset, returns⟩), if_neg returns]
      split <;> rfl

end Unfinished

namespace Device

/-- A request for an address has it awaited, and any other leaves the address that is. -/
theorem newAddress_asked (device : Device) (presented : Presented) :
    (device.asked presented.setup).1.newAddress = presented.awaits device.newAddress := by
  unfold asked Presented.awaits Presented.request
  cases presented.setup with
  | none => rfl
  | some bytes =>
    dsimp only [Option.map_some, Option.bind_some]
    unfold answered Setup.address?
    cases (Setup.ofBytes bytes).asks with
    | getDescriptor name => cases name <;> rfl
    | setAddress | setConfiguration | otherCommand | otherQuery | disk | setLineCoding | getLineCoding
    | setControlLineState | foreign => rfl

/-- A request drops the data stage before it, and opens its own. -/
theorem packets_answered (device : Device) (setup : Setup) :
    match setup.stage? with
    | some stage =>
      (device.dropped.answered setup).1.stage.packets = stage.packets.tail ∧
        (device.dropped.answered setup).2 = some (.send (stage.packets.headD .empty))
    | none => (device.dropped.answered setup).1.stage.packets = [] := by
  unfold answered Setup.stage?
  cases setup.asks with
  | getDescriptor name =>
    cases name with
    | device | configuration =>
      obtain ⟨first, rest⟩ := DataStage.packets_opened _ setup.length.toNat
      exact ⟨rest, congrArg (fun packet => some (ControlAct.send packet)) first⟩
    | languages | vendor | product | unknown => exact DataStage.packets_empty
  | setAddress | setConfiguration | otherCommand | otherQuery | disk | setLineCoding | getLineCoding
  | setControlLineState | foreign => exact DataStage.packets_empty

/-- In an unhurried run, a request leaves no other address awaited than its own. -/
theorem awaits_of_request {presented : Presented} {before : Option UInt8} {setup : Setup}
    (requested : presented.request = some setup)
    (unhurried : before.isSome → setup.address?.isSome) :
    presented.awaits before = setup.address? := by
  rw [Presented.awaits, requested, Option.bind_some]
  cases asksAddress : setup.address? with
  | some address => rfl
  | none =>
    cases before with
    | none => rfl
    | some address =>
      rw [asksAddress] at unhurried
      exact absurd (unhurried rfl) Bool.false_ne_true

theorem agenda_asked (device : Device) (presented : Presented)
    (unhurried : ∀ setup ∈ presented.request, device.newAddress.isSome → setup.address?.isSome) :
    (device.asked presented.setup).1.unfinished.agenda =
      presented.request.elim device.unfinished.agenda Setup.agenda := by
  cases brought : presented.setup with
  | none =>
    rw [Presented.request, brought]
    rfl
  | some bytes =>
    have requested : presented.request = some (.ofBytes bytes) := by
      rw [Presented.request, brought]
      rfl
    have newAddress : (device.dropped.answered (.ofBytes bytes)).1.newAddress =
        (Setup.ofBytes bytes).address? := by
      rw [← awaits_of_request requested (unhurried _ requested), ← device.newAddress_asked presented,
        brought]
      rfl
    have packets := device.packets_answered (.ofBytes bytes)
    simp only [asked, requested, Option.elim_some, Unfinished.agenda, unfinished, newAddress,
      Setup.agenda]
    cases opens : (Setup.ofBytes bytes).stage? with
    | some stage =>
      rw [opens] at packets
      rw [packets.1]
      rfl
    | none =>
      rw [opens] at packets
      rw [packets]
      rfl

theorem waiting_asking (presented : Presented) (before : Option (Setup × Nat)) :
    waiting (presented.asking before) = presented.request.elim (waiting before) Setup.agenda := by
  unfold Presented.asking
  cases presented.request with
  | none => rfl
  | some setup => rfl

theorem waiting_latest (presented : Presented) (earlier : List Presented) :
    waiting (latest (presented :: earlier)) =
      if presented.busReset = true then []
      else if presented.Returns (.toHost .control) then
        (waiting (presented.asking (latest earlier))).tail
      else waiting (presented.asking (latest earlier)) := by
  rw [latest]
  split
  · rfl
  · split
    · cases presented.asking (latest earlier) with
      | none => rfl
      | some asked => exact List.tail_drop.symm
    · rfl

/-! ## Every run -/

section

variable {board : Board} {device : Device} {controller : Controller} {history : List Presented}

theorem After.newAddress_eq (after : After board device controller history) :
    device.newAddress = awaited history := by
  induction after with
  | powerUp resets started => exact congrArg Unfinished.address (of_powerUp started).2
  | @turn device next controller history presented before released turned awaits =>
    obtain ⟨-, left, -⟩ := turn_of_ok before.sound released turned
    have address := congrArg Unfinished.address left
    rw [Unfinished.address_afterServing] at address
    rw [awaited, ← awaits, ← device.newAddress_asked presented]
    exact address

/-- In an unhurried run, what is waiting is what the latest request left. -/
theorem After.agenda_eq (after : After board device controller history)
    (unhurried : Unhurried history) : device.unfinished.agenda = waiting (latest history) := by
  induction after with
  | powerUp resets started =>
    rw [(of_powerUp started).2, Unfinished.agenda, DataStage.packets_empty]
    rfl
  | @turn device next controller history presented before released turned waits =>
    obtain ⟨unhurriedBefore, unhurriedHere⟩ := unhurried
    rw [← before.newAddress_eq] at unhurriedHere
    obtain ⟨-, left, -⟩ := turn_of_ok before.sound released turned
    rw [left, Unfinished.agenda_afterServing, device.agenda_asked presented unhurriedHere,
      waits unhurriedBefore, waiting_latest, waiting_asking]

end

theorem asking_of_request {presented : Presented} {setup : Setup}
    (requested : presented.request = some setup) (before : Option (Setup × Nat)) :
    presented.asking before = some (setup, 0) := by
  rw [Presented.asking, requested]
  rfl

/-- In an unhurried run, the address that is awaited is the one the latest request asked for. -/
theorem asking_of_awaits {presented : Presented} {history : List Presented}
    (unhurried : Unhurried (presented :: history)) {address : UInt8}
    (awaits : presented.awaits (awaited history) = some address) :
    ∃ setup, presented.asking (latest history) = some (setup, 0) ∧ setup.address? = some address := by
  induction history generalizing presented with
  | nil =>
    cases requested : presented.request with
    | some setup =>
      rw [awaits_of_request requested (unhurried.2 setup requested)] at awaits
      exact ⟨setup, asking_of_request requested _, awaits⟩
    | none =>
      rw [Presented.awaits, requested] at awaits
      cases awaits
  | cons before earlier earlierInduction =>
    cases requested : presented.request with
    | some setup =>
      rw [awaits_of_request requested (unhurried.2 setup requested)] at awaits
      exact ⟨setup, asking_of_request requested _, awaits⟩
    | none =>
      -- The turn before neither collected a packet nor reset the bus, or nothing would be awaited.
      rw [Presented.awaits, requested, Option.bind_none, Option.none_or, awaited] at awaits
      rw [Presented.asking, requested, Option.map_none, Option.none_or, latest]
      split at awaits
      · cases awaits
      · rename_i quiet
        obtain ⟨noReset, notCollected⟩ := not_or.mp quiet
        rw [if_neg noReset, if_neg notCollected]
        exact earlierInduction unhurried.1 awaits

/-! ## Addresses among the acts -/

end Device

def ControlAct.address? : ControlAct → Option UInt32
  | .address value => some value
  | _ => none

theorem Controller.addresses_eq (controller : Controller) :
    controller.addresses = controller.acts.filterMap ControlAct.address? := by
  rw [addresses, acts, List.filterMap_filterMap]
  refine congrArg (List.filterMap · controller.writes) (funext fun made => ?_)
  cases made with
  | register register value => cases register <;> rfl
  | buffer endpoint control packet =>
    cases endpoint with
    | toHost endpoint => cases endpoint <;> cases packet <;> rfl
    | fromHost endpoint =>
      cases endpoint with
      | control =>
        cases packet with
        | some packet => rfl
        | none =>
          simp only [Write.act?]
          split <;> rfl
      | console | disk => rfl

theorem Unfinished.address?_collected (left : Unfinished) :
    left.collected.2.address? = left.address.map addressWord := by
  unfold collected
  cases left.address with
  | some address => rfl
  | none => cases left.stage.next? <;> rfl

namespace Device

/-- No answer to a request is an address. -/
theorem filterMap_address?_asked (device : Device) (presented : Presented) :
    (device.asked presented.setup).2.toList.filterMap ControlAct.address? = [] := by
  unfold asked
  cases presented.setup with
  | none => rfl
  | some bytes =>
    dsimp only
    unfold answered
    cases (Setup.ofBytes bytes).asks with
    | getDescriptor name => cases name <;> rfl
    | disk code =>
      simp only [diskAnswered, Prod.map_snd]
      cases (device.dropped.drive.requested code).2 <;> rfl
    | setAddress | setConfiguration | otherCommand | otherQuery | setLineCoding | getLineCoding
    | setControlLineState | foreign => rfl

def settingsActs (device : Device) (presented : Presented) : List ControlAct :=
  if presented.Returns (.fromHost .control) ∧ (device.asked presented.setup).1.lineCodingDue = true then
    [.send .empty]
  else
    []

theorem filterMap_address?_settingsActs (device : Device) (presented : Presented) :
    (device.settingsActs presented).filterMap ControlAct.address? = [] := by
  unfold settingsActs
  split <;> rfl

theorem turnActs_eq (device : Device) (presented : Presented) :
    device.turnActs presented =
      (device.asked presented.setup).2.toList ++
        ((if presented.Returns (.toHost .control) then
          [(device.asked presented.setup).1.unfinished.agenda.headD (.room 0)] else []) ++
        (device.settingsActs presented ++ if presented.busReset = true then [.address 0] else [])) := by
  rw [turnActs, controlActs, (Unfinished.collected_of_agenda _).1, List.append_assoc]
  rfl

/-- The addresses that a turn takes. -/
theorem filterMap_address?_turnActs (device : Device) (presented : Presented) :
    (device.turnActs presented).filterMap ControlAct.address? =
      (if presented.Returns (.toHost .control) then
        ((presented.awaits device.newAddress).map addressWord).toList else []) ++
      (if presented.busReset = true then [0] else []) := by
  have awaits : (device.asked presented.setup).1.unfinished.address =
      presented.awaits device.newAddress := device.newAddress_asked presented
  rw [turnActs_eq, ← (Unfinished.collected_of_agenda _).1, ← awaits,
    ← Unfinished.address?_collected]
  simp only [List.filterMap_append, filterMap_address?_asked, filterMap_address?_settingsActs,
    List.nil_append]
  congr 1
  · split
    · cases (device.asked presented.setup).1.unfinished.collected.2 <;> rfl
    · rfl
  · split <;> rfl

theorem not_mem_of_filterMap {acts : List ControlAct}
    (silent : acts.filterMap ControlAct.address? = []) (value : UInt32) :
    .address value ∉ acts := by
  intro present
  have found : value ∈ acts.filterMap ControlAct.address? :=
    List.mem_filterMap.mpr ⟨_, present, rfl⟩
  rw [silent] at found
  cases found

/-- A request that opens a data stage is answered by the first packet of it. -/
theorem answer_of_stage {device : Device} {presented : Presented} {stage : DataStage}
    (opens : presented.request.bind Setup.stage? = some stage) :
    (device.asked presented.setup).2.toList = [.send (stage.packets.headD .empty)] := by
  obtain ⟨setup, requested, opensIs⟩ := Option.bind_eq_some_iff.mp opens
  obtain ⟨bytes, brought, rfl⟩ := Option.map_eq_some_iff.mp requested
  have packets := device.packets_answered (.ofBytes bytes)
  rw [opensIs] at packets
  rw [brought]
  exact congrArg Option.toList packets.2

/-- In every run, the device takes an address when the host collects a packet while one is awaited, and
gives it up on a bus reset.  In an unhurried run, that is the address the latest request asked for, and
every packet collected brings what that request has waiting next, or room for the host's status. -/
theorem After.acts_eq {board : Board} {device next : Device} {controller : Controller}
    {history : List Presented} (after : After board device controller history)
    {presented : Presented} (released : presented.Released)
    (turned : (device.turn presented controller).result = .ok next) :
    (device.turn presented controller).link.addresses =
        controller.addresses ++
          (if presented.Returns (.toHost .control) then
            ((presented.awaits (awaited history)).map addressWord).toList else []) ++
          (if presented.busReset = true then [0] else []) ∧
      (Unhurried (presented :: history) →
        (∀ address, presented.awaits (awaited history) = some address →
          ∃ setup, presented.asking (latest history) = some (setup, 0) ∧
            setup.address? = some address) ∧
        ∃ answer taken : List ControlAct,
          (device.turn presented controller).link.acts =
            controller.acts ++ answer ++
              (if presented.Returns (.toHost .control) then
                [(waiting (presented.asking (latest history))).headD (.room 0)] else []) ++
              taken ++ (if presented.busReset = true then [.address 0] else []) ∧
          (∀ value, .address value ∉ answer ++ taken) ∧
          ∀ stage, presented.request.bind Setup.stage? = some stage →
            answer = [.send (stage.packets.headD .empty)]) := by
  obtain ⟨-, -, acts⟩ := turn_of_ok after.sound released turned
  constructor
  · rw [Controller.addresses_eq, Controller.addresses_eq, acts, List.filterMap_append,
      filterMap_address?_turnActs, after.newAddress_eq, List.append_assoc]
  · intro unhurried
    refine ⟨fun address => asking_of_awaits unhurried, (device.asked presented.setup).2.toList,
      device.settingsActs presented, ?_, ?_, fun stage => answer_of_stage⟩
    · obtain ⟨unhurriedBefore, unhurriedHere⟩ := unhurried
      rw [← after.newAddress_eq] at unhurriedHere
      rw [acts, turnActs_eq, device.agenda_asked presented unhurriedHere,
        after.agenda_eq unhurriedBefore, waiting_asking]
      simp only [List.append_assoc]
    · refine not_mem_of_filterMap ?_
      rw [List.filterMap_append, filterMap_address?_asked, filterMap_address?_settingsActs]
      rfl

/-! ## An address that waits and is overtaken -/

theorem not_blocked_of_returned {asked : Device} {presented : Presented} {start : Controller}
    (nothing : presented.returned = []) : ¬ asked.Blocked presented start := by
  apply not_blocked_of_bulk
  rw [nothing]
  exact List.forall_mem_nil _

/-- Without a request, the half towards the host can always be served. -/
theorem not_blocked_of_collected {device : Device} {presented : Presented} {controller : Controller}
    (released : presented.Released) (noRequest : presented.setup = none)
    (notOut : ¬ presented.Returns (.fromHost .control)) :
    ¬ (device.asked presented.setup).1.Blocked presented (device.lookedAt presented controller) := by
  rintro (⟨returns, held⟩ | ⟨returns, -⟩)
  · rw [lookedAt, noRequest] at held
    exact Bool.eq_false_iff.mp (holds_handed released returns) held
  · exact notOut returns

def asksForAddress : Presented :=
  { setup := some ⟨[0, 5, 5, 0, 0, 0, 0, 0], rfl⟩ }

def asksForConfiguration : Presented :=
  { setup := some ⟨[0x80, 6, 0, 2, 0, 0, 98, 0], rfl⟩ }

def collects : Presented :=
  { returned := [{ address := 0x80 }] }

theorem released_of_returned {presented : Presented} (nothing : presented.returned = []) :
    presented.Released := by
  rw [Presented.Released, nothing]
  exact fun _ present => absurd present List.not_mem_nil

theorem collects_released : collects.Released := by
  rw [Presented.Released]
  decide

theorem exists_asksForAddress :
    ∃ device controller, After .pico device controller [asksForAddress] := by
  obtain ⟨device, started, -, -⟩ := powerUp_ok .pico
  have released : asksForAddress.Released := released_of_returned rfl
  obtain ⟨next, after, -⟩ := (After.powerUp 0 started).go_on released (not_blocked_of_returned rfl)
  exact ⟨next, _, after⟩

/-- The host collects the acknowledgement of a request for address 5. -/
theorem After.acts_eq_five :
    ∃ device next controller, After .pico device controller [asksForAddress] ∧ collects.Released ∧
      (device.turn collects controller).result = .ok next ∧
      Unhurried [collects, asksForAddress] ∧
      (device.turn collects controller).link.addresses = controller.addresses ++ [5] ∧
      ∃ setup, collects.asking (latest [asksForAddress]) = some (setup, 0) ∧
        setup.address? = some 5 := by
  obtain ⟨device, controller, after⟩ := exists_asksForAddress
  obtain ⟨next, -, turned, -⟩ :=
    after.go_on collects_released (not_blocked_of_collected collects_released rfl (by decide))
  obtain ⟨addresses, follows⟩ := after.acts_eq collects_released turned
  have unhurried : Unhurried [collects, asksForAddress] :=
    ⟨⟨trivial, by decide⟩, by decide⟩
  exact ⟨device, next, controller, after, collects_released, turned, unhurried,
    addresses.trans (List.append_nil _), (follows unhurried).1 5 (by decide)⟩

theorem agenda_configuration :
    ∃ packet rest, (Setup.ofBytes ⟨[0x80, 6, 0, 2, 0, 0, 98, 0], rfl⟩).agenda =
      .send packet :: rest := by
  have first : Descriptor.configuration.take 98 ≠ [] := by decide
  have second : (Descriptor.configuration.take 98).drop maxPacket ≠ [] := by decide
  have stageIs : (Setup.ofBytes ⟨[0x80, 6, 0, 2, 0, 0, 98, 0], rfl⟩).stage? =
      some (.opening Descriptor.configuration 98) := by decide
  rw [Setup.agenda, stageIs, Option.elim_some, DataStage.packets, DataStage.opening]
  dsimp only
  rw [packetsOf_of_ne_nil first, packetsOf_of_ne_nil second]
  exact ⟨_, _, rfl⟩

/-- A request for an address is followed by one for the configuration, and then the host collects a
packet: the device takes the address of the request before, and sends no packet of the configuration. -/
theorem address_outlives_request :
    ∃ device next controller,
      After .pico device controller [asksForConfiguration, asksForAddress] ∧ collects.Released ∧
      (device.turn collects controller).result = .ok next ∧
      (∃ setup, collects.asking (latest [asksForConfiguration, asksForAddress]) = some (setup, 0) ∧
        setup.address? = none ∧ ∃ packet rest, setup.agenda = .send packet :: rest) ∧
      (device.turn collects controller).link.acts = controller.acts ++ [.address 5] ∧
      (device.turn collects controller).link.addresses = controller.addresses ++ [5] := by
  obtain ⟨first, controller, afterAddress⟩ := exists_asksForAddress
  have released : asksForConfiguration.Released := released_of_returned rfl
  obtain ⟨device, after, -⟩ := afterAddress.go_on released (not_blocked_of_returned rfl)
  obtain ⟨next, -, turned, acts⟩ :=
    after.go_on collects_released (not_blocked_of_collected collects_released rfl (by decide))
  have awaits : device.unfinished.address = some 5 := after.newAddress_eq.trans (by decide)
  have actsAre : device.turnActs collects = [.address 5] := by
    have left : (device.asked collects.setup).1.unfinished.agenda =
        .address 5 :: device.stage.packets.map .send := by
      change device.unfinished.agenda = _
      rw [Unfinished.agenda, awaits]
      rfl
    rw [turnActs_eq, left]
    rfl
  rw [actsAre] at acts
  refine ⟨device, next, _, after, collects_released, turned,
    ⟨_, rfl, by decide, agenda_configuration⟩, acts, ?_⟩
  rw [Controller.addresses_eq, acts, List.filterMap_append, ← Controller.addresses_eq]
  rfl

end Device

end ScriptDrive
