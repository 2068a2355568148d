import ScriptDrive.Proofs.Drive.Sessions

/-!
# Hosts that read

A host is a program whose only steps are reads of blocks; what it does next may depend on all it has
read.  `Ran` lets it do so with the packets of a drive, and `on` with a volume that is simply there.
`value_of_ran` says that it finds the same in both ways, and `exists_ran` that a drive lets it finish.
-/

set_option autoImplicit false

namespace ScriptDrive

variable {capacity : Nat} {α β : Type}

inductive Host (α : Type) where
  | done (value : α)
  | fetch (lba : UInt32) (blocks : UInt16) (next : List UInt8 → Host α)

namespace Host

def andThen (first : Host α) (next : α → Host β) : Host β :=
  match first with
  | .done value => next value
  | .fetch lba blocks rest => .fetch lba blocks fun bytes => (rest bytes).andThen next

instance : Monad Host where
  pure := done
  bind := andThen

def read (first count : Nat) : Host (List UInt8) :=
  .fetch (UInt32.ofNat first) (UInt16.ofNat count) done

/-- What a program comes to on a volume that answers every read at once. -/
def on (volume : UInt32 → UInt16 → List UInt8) : Host α → α
  | .done value => value
  | .fetch lba blocks next => (next (volume lba blocks)).on volume

@[simp] theorem on_pure (volume : UInt32 → UInt16 → List UInt8) (value : α) :
    (pure value : Host α).on volume = value := rfl

@[simp] theorem on_read (volume : UInt32 → UInt16 → List UInt8) (first count : Nat) :
    (read first count).on volume = volume (UInt32.ofNat first) (UInt16.ofNat count) := rfl

@[simp] theorem on_bind (volume : UInt32 → UInt16 → List UInt8) (first : Host α)
    (next : α → Host β) : (first >>= next).on volume = (next (first.on volume)).on volume := by
  change (first.andThen next).on volume = _
  induction first with
  | done value => rfl
  | fetch lba blocks rest restInduction => exact restInduction (volume lba blocks)

end Host

/-- The volume as a drive shows it: with its file at the first cluster. -/
def Drive.shown (drive : Drive capacity) (lba : UInt32) (blocks : UInt16) : List UInt8 :=
  Volume.images drive.identity drive.file.rehome drive.storage.ram lba.toNat blocks.toNat

namespace Drive

theorem Same.shown {drive last : Drive capacity} (same : drive.Same last) :
    last.shown = drive.shown := by
  funext lba blocks
  simp only [Drive.shown, Volume.images, same.identity, same.ram]
  congr 1
  funext index
  have sizes : last.file.rehome.size = drive.file.rehome.size := same.size
  exact Volume.image_congr drive.identity drive.storage.ram _ rfl sizes

theorem Session.read {drive last : Drive capacity} {wrapper : CommandWrapper}
    {packets : List (List UInt8)} {lba : UInt32} {blocks : UInt16}
    (session : drive.Session wrapper last packets)
    (commandIs : wrapper.command = .read10 lba blocks)
    (requested : wrapper.requested.toNat = sectorSize * blocks.toNat) :
    packets.dropLast.flatten = drive.shown lba blocks ∧ drive.Same last := by
  have noData : wrapper.written = 0 := by simp only [CommandWrapper.written, commandIs]
  obtain ⟨packetsAre, same⟩ := session.response noData
  refine ⟨?_, same⟩
  have whole : drive.storage.answer wrapper = drive.shown lba blocks :=
    drive.storage.answer_of_blocks commandIs (Nat.le_of_eq requested.symm)
  rw [packetsAre, Storage.response, List.dropLast_concat, flatten_chunks, whole]

end Drive

namespace Host

/-- A program carried out on a drive, read by read.  Of the packets of each session the last is the
status, and the others hold the blocks. -/
inductive Ran : Host α → Drive capacity → Drive capacity → α → Prop
  | done (value : α) (drive : Drive capacity) : Ran (.done value) drive drive value
  | fetch {lba : UInt32} {blocks : UInt16} {next : List UInt8 → Host α}
      {drive middle last : Drive capacity} {wrapper : CommandWrapper}
      {packets : List (List UInt8)} {value : α}
      (commandIs : wrapper.command = .read10 lba blocks)
      (requested : wrapper.requested.toNat = sectorSize * blocks.toNat)
      (session : drive.Session wrapper middle packets)
      (rest : Ran (next packets.dropLast.flatten) middle last value) :
      Ran (.fetch lba blocks next) drive last value

/-- Whatever else goes on, a host finds what is on the volume, and leaves it as it was. -/
theorem value_of_ran {host : Host α} {drive last : Drive capacity} {value : α}
    (ran : host.Ran drive last value) : value = host.on drive.shown ∧ drive.Same last := by
  induction ran with
  | done value drive => exact ⟨rfl, .refl drive⟩
  | fetch commandIs requested session rest restInduction =>
    obtain ⟨bytes, same⟩ := session.read commandIs requested
    obtain ⟨valueIs, sameRest⟩ := restInduction
    rw [bytes, same.shown] at valueIs
    exact ⟨valueIs, same.trans sameRest⟩

theorem exists_ran (host : Host α) (drive : Drive capacity) :
    ∃ last, host.Ran drive last (host.on drive.shown) := by
  induction host generalizing drive with
  | done value => exact ⟨drive, .done value drive⟩
  | fetch lba blocks next nextInduction =>
    have commandIs : (CommandWrapper.reading 0 lba blocks).command = .read10 lba blocks :=
      Scsi.parse_runBlock_reading lba blocks
    have requested := CommandWrapper.requested_of_blocks blocks
    have noData : (CommandWrapper.reading 0 lba blocks).written = 0 := by
      simp only [CommandWrapper.written, commandIs]
    obtain ⟨middle, packets, session⟩ := drive.exists_session noData
    obtain ⟨bytes, same⟩ := session.read commandIs requested
    obtain ⟨last, ran⟩ := nextInduction packets.dropLast.flatten middle
    rw [same.shown] at ran
    refine ⟨last, ?_⟩
    have finished := Ran.fetch commandIs requested session ran
    rw [bytes] at finished
    exact finished

end Host

end ScriptDrive
