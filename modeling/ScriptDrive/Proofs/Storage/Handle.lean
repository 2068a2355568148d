import ScriptDrive.Proofs.Storage.Begin
import ScriptDrive.Proofs.Storage.Receive

/-!
# Packets from the host

`Handled` lists the three things that can come of a packet on the transport's endpoint: it begins a
command, it is written data, or it is thrown away.  `onPacket_meets` says that in a sound state it is
always one of them.
-/

set_option autoImplicit false

namespace ScriptDrive

variable {π : Type} {capacity : Nat}

namespace Storage

inductive Handled (storage : Storage capacity) (packet : List UInt8) (next : Storage capacity)
    (events : List Event) : Prop
  | begun {wrapper : CommandWrapper} (decoded : CommandWrapper.decode packet = .ok wrapper)
      (serves : Serves { storage with transfer := wrapper.transfer } next events)
  | written {reason : CommandWrapper.DecodeError} {taken : Storage capacity}
      (undecoded : CommandWrapper.decode packet = .error reason)
      (writing : storage.transfer.phase = .dataOut)
      (takes : storage.Takes taken (packet.take storage.transfer.remaining)
        (storage.transfer.remaining - min packet.length storage.transfer.remaining))
      (serves : taken.Serves next events)
  | stray {reason : CommandWrapper.DecodeError}
      (undecoded : CommandWrapper.decode packet = .error reason)
      (notWriting : storage.transfer.phase ≠ .dataOut)
      (serves : storage.Serves next events)

/-- A command is begun in the same way in every phase; only what is noted about it differs. -/
theorem command_eq [Link π] (storage : Storage capacity) {packet : List UInt8}
    {wrapper : CommandWrapper} (decoded : CommandWrapper.decode packet = .ok wrapper) :
    ∃ notes, (storage.onPacket packet : Exchange π _) =
      Exchange.logAll notes >>= fun _ => poll { storage with transfer := wrapper.transfer } := by
  obtain ⟨notes, begun⟩ := storage.begin_eq (π := π) wrapper
  unfold onPacket
  rw [decoded]
  cases storage.transfer.phase with
  | idle | dataIn | dataOut | statusPending =>
    simp only [begun, Exchange.log_then, Exchange.logAll_logAll]
    exact ⟨_, rfl⟩

theorem command_meets [Link π] (storage : Storage capacity) {packet : List UInt8}
    {wrapper : CommandWrapper} (decoded : CommandWrapper.decode packet = .ok wrapper) (start : π) :
    (storage.onPacket packet).Meets start fun next _ events =>
      Serves { storage with transfer := wrapper.transfer } next events := by
  obtain ⟨notes, begun⟩ := storage.command_eq (π := π) decoded
  rw [begun, Exchange.meets_bind, Exchange.meets_logAll]
  refine (poll_meets (storage.opens_transfer wrapper).sound start).mono ?_
  intro next after events serves
  exact serves.after_notes notes

theorem onPacket_meets [Link π] {storage : Storage capacity} (sound : storage.transfer.Sound)
    (packet : List UInt8) (start : π) :
    (storage.onPacket packet).Meets start fun next _ events =>
      storage.Handled packet next events := by
  cases decodedIs : CommandWrapper.decode packet with
  | ok wrapper =>
    exact (storage.command_meets decodedIs start).mono fun _ _ _ serves => .begun decodedIs serves
  | error reason =>
    by_cases writing : storage.transfer.phase = .dataOut
    · simp only [onPacket, decodedIs, writing, Exchange.meets_bind, Exchange.meets_log]
      refine (storage.receive_meets sound writing packet start).mono ?_
      rintro next after events ⟨taken, takes, serves⟩
      exact .written decodedIs writing takes
        (serves.after_notes [.packetArrived packet.length .dataOut])
    · exact (stray_meets sound decodedIs writing start).mono
        fun _ _ _ serves => .stray decodedIs writing serves

theorem Handled.sound {storage next : Storage capacity} {packet : List UInt8} {events : List Event}
    (handled : storage.Handled packet next events) : next.transfer.Sound := by
  cases handled with
  | begun _ serves => exact serves.sound
  | written _ _ _ serves => exact serves.sound
  | stray _ _ serves => exact serves.sound

theorem Handled.identity {storage next : Storage capacity} {packet : List UInt8}
    {events : List Event} (handled : storage.Handled packet next events) :
    next.identity = storage.identity := by
  cases handled with
  | begun _ serves => exact serves.keeps.identity
  | written _ _ takes serves => exact serves.keeps.identity.trans takes.identity
  | stray _ _ serves => exact serves.keeps.identity

theorem Serves.size {storage next : Storage capacity} {events : List Event}
    (serves : storage.Serves next events) : next.file.size = storage.file.size :=
  serves.keeps.size

theorem Serves.dirty {storage next : Storage capacity} {events : List Event}
    (serves : storage.Serves next events) : next.file.dirty = storage.file.dirty := by
  rw [← TrackedFile.dirty_rehome, serves.keeps.file, TrackedFile.dirty_rehome]

theorem Serves.fits {storage next : Storage capacity} {events : List Event}
    (serves : storage.Serves next events) (fits : storage.file.Fits capacity) :
    next.file.Fits capacity := by
  refine ⟨serves.size ▸ fits.size_le, ?_⟩
  rcases serves.keeps.cluster with same | home
  · rw [same]
    exact fits.cluster_ne_zero
  · rw [home]
    decide

theorem Handled.fits {storage next : Storage capacity} {packet : List UInt8} {events : List Event}
    (handled : storage.Handled packet next events) (fits : storage.file.Fits capacity) :
    next.file.Fits capacity := by
  cases handled with
  | begun _ serves => exact serves.fits fits
  | written _ _ takes serves => exact serves.fits (takes.becomes.fits fits)
  | stray _ _ serves => exact serves.fits fits

end Storage

end ScriptDrive
