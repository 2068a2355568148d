import ScriptDrive.Proofs.Drive.Completed
import ScriptDrive.Proofs.Volume.WriteBack

/-!
# Reading sectors and writing them back

A read of whole sectors brings the host their images, and moves the file at most to where the directory
shows it.  Written back in that state the images leave no trace: `written_back` puts the read, the walk
of `Volume.walk_images` and the write together.
-/

set_option autoImplicit false

namespace ScriptDrive

variable {capacity : Nat}

namespace Drive

section Reading

variable {drive seen : Drive capacity} {wrapper : CommandWrapper} {data : List UInt8}
  {lba : UInt32} {blocks : UInt16} {bytes : List UInt8} {status : List UInt8}

/-- The bytes that come before the status are the answer. -/
theorem Completes.bytes_eq
    (completes : drive.Completes wrapper data seen (chunks bytes ++ [status]))
    (noData : wrapper.written = 0) : bytes = drive.storage.answer wrapper := by
  obtain ⟨response, -⟩ := completes.session.response noData
  obtain ⟨parts, -⟩ := List.append_inj' response rfl
  rw [← flatten_chunks bytes, parts, flatten_chunks]

/-- A read of whole blocks has brought their images, and the file is in the first cluster if the front of
the directory was among them. -/
structure Reads (drive seen : Drive capacity) (lba : UInt32) (blocks : UInt16) (bytes : List UInt8) :
    Prop where
  same : drive.Same seen
  file_eq : seen.file =
    if lba.toNat ≤ rootStart ∧ rootStart < lba.toNat + blocks.toNat then drive.file.rehome
    else drive.file
  bytes_eq : bytes =
    Volume.images drive.identity drive.file.rehome drive.storage.ram lba.toNat blocks.toNat

theorem Completes.reads
    (completes : drive.Completes wrapper data seen (chunks bytes ++ [status]))
    (commandIs : wrapper.command = .read10 lba blocks)
    (asked : sectorSize * blocks.toNat ≤ wrapper.requested.toNat) :
    drive.Reads seen lba blocks bytes := by
  have noData : wrapper.written = 0 := by simp only [CommandWrapper.written, commandIs]
  refine ⟨(completes.session.response noData).2, completes.file_of_reading commandIs asked, ?_⟩
  rw [completes.bytes_eq noData, drive.storage.answer_of_blocks commandIs asked]
  rfl

theorem Reads.rehomed (reads : drive.Reads seen lba blocks bytes) :
    seen.file.rehome = drive.file.rehome := by
  rw [reads.file_eq]
  split <;> rfl

theorem Reads.cluster (reads : drive.Reads seen lba blocks bytes) :
    seen.file.cluster =
      if lba.toNat ≤ rootStart ∧ rootStart < lba.toNat + blocks.toNat then firstDataCluster
      else drive.file.cluster := by
  rw [reads.file_eq]
  split <;> rfl

/-- The read changes none of the images. -/
theorem Reads.still (reads : drive.Reads seen lba blocks bytes) :
    bytes = Volume.images seen.identity seen.file.rehome seen.storage.ram lba.toNat blocks.toNat := by
  rw [reads.bytes_eq, reads.rehomed, reads.same.identity, reads.same.ram]

theorem Reads.length (reads : drive.Reads seen lba blocks bytes) :
    bytes.length = sectorSize * blocks.toNat := by
  rw [reads.bytes_eq, Volume.length_images]

theorem exists_reads (drive : Drive capacity) (noData : wrapper.written = 0) :
    ∃ seen bytes status, drive.Completes wrapper [] seen (chunks bytes ++ [status]) := by
  obtain ⟨seen, packets, completes⟩ := drive.exists_completes_of_noData noData
  obtain ⟨response, -⟩ := completes.session.response noData
  rw [response] at completes
  exact ⟨seen, _, _, completes⟩

end Reading

section WriteBack

variable {drive seen last : Drive capacity} {wrapper : CommandWrapper} {statuses : List (List UInt8)}
  {first count : Nat}

/-- Images written back to a drive whose file is where the directory shows it. -/
theorem Completes.restored (fits : drive.file.size.toNat ≤ capacity)
    (completes : drive.Completes wrapper
      (Volume.images drive.identity drive.file.rehome drive.storage.ram first count) last statuses)
    (writes : wrapper.Writes first
      (Volume.images drive.identity drive.file.rehome drive.storage.ram first count))
    (some : Volume.images drive.identity drive.file.rehome drive.storage.ram first count ≠ [])
    (front : first + count ≤ dataStart + sectorsPerCluster)
    (homed : first ≤ rootStart ∧ rootStart < first + count → drive.file.cluster = firstDataCluster) :
    last.file = drive.file ∧ last.storage.ram = drive.storage.ram := by
  obtain ⟨-, fileIs, ramIs⟩ := completes.wrote writes some
  rw [Volume.walk_images drive.identity drive.storage.ram front fits homed] at fileIs ramIs
  exact ⟨fileIs, RamDisk.ext ramIs⟩

end WriteBack

/-- Sectors up to the end of the first data cluster, read and written back: the memory, the contents,
the length and the mark of a changed file are as they were, and the file is in the cluster where the
read left it, the first one if the front of the directory was among the sectors. -/
theorem written_back {identity : Identity} {drive : Drive capacity}
    (reachable : Reachable identity drive) {lba : UInt32} {blocks : UInt16}
    (nonempty : 0 < blocks.toNat)
    (front : lba.toNat + blocks.toNat ≤ dataStart + sectorsPerCluster)
    {reading writing : CommandWrapper} (readIs : reading.command = .read10 lba blocks)
    (asked : sectorSize * blocks.toNat ≤ reading.requested.toNat)
    (writeIs : writing.command = .write10 lba blocks)
    (offered : sectorSize * blocks.toNat ≤ writing.requested.toNat) :
    (∃ seen bytes status, drive.Completes reading [] seen (chunks bytes ++ [status])) ∧
      ∀ seen bytes status, drive.Completes reading [] seen (chunks bytes ++ [status]) →
        (∃ last statuses, seen.Completes writing bytes last statuses) ∧
        ∀ last statuses, seen.Completes writing bytes last statuses →
          last.storage.ram = drive.storage.ram ∧ last.script = drive.script ∧
          last.file.size = drive.file.size ∧ last.file.dirty = drive.file.dirty ∧
          last.file.cluster = seen.file.cluster ∧
          seen.file.cluster =
            if lba.toNat ≤ rootStart ∧ rootStart < lba.toNat + blocks.toNat then firstDataCluster
            else drive.file.cluster := by
  have noData : reading.written = 0 := by simp only [CommandWrapper.written, readIs]
  refine ⟨drive.exists_reads noData, ?_⟩
  intro seen bytes status read
  have reads := read.reads readIs asked
  have same := reads.same
  have writes : writing.Writes lba.toNat bytes :=
    .blocks writeIs rfl reads.length (by rw [reads.length]; exact offered)
  have some : bytes ≠ [] := by
    apply List.ne_nil_of_length_pos
    rw [reads.length]
    exact Nat.mul_pos (by decide) nonempty
  refine ⟨seen.exists_completes_of_writes writes some, ?_⟩
  intro last statuses written
  have fits : seen.file.size.toNat ≤ capacity := by
    rw [same.size]
    exact reachable.sound.1.fits
  have homed : lba.toNat ≤ rootStart ∧ rootStart < lba.toNat + blocks.toNat →
      seen.file.cluster = firstDataCluster := by
    intro covered
    rw [reads.cluster, if_pos covered]
  rw [reads.still] at writes some written
  obtain ⟨fileIs, ramIs⟩ := written.restored fits writes some front homed
  have memory : last.storage.ram = drive.storage.ram := ramIs.trans same.ram
  have length : last.file.size = drive.file.size := (congrArg TrackedFile.size fileIs).trans same.size
  have mark : seen.file.dirty = drive.file.dirty := by
    rw [← TrackedFile.dirty_rehome, reads.rehomed, TrackedFile.dirty_rehome]
  refine ⟨memory, ?_, length, ?_, congrArg TrackedFile.cluster fileIs, reads.cluster⟩
  · rw [last.script_eq, drive.script_eq, memory, length]
  · rw [fileIs, mark]

/-- The last sector of the tables, the whole directory and the first sector of a memory with two letters. -/
theorem written_back_directory :
    ∃ drive : Drive 600, powerUp { contents := [0x68, 0x69] } (by decide) = .ok drive ∧
      ∃ seen bytes status last statuses,
        drive.Completes (CommandWrapper.reading 7 32 34) [] seen (chunks bytes ++ [status]) ∧
        seen.Completes (CommandWrapper.writing 8 32 34) bytes last statuses ∧
        last.storage.ram = drive.storage.ram ∧ last.script = .ok [0x68, 0x69] ∧
        last.file.size = 2 ∧ last.file.dirty = false ∧ last.file.cluster = firstDataCluster := by
  have small : 600 ≤ clusterSize := by decide
  obtain ⟨ram, started, memoryIs⟩ := powerUp_eq { contents := [0x68, 0x69] } small
  refine ⟨_, started, ?_⟩
  have readIs : (CommandWrapper.reading 7 32 34).command = .read10 32 34 := rfl
  have writeIs : (CommandWrapper.writing 8 32 34).command = .write10 32 34 := rfl
  obtain ⟨⟨seen, bytes, status, read⟩, restored⟩ := written_back (.powerUp started) (by decide)
    (by decide) readIs (by decide) writeIs (by decide)
  obtain ⟨⟨last, statuses, written⟩, unchanged⟩ := restored seen bytes status read
  obtain ⟨ramIs, scriptIs, sizeIs, dirtyIs, stays, clusterIs⟩ := unchanged last statuses written
  refine ⟨seen, bytes, status, last, statuses, read, written, ramIs, ?_, sizeIs, dirtyIs,
    stays.trans clusterIs⟩
  rw [scriptIs, script_eq, memoryIs]
  rfl

end Drive

end ScriptDrive
