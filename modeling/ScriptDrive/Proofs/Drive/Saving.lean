import ScriptDrive.Proofs.Drive.Completed
import ScriptDrive.Proofs.Volume.Directory

/-!
# Saving the file

To save the file a host writes its bytes to a cluster, and a directory sector that says which cluster
that is and how many bytes count.  The two writes touch different things: `Completes.stored` says that
the first one only lays the bytes over the memory, and `Completes.filed` that the second one only moves
the file.  What the host does besides may put the file back at the first cluster, which is in front of
every other, so the bytes are stored in either order.
-/

set_option autoImplicit false

namespace ScriptDrive

open Volume (Walker)

variable {capacity : Nat}

/-! ## What a host sends -/

/-- The bytes of the file and a sector of the directory that places it, with the commands that write
the two. -/
structure Saving (name : Octets 11) where
  payload : List UInt8
  /-- What the directory says of the file. -/
  entry : DirEntry
  directory : List UInt8
  /-- The sector of the volume that the directory sector is written to. -/
  place : Nat
  storing : CommandWrapper
  filing : CommandWrapper
  nonempty : payload ≠ []
  oneCluster : payload.length ≤ clusterSize
  first_le : firstDataCluster.toNat ≤ entry.cluster.toNat
  /-- The last cluster that is on the volume with all of its sectors. -/
  le_last : entry.cluster.toNat ≤ 2040
  stores : storing.Writes
    (dataStart + (entry.cluster.toNat - firstDataCluster.toNat) * sectorsPerCluster) payload
  oneSector : directory.length = sectorSize
  inDirectory : rootStart ≤ place ∧ place < dataStart
  files : filing.Writes place directory
  placed : Volume.placings name (Volume.slots directory) = [entry]

theorem Saving.directory_ne_nil {name : Octets 11} (saving : Saving name) : saving.directory ≠ [] := by
  apply List.ne_nil_of_length_pos
  rw [saving.oneSector]
  decide

/-- A command with its data that neither writes the file nor places it: one that writes nothing, or a
write in front of the root directory. -/
structure Errand where
  wrapper : CommandWrapper
  data : List UInt8
  harmless : (wrapper.written = 0 ∧ data = []) ∨
    ∃ lba blocks, wrapper.command = .write10 lba blocks ∧ lba.toNat + blocks.toNat ≤ rootStart ∧
      0 < wrapper.written ∧ wrapper.written ≤ data.length ∧ data.length % maxPacket = 0

inductive SavingOrder where
  | payloadFirst
  | directoryFirst

namespace Drive

inductive Runs : Drive capacity → List Errand → Drive capacity → Prop
  | done (drive : Drive capacity) : Runs drive [] drive
  | next {drive between last : Drive capacity} {errand : Errand} {rest : List Errand}
      {packets : List (List UInt8)}
      (first : drive.Completes errand.wrapper errand.data between packets)
      (later : Runs between rest last) : Runs drive (errand :: rest) last

/-- The two writes in one order, and errands before, between and after them. -/
inductive Saves {name : Octets 11} (saving : Saving name) (before between after : List Errand)
    (drive : Drive capacity) : SavingOrder → Drive capacity → Prop
  | payloadFirst {start stored middle filed last : Drive capacity}
      {packets statuses : List (List UInt8)} (opening : drive.Runs before start)
      (stores : start.Completes saving.storing saving.payload stored packets)
      (meanwhile : stored.Runs between middle)
      (files : middle.Completes saving.filing saving.directory filed statuses)
      (closing : filed.Runs after last) : Saves saving before between after drive .payloadFirst last
  | directoryFirst {start filed middle stored last : Drive capacity}
      {packets statuses : List (List UInt8)} (opening : drive.Runs before start)
      (files : start.Completes saving.filing saving.directory filed statuses)
      (meanwhile : filed.Runs between middle)
      (stores : middle.Completes saving.storing saving.payload stored packets)
      (closing : stored.Runs after last) :
      Saves saving before between after drive .directoryFirst last

/-! ## What each part does -/

section Effects

variable {drive last : Drive capacity} {packets : List (List UInt8)}

theorem Completes.keeps_of_errand {errand : Errand}
    (completes : drive.Completes errand.wrapper errand.data last packets) :
    drive.storage.Keeps last.storage := by
  rcases errand.harmless with ⟨noData, -⟩ | ⟨lba, blocks, commandIs, front, -⟩
  · exact completes.keeps_of_noData noData
  · exact completes.keeps_of_front commandIs front

theorem Runs.keeps {errands : List Errand} (runs : drive.Runs errands last) :
    drive.storage.Keeps last.storage := by
  induction runs with
  | done drive => exact .refl drive.storage
  | next first _ keepsLater => exact first.keeps_of_errand.trans keepsLater

theorem cluster_le_of_keeps {cluster : UInt16} (keeps : drive.storage.Keeps last.storage)
    (first_le : firstDataCluster.toNat ≤ cluster.toNat)
    (reached : drive.file.cluster.toNat ≤ cluster.toNat) :
    last.file.cluster.toNat ≤ cluster.toNat := by
  rcases keeps.cluster with same | home
  · rw [file, same]
    exact reached
  · rw [file, home]
    exact first_le

variable {name : Octets 11}

/-- A payload for a cluster at or behind the file's first is laid over the memory. -/
theorem Completes.stored (saving : Saving name)
    (completes : drive.Completes saving.storing saving.payload last packets)
    (reached : drive.file.cluster.toNat ≤ saving.entry.cluster.toNat) :
    last.identity = drive.identity ∧ last.file = drive.file ∧
      last.storage.ram.bytes = Volume.overwrite drive.storage.ram.bytes 0 saving.payload := by
  have first_le := saving.first_le
  have le_last := saving.le_last
  have oneCluster := saving.oneCluster
  have first : firstDataCluster.toNat = 2 := rfl
  have perCluster : sectorsPerCluster = 8 := rfl
  have width : sectorSize = 512 := rfl
  have clusterWidth : clusterSize = 4096 := rfl
  have front : dataStart = 65 := rfl
  have total : totalSectors = 16384 := rfl
  obtain ⟨index, indexIs⟩ : ∃ index, index =
      (saving.entry.cluster.toNat - firstDataCluster.toNat) * sectorsPerCluster := ⟨_, rfl⟩
  have clusterIs : clusterOf index = saving.entry.cluster.toNat := by
    simp only [clusterOf, indexIs, perCluster]
    omega
  have within : index % sectorsPerCluster = 0 := by
    rw [indexIs]
    exact Nat.mul_mod_left ..
  obtain ⟨identityIs, fileIs, ramIs⟩ := completes.wrote saving.stores saving.nonempty
  have onVolume : (dataStart + index) * sectorSize + saving.payload.length ≤
      totalSectors * sectorSize := by
    rw [indexIs, first, perCluster, width, front, total]
    omega
  rw [← indexIs, Walker.walk_data (by rw [clusterIs]; exact reached)
    (by rw [within]; omega) onVolume, within, Nat.zero_mul] at fileIs ramIs
  exact ⟨identityIs, fileIs, ramIs⟩

/-- A directory sector moves the file to where its one entry places it. -/
theorem Completes.filed (saving : Saving name) (named : drive.identity.fileName = name)
    (completes : drive.Completes saving.filing saving.directory last packets) :
    last.identity = drive.identity ∧
      last.file = drive.file.relocate saving.entry.cluster
        (min saving.entry.size (UInt32.ofNat capacity)) ∧
      last.storage.ram = drive.storage.ram := by
  obtain ⟨below, above⟩ := saving.inDirectory
  have oneSector := saving.oneSector
  have width : sectorSize = 512 := rfl
  rw [show rootStart = 33 from rfl] at below
  rw [show dataStart = 65 from rfl] at above
  rw [width] at oneSector
  obtain ⟨identityIs, fileIs, ramIs⟩ := completes.wrote saving.files saving.directory_ne_nil
  obtain ⟨slot, walked, -⟩ := Walker.walk_directory drive.identity.fileName
    ⟨sectorSize * saving.place, [], drive.file, drive.storage.ram.bytes⟩ saving.directory
    (by rw [width, show rootStart = 33 from rfl]; dsimp only; omega)
    (by rw [width, show dataStart = 65 from rfl]; dsimp only; omega) rfl
  rw [walked] at fileIs ramIs
  rw [Volume.snoop_eq_foldl, drive.storage.ram.length_bytes, named, saving.placed] at fileIs
  exact ⟨identityIs, fileIs, RamDisk.ext ramIs⟩

end Effects

/-! ## Either order -/

theorem exists_runs (drive : Drive capacity) (errands : List Errand) :
    ∃ last, drive.Runs errands last := by
  induction errands generalizing drive with
  | nil => exact ⟨drive, .done drive⟩
  | cons errand rest restInduction =>
    obtain ⟨between, packets, first⟩ : ∃ between packets,
        drive.Completes errand.wrapper errand.data between packets := by
      rcases errand.harmless with ⟨noData, none⟩ | ⟨lba, blocks, commandIs, -, moves, enough, full⟩
      · rw [none]
        exact drive.exists_completes_of_noData noData
      · exact drive.exists_completes_of_writing commandIs moves full enough
    obtain ⟨last, later⟩ := restInduction between
    exact ⟨last, .next first later⟩

variable {name : Octets 11}

theorem exists_stores (drive : Drive capacity) (saving : Saving name) :
    ∃ last packets, drive.Completes saving.storing saving.payload last packets :=
  drive.exists_completes_of_writes saving.stores saving.nonempty

theorem exists_files (drive : Drive capacity) (saving : Saving name) :
    ∃ last packets, drive.Completes saving.filing saving.directory last packets :=
   drive.exists_completes_of_writes saving.files saving.directory_ne_nil

theorem exists_saves (drive : Drive capacity) (saving : Saving name)
    (before between after : List Errand) (order : SavingOrder) :
    ∃ last, drive.Saves saving before between after order last := by
  obtain ⟨start, opening⟩ := drive.exists_runs before
  cases order with
  | payloadFirst =>
    obtain ⟨stored, packets, stores⟩ := start.exists_stores saving
    obtain ⟨middle, meanwhile⟩ := stored.exists_runs between
    obtain ⟨filed, statuses, files⟩ := middle.exists_files saving
    obtain ⟨last, closing⟩ := filed.exists_runs after
    exact ⟨last, .payloadFirst opening stores meanwhile files closing⟩
  | directoryFirst =>
    obtain ⟨filed, statuses, files⟩ := start.exists_files saving
    obtain ⟨middle, meanwhile⟩ := filed.exists_runs between
    obtain ⟨stored, packets, stores⟩ := middle.exists_stores saving
    obtain ⟨last, closing⟩ := stored.exists_runs after
    exact ⟨last, .directoryFirst opening files meanwhile stores closing⟩

/-- In either order the payload comes to the memory and the entry's length to the file. -/
theorem Saves.settled {drive last : Drive capacity} {saving : Saving name}
    {before between after : List Errand} {order : SavingOrder}
    (saves : drive.Saves saving before between after order last)
    (named : drive.identity.fileName = name)
    (reached : drive.file.cluster.toNat ≤ saving.entry.cluster.toNat) :
    last.file.size = min saving.entry.size (UInt32.ofNat capacity) ∧
      last.storage.ram.bytes = Volume.overwrite drive.storage.ram.bytes 0 saving.payload := by
  cases saves with
  | payloadFirst opening stores meanwhile files closing =>
    have reachedStart := cluster_le_of_keeps opening.keeps saving.first_le reached
    obtain ⟨identityStored, -, ramStored⟩ := stores.stored saving reachedStart
    have identityMiddle := meanwhile.keeps.identity.trans
      (identityStored.trans opening.keeps.identity)
    obtain ⟨-, fileFiled, ramFiled⟩ :=
      files.filed saving ((congrArg Identity.fileName identityMiddle).trans named)
    constructor
    · exact closing.keeps.size.trans (congrArg TrackedFile.size fileFiled)
    · rw [closing.keeps.ram, ramFiled, meanwhile.keeps.ram, ramStored, opening.keeps.ram]
  | directoryFirst opening files meanwhile stores closing =>
    obtain ⟨-, fileFiled, ramFiled⟩ :=
      files.filed saving ((congrArg Identity.fileName opening.keeps.identity).trans named)
    have reachedMiddle := cluster_le_of_keeps meanwhile.keeps saving.first_le (by
      rw [fileFiled]
      exact Nat.le_refl _)
    obtain ⟨-, fileStored, ramStored⟩ := stores.stored saving reachedMiddle
    constructor
    · exact closing.keeps.size.trans ((congrArg TrackedFile.size fileStored).trans
        (meanwhile.keeps.size.trans (congrArg TrackedFile.size fileFiled)))
    · rw [closing.keeps.ram, ramStored, meanwhile.keeps.ram, ramFiled, opening.keeps.ram]

/-- A file is saved in either order, whatever errands the host runs before, between and after the two
writes: its contents are the payload over the old memory, up to the length the directory gives. -/
theorem saved_in_either_order (drive : Drive capacity) (saving : Saving drive.identity.fileName)
    (reached : drive.file.cluster.toNat ≤ saving.entry.cluster.toNat)
    (before between after : List Errand) (order : SavingOrder) :
    (∃ last, drive.Saves saving before between after order last) ∧
      ∀ last, drive.Saves saving before between after order last →
        last.script = .ok ((saving.payload.take capacity ++
          drive.storage.ram.bytes.drop saving.payload.length).take
            (min saving.entry.size.toNat capacity)) := by
  refine ⟨drive.exists_saves saving before between after order, ?_⟩
  intro last saves
  obtain ⟨sizeIs, ramIs⟩ := saves.settled rfl reached
  have small : (UInt32.ofNat capacity).toNat = capacity := by
    have bound := drive.storage.ram.capacity_le_4096
    exact UInt32.toNat_ofNat_of_lt' (by simp only [UInt32.size]; omega)
  have length : min last.file.size.toNat capacity = min saving.entry.size.toNat capacity := by
    have least : min saving.entry.size (UInt32.ofNat capacity) =
        if saving.entry.size ≤ UInt32.ofNat capacity then saving.entry.size
        else UInt32.ofNat capacity := rfl
    rw [sizeIs, least]
    split
    · rfl
    · rename_i long
      rw [UInt32.le_iff_toNat_le] at long
      omega
  rw [last.script_eq, length, ramIs, Volume.overwrite, List.take_zero, List.nil_append,
    Nat.sub_zero, Nat.zero_add, drive.storage.ram.length_bytes]

/-- The directory places the file in cluster 5; a look at the directory then puts it back at the first
one, and the payload is still stored.  Behind its one sector the old memory shows. -/
theorem saved_in_either_order_fifth_cluster :
    let drive : Drive 600 := fresh {} (by decide)
    let looking : Errand := ⟨CommandWrapper.reading 7 33 1, [], .inl ⟨rfl, rfl⟩⟩
    ∃ saving : Saving drive.identity.fileName,
      saving.payload = List.replicate 512 0x41 ∧ saving.entry.cluster = 5 ∧
        saving.entry.size = 520 ∧
        (∃ last, drive.Saves saving [] [looking] [] .directoryFirst last) ∧
        ∀ last, drive.Saves saving [] [looking] [] .directoryFirst last →
          last.script = .ok (List.replicate 512 0x41 ++ List.replicate 8 0) := by
  intro drive looking
  let entry := DirEntry.ofFile drive.identity.fileName { cluster := 5, size := 520 }
  have oneSector : (entry.encode ++ List.replicate 480 0).length = sectorSize := by
    rw [List.length_append, DirEntry.length_encode, List.length_replicate]
    rfl
  have oneBlock : (List.replicate 512 (0x41 : UInt8)).length = sectorSize := List.length_replicate ..
  let saving : Saving drive.identity.fileName :=
    { payload := List.replicate 512 0x41
      entry := entry
      directory := entry.encode ++ List.replicate 480 0
      place := 34
      storing := CommandWrapper.writing 3 89 1
      filing := CommandWrapper.writing 4 34 1
      nonempty := List.cons_ne_nil _ _
      oneCluster := by
        rw [oneBlock]
        decide
      first_le := by decide
      le_last := by decide
      stores := .blocks rfl rfl oneBlock (by rw [oneBlock]; decide)
      oneSector := oneSector
      inDirectory := by decide
      files := .blocks rfl rfl oneSector (by rw [oneSector]; decide)
      placed := Volume.placings_entry _ _ _ }
  refine ⟨saving, rfl, rfl, rfl, ?_⟩
  obtain ⟨possible, saved⟩ := saved_in_either_order drive saving (by change 2 ≤ 5; decide) []
    [looking] [] .directoryFirst
  refine ⟨possible, ?_⟩
  intro last saves
  have payloadIs : saving.payload = List.replicate 512 0x41 := rfl
  have lengthIs : min saving.entry.size.toNat 600 = 520 := rfl
  have memoryIs : drive.storage.ram.bytes = List.replicate 600 0 := rfl
  have written : min 520 (min 600 512) = 512 := rfl
  have kept : min (520 - min 600 512) (600 - 512) = 8 := rfl
  rw [saved last saves, payloadIs, lengthIs, memoryIs]
  simp only [List.length_replicate, List.take_replicate, List.drop_replicate, List.take_append,
    written, kept]

end Drive

end ScriptDrive
