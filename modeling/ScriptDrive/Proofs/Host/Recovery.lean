import ScriptDrive.Proofs.Drive.Faultless
import ScriptDrive.Proofs.Host.FatReader

/-!
# What a reader of FAT volumes finds on a drive

The boot sector, both allocation tables, the directory and the data region agree: whoever reads them
finds one file, whose contents are the script.
-/

set_option autoImplicit false

namespace ScriptDrive.Fat

variable {capacity : Nat}

def driveLayout : Layout where
  sectorBytes := 512
  clusterSectors := 8
  reserved := 1
  tables := 2
  rootSlots := 512
  total := 16384
  tableSectors := 16

/-- The bytes of a boot sector that say the geometry, from the twelfth on. -/
def geometry : List UInt8 :=
  [0x00, 0x02, 8, 1, 0, 2, 0x00, 0x02, 0x00, 0x40, 0xF8, 16, 0]

theorem littleWord16_of_take {bytes : List UInt8} {start value : Nat} (low high : UInt8)
    (found : (bytes.drop start).take 2 = [low, high])
    (valueIs : low.toNat + 256 * high.toNat = value) :
    (littleWord16 bytes start).toNat = value := by
  have lowSmall := low.toNat_lt
  have highSmall := high.toNat_lt
  have pair : littleEndianValue [low, high] = low.toNat + 256 * high.toNat := rfl
  rw [littleWord16, found, pair, ← valueIs, UInt16.toNat_ofNat_of_lt']
  simp only [UInt16.size]
  omega

section Image

variable (identity : Identity) (file : TrackedFile) (ram : RamDisk capacity)

theorem parameters_eq : ∃ rest, BootSector.parameters identity =
    [0xEB, 0x3C, 0x90] ++ (identity.formatter.bytes ++ (geometry ++ rest)) := by
  have numbers (rest : List UInt8) :
      littleEndian 2 sectorSize ++ ([UInt8.ofNat sectorsPerCluster] ++
        (littleEndian 2 reservedSectors ++ ([UInt8.ofNat tableCopies] ++
          (littleEndian 2 rootEntries ++ (littleEndian 2 totalSectors ++ ([mediaDescriptor] ++
            (littleEndian 2 sectorsPerTable ++ rest))))))) = geometry ++ rest := rfl
  unfold BootSector.parameters
  repeat rw [List.append_assoc]
  rw [numbers]
  exact ⟨_, rfl⟩

theorem image_boot : ∃ front tail, front.length = 11 ∧
    Volume.image identity file ram 0 = front ++ (geometry ++ tail) := by
  have found : Region.of 0 = .boot := rfl
  obtain ⟨rest, parts⟩ := parameters_eq identity
  obtain ⟨padding, shown⟩ : ∃ padding, Volume.image identity file ram 0 =
      BootSector.parameters identity ++ (List.replicate padding 0 ++ BootSector.closing) := by
    simp only [Volume.image, found, List.rightpad, List.append_assoc]
    exact ⟨_, rfl⟩
  refine ⟨[0xEB, 0x3C, 0x90] ++ identity.formatter.bytes,
    rest ++ (List.replicate padding 0 ++ BootSector.closing), ?_, ?_⟩
  · rw [List.length_append, identity.formatter.length_bytes]
    rfl
  · rw [shown, parts]
    simp only [List.append_assoc]

theorem decode_boot : Layout.decode (Volume.image identity file ram 0) = driveLayout := by
  obtain ⟨front, tail, size, boot⟩ := image_boot identity file ram
  have behind (start : Nat) : (Volume.image identity file ram 0).drop (11 + start) =
      (geometry ++ tail).drop start := by
    rw [boot, ← size, List.drop_append, List.drop_eq_nil_of_le (Nat.le_add_right ..),
      List.nil_append, Nat.add_sub_cancel_left]
  have word (start : Nat) {value : Nat} (low high : UInt8)
      (found : ((geometry ++ tail).drop start).take 2 = [low, high])
      (valueIs : low.toNat + 256 * high.toNat = value) :
      (littleWord16 (Volume.image identity file ram 0) (11 + start)).toNat = value :=
    littleWord16_of_take low high (by rw [behind, found]) valueIs
  have byte (start : Nat) (value : UInt8)
      (found : ((geometry ++ tail).drop start).head? = some value) :
      (Volume.image identity file ram 0).getD (11 + start) 0 = value := by
    rw [← behind, List.head?_drop] at found
    rw [List.getD_eq_getElem?_getD, found, Option.getD_some]
  have sectorBytes : (littleWord16 (Volume.image identity file ram 0) 11).toNat = 512 :=
    word 0 0x00 0x02 rfl rfl
  have clusterSectors : (Volume.image identity file ram 0).getD 13 0 = 8 := byte 2 8 rfl
  have reserved : (littleWord16 (Volume.image identity file ram 0) 14).toNat = 1 :=
    word 3 1 0 rfl rfl
  have tables : (Volume.image identity file ram 0).getD 16 0 = 2 := byte 5 2 rfl
  have rootSlots : (littleWord16 (Volume.image identity file ram 0) 17).toNat = 512 :=
    word 6 0x00 0x02 rfl rfl
  have total : (littleWord16 (Volume.image identity file ram 0) 19).toNat = 16384 :=
    word 8 0x00 0x40 rfl rfl
  have tableSectors : (littleWord16 (Volume.image identity file ram 0) 22).toNat = 16 :=
    word 11 16 0 rfl rfl
  simp only [Layout.decode, sectorBytes, clusterSectors, reserved, tables, rootSlots, total,
    tableSectors]
  rfl

theorem boot_signed : (Volume.image identity file ram 0).drop 510 = [0x55, 0xAA] := by
  have found : Region.of 0 = .boot := rfl
  simp only [Volume.image, found]
  exact List.drop_left' (by rw [List.length_rightpad, BootSector.length_parameters]; rfl)

theorem images_one (first : Nat) :
    Volume.images identity file ram first 1 = Volume.image identity file ram first := by
  simp only [Volume.images, List.range_one, List.flatMap_singleton, Nat.add_zero]

theorem images_front (first : Nat) {count : Nat} (some : 0 < count) {front : List UInt8}
    {padding : Nat}
    (shown : Volume.image identity file ram first = front ++ List.replicate padding 0) :
    ∃ rest, Volume.images identity file ram first count =
      front ++ (List.replicate padding 0 ++ rest) := by
  obtain ⟨others, rfl⟩ := Nat.exists_eq_add_of_le' some
  refine ⟨(List.range others).flatMap fun index =>
    Volume.image identity file ram (first + (index + 1)), ?_⟩
  rw [Volume.images, List.range_succ_eq_map, List.flatMap_cons, List.flatMap_map, Nat.add_zero,
    shown, List.append_assoc]

theorem ofSlot_encode (name : Octets 11) :
    Listed.ofSlot (DirEntry.ofFile name file).encode =
      ⟨name.bytes, 0x20, file.cluster.toNat, file.size.toNat⟩ := by
  have entry := DirEntry.ofSlot_encode (DirEntry.ofFile name file)
  have nameIs : (DirEntry.ofFile name file).encode.take 11 = name.bytes := by
    simp only [DirEntry.encode, DirEntry.ofFile, List.append_assoc]
    exact List.take_left' name.length_bytes
  have attributes : (DirEntry.ofFile name file).encode.getD 11 0 = 0x20 := by
    rw [List.getD_eq_getElem?_getD, ← List.head?_drop]
    simp only [DirEntry.encode, DirEntry.ofFile, List.append_assoc]
    rw [List.drop_left' name.length_bytes]
    rfl
  have cluster : littleWord16 (DirEntry.ofFile name file).encode 26 = file.cluster :=
    congrArg DirEntry.cluster entry
  have size : littleWord32 (DirEntry.ofFile name file).encode 28 = file.size :=
    congrArg DirEntry.size entry
  simp only [Listed.ofSlot, nameIs, attributes, cluster, size]

theorem head?_encode (name : Octets 11) :
    (DirEntry.ofFile name file).encode.head? = name.bytes.head? := by
  obtain ⟨_ | ⟨byte, rest⟩, size⟩ := name
  · cases size
  · rfl

theorem listed_directory
    (unmarked : identity.fileName.bytes.head? ≠ some 0 ∧ identity.fileName.bytes.head? ≠ some 0xE5) :
    listed (Volume.images identity file ram 33 32) =
      [⟨identity.fileName.bytes, 0x20, file.cluster.toNat, file.size.toNat⟩] := by
  have found : Region.of 33 = .rootDir 0 := rfl
  have size : (DirEntry.ofFile identity.fileName file).encode.length = 32 :=
    DirEntry.length_encode _
  have shown : Volume.image identity file ram 33 =
      (DirEntry.ofFile identity.fileName file).encode ++ List.replicate 480 0 := by
    simp only [Volume.image, found, List.rightpad, size]
    rfl
  obtain ⟨rest, directory⟩ := images_front identity file ram 33 (show 0 < 32 by decide) shown
  have slots : (Volume.slots (Volume.images identity file ram 33 32)).map Octets.bytes =
      (DirEntry.ofFile identity.fileName file).encode :: List.replicate 32 0 ::
        (Volume.slots ((List.replicate 480 0 ++ rest).drop 32)).map Octets.bytes := by
    have first : dirEntrySize ≤ (Volume.images identity file ram 33 32).length := by
      rw [Volume.length_images]
      decide
    have second : dirEntrySize ≤ (List.replicate 480 (0 : UInt8) ++ rest).length := by
      rw [List.length_append, List.length_replicate]
      exact Nat.le_trans (by decide) (Nat.le_add_right ..)
    have front : (Volume.images identity file ram 33 32).take 32 =
        (DirEntry.ofFile identity.fileName file).encode := by
      rw [directory]
      exact List.take_left' size
    have behind : (Volume.images identity file ram 33 32).drop 32 =
        List.replicate 480 0 ++ rest := by
      rw [directory]
      exact List.drop_left' size
    rw [Volume.slots_of_le first, List.map_cons, behind, Volume.slots_of_le second, List.map_cons]
    simp only [Octets.part, List.drop_zero, front]
    rfl
  have begins : ((DirEntry.ofFile identity.fileName file).encode.head? != some 0) = true := by
    rw [head?_encode]
    exact bne_iff_ne.mpr unmarked.1
  have isFileIs : isFile (DirEntry.ofFile identity.fileName file).encode = true := by
    have used : ((DirEntry.ofFile identity.fileName file).encode.head? != some 0xE5) = true := by
      rw [head?_encode]
      exact bne_iff_ne.mpr unmarked.2
    rw [isFile, ofSlot_encode, used]
    dsimp only
    decide
  have ends : ((List.replicate 32 (0 : UInt8)).head? != some 0) = false := rfl
  simp only [listed, slots, List.takeWhile_cons, begins, ends, if_true, Bool.false_eq_true, if_false,
    List.filter_cons, isFileIs, List.filter_nil, List.map_cons, List.map_nil, ofSlot_encode]

/-- Both tables, read in either width, end the chain of the first cluster at once. -/
theorem chain_table (width : Width) {copy : Nat} (either : copy < 2) (clusters fuel : Nat) :
    width.chain (Volume.images identity file ram (1 + copy * 16) 16) clusters (fuel + 1) 2 =
      some [2] := by
  have found : Region.of (1 + copy * 16) = .table copy 0 := by
    rw [Region.of_eq_table_iff]
    exact ⟨rfl, either, by decide⟩
  have shown : Volume.image identity file ram (1 + copy * 16) =
      Volume.tableHead ++ List.replicate 506 0 := by
    simp only [Volume.image, found]
    rfl
  obtain ⟨rest, table⟩ := images_front identity file ram (1 + copy * 16)
    (show 0 < 16 by decide) shown
  have last : width.chainEnd ≤
      width.entry (Volume.images identity file ram (1 + copy * 16) 16) 2 := by
    rw [table]
    cases width with
    | sixteen =>
      have entry : (littleWord16 (Volume.tableHead ++ (List.replicate 506 0 ++ rest))
          (2 * 2)).toNat = 0xFFFF := littleWord16_of_take 0xFF 0xFF rfl rfl
      simp only [Width.entry, entry]
      decide
    | twelve =>
      have entry : (littleWord16 (Volume.tableHead ++ (List.replicate 506 0 ++ rest))
          (2 + 2 / 2)).toNat = 0xFFFF := littleWord16_of_take 0xFF 0xFF rfl rfl
      simp only [Width.entry, entry]
      decide
  simp only [Width.chain, if_pos last]

theorem take_cluster {count : Nat} (held : count ≤ capacity) :
    (Volume.images identity file ram 65 8).take count = ram.bytes.take count := by
  have lengths := ram.length_bytes
  have small := ram.capacity_le_4096
  have part := Volume.stretch_data identity file ram (sectorSize * 65) count (by decide)
    (by simp only [sectorSize, totalSectors]; omega)
  rw [Volume.images_take identity file ram (by simp only [sectorSize]; omega), part]
  apply List.ext_getElem?
  intro place
  have start : sectorSize * 65 - dataStart * sectorSize = 0 := rfl
  rw [start, List.getElem?_map, List.getElem?_take]
  by_cases inside : place < count
  · rw [List.getElem?_range inside, if_pos inside, Option.map_some, Nat.zero_add,
      List.getD_eq_getElem?_getD, List.getElem?_eq_getElem (by omega), Option.getD_some]
  · rw [List.getElem?_eq_none (by simpa using inside), if_neg inside]
    rfl

end Image

theorem mount_shown {drive : Drive capacity} (fits : drive.file.size.toNat ≤ capacity)
    (unmarked : drive.identity.fileName.bytes.head? ≠ some 0 ∧
      drive.identity.fileName.bytes.head? ≠ some 0xE5) {copy : Nat} (either : copy < 2)
    (width : Layout → Width) :
    (mount copy width).on drive.shown = some
      ⟨16384, [⟨drive.identity.fileName.bytes,
        drive.storage.ram.bytes.take drive.file.size.toNat⟩]⟩ := by
  have boot : drive.shown (UInt32.ofNat 0) (UInt16.ofNat 1) =
      Volume.image drive.identity drive.file.rehome drive.storage.ram 0 := images_one ..
  have directory : listed (drive.shown (UInt32.ofNat driveLayout.rootStart)
      (UInt16.ofNat driveLayout.rootSectors)) =
        [⟨drive.identity.fileName.bytes, 0x20, 2, drive.file.size.toNat⟩] :=
    listed_directory drive.identity drive.file.rehome drive.storage.ram unmarked
  have chain : (width driveLayout).chain (drive.shown (UInt32.ofNat (driveLayout.tableStart copy))
      (UInt16.ofNat driveLayout.tableSectors)) driveLayout.clusters driveLayout.clusters 2 =
        some [2] := by
    have place : (UInt32.ofNat (driveLayout.tableStart copy)).toNat = 1 + copy * 16 :=
      UInt32.toNat_ofNat_of_lt' (by
        simp only [Layout.tableStart, driveLayout, UInt32.size]
        omega)
    have ended := chain_table drive.identity drive.file.rehome drive.storage.ram
      (width driveLayout) either driveLayout.clusters 2038
    rw [← place] at ended
    exact ended
  have contents : (drive.shown (UInt32.ofNat (driveLayout.clusterStart 2))
      (UInt16.ofNat driveLayout.clusterSectors)).take drive.file.size.toNat =
        drive.storage.ram.bytes.take drive.file.size.toNat :=
    take_cluster drive.identity drive.file.rehome drive.storage.ram fits
  have signed := boot_signed drive.identity drive.file.rehome drive.storage.ram
  have layoutIs := decode_boot drive.identity drive.file.rehome drive.storage.ram
  simp only [mount, Host.on_bind, Host.on_read, boot, signed, ne_eq, not_true_eq_false, if_false,
    layoutIs, directory, readFiles, chain, readClusters, Host.on_pure, List.append_nil, contents,
    Option.map_some]
  rfl

theorem lastSector_of_session {drive last : Drive capacity} {wrapper : CommandWrapper}
    {packets : List (List UInt8)} (session : drive.Session wrapper last packets)
    (commandIs : wrapper.command = .readCapacity10) (asked : 8 ≤ wrapper.requested.toNat) :
    bigEndianValue (packets.flatten.take 4) + 1 = 16384 := by
  have noData : wrapper.written = 0 := by simp only [CommandWrapper.written, commandIs]
  have answer : drive.storage.answer wrapper =
      bigEndian 4 (totalSectors - 1) ++ bigEndian 4 sectorSize := by
    simp only [Storage.answer, commandIs, Scsi.Command.response]
    refine List.take_of_length_le ?_
    rw [List.length_append, length_bigEndian, length_bigEndian]
    exact asked
  rw [(session.response noData).1, Storage.response, List.flatten_append, flatten_chunks, answer,
    List.append_assoc, List.take_left' (length_bigEndian ..), bigEndianValue_bigEndian]
  rfl

/-- A host that knows nothing but FAT finds exactly the script on a drive: whatever has happened to the
drive, by either copy of the table, in whatever width it takes the table's entries, and whatever else
is called and refused between its reads.  It can always finish, and the sectors it is told of are those
that the drive announces. -/
theorem mount_of_reachable {identity : Identity} {drive : Drive capacity}
    (reachable : Drive.Reachable identity drive)
    (unmarked : identity.fileName.bytes.head? ≠ some 0 ∧
      identity.fileName.bytes.head? ≠ some 0xE5)
    {copy : Nat} (either : copy < tableCopies) (width : Layout → Width) :
    ∃ script total, drive.script = .ok script ∧
      let mounted : Mounted := ⟨total, [⟨identity.fileName.bytes, script⟩]⟩
      (∃ last, (mount copy width).Ran drive last (some mounted)) ∧
      (∀ last found, (mount copy width).Ran drive last found → found = some mounted) ∧
      ∀ wrapper, wrapper.command = .readCapacity10 → 8 ≤ wrapper.requested.toNat →
        (∃ last packets, drive.Session wrapper last packets) ∧
        ∀ last packets, drive.Session wrapper last packets →
          bigEndianValue (packets.flatten.take 4) + 1 = total := by
  obtain ⟨sound, rfl⟩ := reachable.sound
  have fits := sound.fits
  have shown := mount_shown fits unmarked either width
  refine ⟨drive.storage.ram.bytes.take drive.file.size.toNat, 16384, ?_, ?_, ?_, ?_⟩
  · rw [drive.script_eq, Nat.min_eq_left fits]
  · obtain ⟨last, ran⟩ := Host.exists_ran (mount copy width) drive
    rw [shown] at ran
    exact ⟨last, ran⟩
  · intro last found ran
    rw [(Host.value_of_ran ran).1, shown]
  · intro wrapper commandIs asked
    have noData : wrapper.written = 0 := by simp only [CommandWrapper.written, commandIs]
    refine ⟨drive.exists_session noData, ?_⟩
    intro last packets session
    exact lastSector_of_session session commandIs asked

/-- The host has put the file into cluster 5 and stored nine bytes there, and whoever reads the volume
finds these bytes. -/
theorem mount_of_reachable_moved :
    let drive : Drive 16 := Drive.fresh {} (by decide)
    let entry := DirEntry.ofFile drive.identity.fileName { cluster := 5, size := 9 }
    let sent (packets : List (List UInt8)) : List (Call Willing) :=
      packets.map fun bytes => ⟨.packet 6 bytes, .willing⟩
    let filing := sent ((CommandWrapper.writing 3 33 1).encode ::
      chunks (entry.encode ++ List.replicate 480 0))
    let storing := sent ((CommandWrapper.writing 4 89 1).encode ::
      chunks (ascii "print(42)" ++ List.replicate 503 0))
    ∃ moved outcomes, drive.run (filing ++ storing) = .ok (moved, outcomes) ∧
      moved.file = { cluster := 5, size := 9, dirty := true } ∧
      moved.script = .ok (ascii "print(42)") ∧
      ∃ total,
        let mounted : Mounted := ⟨total, [⟨ascii "MAIN    PY ", ascii "print(42)"⟩]⟩
        let host := mount 1 fun layout => .ofClusters layout.clusters
        (∃ last, host.Ran moved last (some mounted)) ∧
        (∀ last found, host.Ran moved last found → found = some mounted) ∧
        ∀ wrapper, wrapper.command = .readCapacity10 → 8 ≤ wrapper.requested.toNat →
          (∃ last packets, moved.Session wrapper last packets) ∧
          ∀ last packets, moved.Session wrapper last packets →
            bigEndianValue (packets.flatten.take 4) + 1 = total := by
  intro drive entry sent filing storing
  have came : (drive.run (filing ++ storing)).toOption.map
      (fun result => (result.1.file, result.1.script.toOption)) =
        some ({ cluster := 5, size := 9, dirty := true }, some (ascii "print(42)")) := by
    decide +kernel
  have start : Drive.Reachable {} drive := .powerUp (Drive.powerUp_fresh rfl (by decide))
  obtain ⟨moved, outcomes, ran, reachable⟩ := start.run_never_halts (filing ++ storing)
  rw [ran] at came
  obtain ⟨script, total, scriptIs, found⟩ := mount_of_reachable reachable (by decide)
    (show 1 < tableCopies by decide) fun layout => .ofClusters layout.clusters
  simp only [Except.toOption, Option.map_some, scriptIs, Option.some.injEq, Prod.mk.injEq] at came
  obtain ⟨fileIs, rfl⟩ := came
  exact ⟨moved, outcomes, ran, fileIs, scriptIs, total, found⟩

end ScriptDrive.Fat
