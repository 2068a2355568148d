import ScriptDrive.Proofs.Drive.Sessions
import ScriptDrive.Proofs.Drive.Writing

/-!
# Reading back what was written

A write to one cluster of the data region lays its bytes over the memory, wherever on the volume the
cluster is; a read of the file's first cluster shows the memory.  `read_after_write` puts the two
together, with any commands between them that write nothing.
-/

set_option autoImplicit false

namespace ScriptDrive

open Volume (Walker)

variable {π : Type} {capacity : Nat}

theorem length_of_mem_chunks {bytes packet : List UInt8} (whole : bytes.length % maxPacket = 0)
    (present : packet ∈ chunks bytes) : packet.length = maxPacket := by
  generalize total : bytes.length = count at whole
  induction count using Nat.strongRecOn generalizing bytes with
  | _ count countInduction =>
  by_cases empty : bytes = []
  · rw [empty, chunks_nil] at present
    cases present
  · have some : 0 < bytes.length := List.length_pos_iff.mpr empty
    simp only [maxPacket] at whole
    rw [chunks_of_ne_nil empty, List.mem_cons] at present
    rcases present with front | later
    · rw [front, List.length_take]
      simp only [maxPacket]
      omega
    · have rest : (bytes.drop maxPacket).length = bytes.length - 64 := List.length_drop
      exact countInduction (bytes.length - 64) (by omega) later rest
        (by simp only [maxPacket]; omega)

theorem decode_of_full {packet : List UInt8} (full : packet.length = maxPacket) :
    CommandWrapper.decode packet = .error (.length packet.length) :=
  CommandWrapper.decode_eq_length_error_iff.mpr ⟨by rw [full]; decide, rfl⟩

def sending (endpoint : UInt8) (packets : List (List UInt8)) : List (Call Willing) :=
  packets.map fun bytes => ⟨.packet endpoint bytes, .willing⟩

theorem sentIn_sending (endpoint : UInt8) (packets : List (List UInt8)) :
    sentIn endpoint (sending endpoint packets) = packets := by
  induction packets with
  | nil => rfl
  | cons packet rest restInduction =>
    have sent : (Operation.packet endpoint packet).sentTo endpoint = some packet := if_pos rfl
    rw [sending, List.map_cons, sentIn_cons, sent, Option.toList_some]
    exact congrArg (packet :: ·) restInduction

theorem quiet_of_sent {endpoints : EndpointMap} {calls : List (Call π)} {payload : List UInt8}
    (full : payload.length % maxPacket = 0) (sent : sentIn endpoints.diskOut calls = chunks payload)
    (quiet : ∀ made ∈ calls, made.operation.sentTo endpoints.diskOut = none →
      made.operation.Quiet endpoints) :
    ∀ made ∈ calls, made.operation.Quiet endpoints := by
  intro made present
  cases sentIs : made.operation.sentTo endpoints.diskOut with
  | none => exact quiet made present sentIs
  | some bytes =>
    rw [Operation.sentTo_eq_some sentIs]
    intro _
    have piece : bytes ∈ chunks payload := by
      rw [← sent, sentIn, List.mem_flatMap]
      exact ⟨made, present, by rw [sentIs]; exact List.mem_singleton_self bytes⟩
    exact ⟨_, decode_of_full (length_of_mem_chunks full piece)⟩

theorem length_flatten_front {packets rest : List (List UInt8)} {payload : List UInt8}
    (full : payload.length % maxPacket = 0) (parts : chunks payload = packets ++ rest) :
    packets.flatten.length % dirEntrySize = 0 := by
  apply length_flatten_mod
  intro bytes present
  have piece : bytes ∈ chunks payload := by
    rw [parts]
    exact List.mem_append_left rest present
  rw [length_of_mem_chunks full piece]
  rfl

namespace Volume

/-- A walk over bytes for one cluster at or behind the file's first. -/
theorem Walker.walk_data {name : Octets 11} {file : TrackedFile} {memory bytes : List UInt8}
    {index : Nat} (reached : file.cluster.toNat ≤ clusterOf index)
    (oneCluster : index % sectorsPerCluster * sectorSize + bytes.length ≤ clusterSize)
    (onVolume : (dataStart + index) * sectorSize + bytes.length ≤ totalSectors * sectorSize) :
    Walker.walk name ⟨sectorSize * (dataStart + index), [], file, memory⟩ bytes =
      ⟨sectorSize * (dataStart + index) + bytes.length, [], file,
        overwrite memory (index % sectorsPerCluster * sectorSize) bytes⟩ := by
  have width : sectorSize = 512 := rfl
  have start : sectorSize * (dataStart + index) = (dataStart + index) * sectorSize :=
    Nat.mul_comm ..
  have sector : sectorSize * (dataStart + index) / sectorSize = dataStart + index :=
    Nat.mul_div_cancel_left _ (by decide)
  have front : sectorSize * (dataStart + index) % sectorSize = 0 := Nat.mul_mod_right ..
  obtain ⟨clusterIs, offsetIs⟩ := cluster_of_place sector
  rw [front, Nat.add_zero] at offsetIs
  have offset : offsetInCluster index = index % sectorsPerCluster * sectorSize := rfl
  have walked := Walker.walk_cluster name
    ⟨sectorSize * (dataStart + index), [], file, memory⟩ bytes
    (by dsimp only; rw [start]; exact Nat.mul_le_mul_right _ (Nat.le_add_right ..))
    (by dsimp only; rw [start]; exact onVolume)
    (by dsimp only; rw [← offsetIs, offset]; exact oneCluster)
  dsimp only at walked
  rw [← clusterIs, ← offsetIs, if_pos reached] at walked
  exact walked

end Volume

theorem getD_overwrite (memory bytes : List UInt8) (start index : Nat) (inside : index < bytes.length) :
    (Volume.overwrite memory start bytes).getD (start + index) 0 =
      if start + index < memory.length then bytes.getD index 0 else 0 := by
  rw [List.getD_eq_getElem?_getD, Volume.getElem?_overwrite, Nat.add_sub_cancel_left,
    List.getD_eq_getElem?_getD]
  by_cases held : start + index < memory.length
  · rw [if_pos ⟨Nat.le_add_right .., by omega, held⟩, if_pos held]
  · rw [if_neg (fun all => held all.2.2), if_neg held, List.getElem?_eq_none (by omega)]
    rfl

namespace Drive

/-- A command that writes to one cluster of the data region, with all of its data, lays the data over
the memory. -/
theorem run_write_cluster [Link π] (drive : Drive capacity) {index count : Nat}
    (oneCluster : index % sectorsPerCluster + count ≤ sectorsPerCluster)
    (onVolume : dataStart + index + count ≤ totalSectors)
    (reached : drive.file.cluster.toNat ≤ clusterOf index)
    {payload : List UInt8} (size : payload.length = sectorSize * count) (nonempty : 0 < count)
    {packet : List UInt8} {wrapper : CommandWrapper}
    (decoded : CommandWrapper.decode packet = .ok wrapper) {lba : UInt32} {blocks : UInt16}
    (commandIs : wrapper.command = .write10 lba blocks) (lbaIs : lba.toNat = dataStart + index)
    (blocksIs : blocks.toNat = count) (requestedIs : wrapper.requested.toNat = sectorSize * count)
    (link : π) (calls : List (Call π))
    (sent : sentIn drive.identity.endpoints.diskOut calls = chunks payload)
    (quiet : ∀ made ∈ calls, made.operation.sentTo drive.identity.endpoints.diskOut = none →
      made.operation.Quiet drive.identity.endpoints)
    (unread : ∀ made ∈ calls, made.operation ≠ .takeChanged) :
    ∃ last outcomes, drive.run (drive.send packet link :: calls) = .ok (last, outcomes) ∧
      last.identity = drive.identity ∧
      last.storage.ram.bytes = Volume.overwrite drive.storage.ram.bytes
        (index % sectorsPerCluster * sectorSize) payload ∧
      last.phase ≠ .dataOut ∧
      [(wrapper.closing payload.length).encode] =
        acceptedIn drive.identity.endpoints.diskIn outcomes ++ last.storage.due := by
  have widths : sectorSize = 512 ∧ sectorsPerCluster = 8 ∧ clusterSize = 4096 :=
    ⟨rfl, rfl, rfl⟩
  obtain ⟨width, perCluster, clusterWidth⟩ := widths
  have written : wrapper.written = payload.length := by
    simp only [CommandWrapper.written, commandIs, Scsi.Command.named, blocksIs, requestedIs, size,
      Nat.min_self]
  have full : payload.length % maxPacket = 0 := by
    rw [size, width, maxPacket]
    omega
  have some : 0 < wrapper.written := by
    rw [written, size, width]
    omega
  have whole : ∀ packets rest, sentIn drive.identity.endpoints.diskOut calls = packets ++ rest →
      rest ≠ [] → packets.flatten.length % dirEntrySize = 0 := by
    intro packets rest parts _
    exact length_flatten_front full (sent.symm.trans parts)
  obtain ⟨last, outcomes, ran, wrote, sound, identityIs, due⟩ := drive.run_write decoded
    commandIs some link calls (quiet_of_sent full sent quiet) unread whole
  obtain ⟨phaseIs, offsetIs, remainingIs, -⟩ := transfer_of_written commandIs some
  rw [sent, flatten_chunks] at wrote
  obtain ⟨-, ramIs⟩ := wrote.walked (by
    simp only [opening, offsetIs, width, dirEntrySize]
    omega)
  simp only [opening, Storage.walker, offsetIs, remainingIs, written, lbaIs,
    List.take_length] at ramIs
  have reachedStill : drive.storage.file.cluster.toNat ≤ clusterOf index := reached
  rw [Volume.Walker.walk_data reachedStill
    (by rw [perCluster] at oneCluster ⊢; rw [size, width, clusterWidth]; omega)
    (by rw [size, width]; omega)] at ramIs
  refine ⟨last, outcomes, ran, identityIs, ramIs, ?_, ?_⟩
  · exact wrote.not_dataOut sound (by simp only [opening, remainingIs, written]; exact Nat.le_refl _)
  · rw [written] at due
    exact due

theorem answer_of_cluster (storage : Storage capacity) {first count : Nat}
    (oneCluster : first + count ≤ sectorsPerCluster) {wrapper : CommandWrapper} {lba : UInt32}
    {blocks : UInt16} (commandIs : wrapper.command = .read10 lba blocks)
    (lbaIs : lba.toNat = dataStart + first) (blocksIs : blocks.toNat = count)
    (requested : sectorSize * count ≤ wrapper.requested.toNat) :
    storage.answer wrapper = (List.range (sectorSize * count)).map fun place =>
      storage.ram.bytes.getD (first * sectorSize + place) 0 := by
  have widths : sectorSize = 512 ∧ sectorsPerCluster = 8 ∧ dataStart = 65 ∧ totalSectors = 16384 :=
    ⟨rfl, rfl, rfl, rfl⟩
  obtain ⟨width, perCluster, front, total⟩ := widths
  rw [perCluster] at oneCluster
  have start : sectorSize * (dataStart + first) - dataStart * sectorSize = first * sectorSize := by
    rw [Nat.mul_add, Nat.mul_comm sectorSize dataStart, Nat.add_sub_cancel_left, Nat.mul_comm]
  have part := Volume.stretch_data storage.identity storage.file.rehome storage.ram
    (sectorSize * (dataStart + first)) (sectorSize * count) (by rw [width]; omega)
    (by rw [width, front, total]; omega)
  rw [storage.answer_of_reading commandIs, lbaIs, blocksIs, Nat.min_eq_left requested, part, start]

/-- What is written to sectors of one cluster, at or behind the file's first and on the volume, is read
back from the same sectors of the first data cluster, as far as the memory holds it.  The packets of
the payload may hold anything, also the letters that open a command; quiet calls may come between them,
and any commands that write nothing between the write and the read. -/
theorem read_after_write [Link π] (drive : Drive capacity) (index count : Nat) (some : 0 < count)
    (oneCluster : index % sectorsPerCluster + count ≤ sectorsPerCluster)
    (onVolume : dataStart + index + count ≤ totalSectors)
    (reached : drive.file.cluster.toNat ≤ clusterOf index)
    {payload : List UInt8} (size : payload.length = sectorSize * count)
    {packet : List UInt8} {wrapper : CommandWrapper}
    (decoded : CommandWrapper.decode packet = .ok wrapper) {lba : UInt32} {blocks : UInt16}
    (commandIs : wrapper.command = .write10 lba blocks) (lbaIs : lba.toNat = dataStart + index)
    (blocksIs : blocks.toNat = count) (requestedIs : wrapper.requested.toNat = sectorSize * count)
    (link : π) (calls : List (Call π))
    (sent : sentIn drive.identity.endpoints.diskOut calls = chunks payload)
    (quiet : ∀ made ∈ calls, made.operation.sentTo drive.identity.endpoints.diskOut = none →
      made.operation.Quiet drive.identity.endpoints)
    (unread : ∀ made ∈ calls, made.operation ≠ .takeChanged) :
    ∃ written outcomes, drive.run (drive.send packet link :: calls) = .ok (written, outcomes) ∧
      (written.phase = .idle → acceptedIn drive.identity.endpoints.diskIn outcomes =
        [(wrapper.closing payload.length).encode]) ∧
      ∀ before reading first, written.Sessions before → reading.command = .read10 first blocks →
        first.toNat = dataStart + index % sectorsPerCluster →
        sectorSize * count ≤ reading.requested.toNat →
        (clusterOf index = firstDataCluster.toNat → first = lba) ∧
        (∃ last packets, before.Session reading last packets) ∧
        ∀ last packets, before.Session reading last packets →
          let place := index % sectorsPerCluster * sectorSize
          packets = chunks ((List.range (sectorSize * count)).map fun offset =>
              if place + offset < capacity then payload.getD offset 0 else 0) ++
            [(reading.closing (sectorSize * count)).encode] ∧
          ∀ other, other < place ∨ place + payload.length ≤ other →
            last.storage.ram.bytes[other]? = drive.storage.ram.bytes[other]? := by
  obtain ⟨written, outcomes, ran, identityIs, ramIs, -, due⟩ := drive.run_write_cluster oneCluster
    onVolume reached size some decoded commandIs lbaIs blocksIs requestedIs link calls sent quiet
    unread
  refine ⟨written, outcomes, ran, ?_, ?_⟩
  · intro idle
    rw [due, Storage.due_of_idle idle, List.append_nil]
  · intro before reading first between readIs firstIs asked
    have noData : reading.written = 0 := by simp only [CommandWrapper.written, readIs]
    have unchanged := between.same
    refine ⟨?_, before.exists_session noData, ?_⟩
    · intro firstCluster
      have small : index / sectorsPerCluster = 0 := by
        simp only [clusterOf] at firstCluster
        omega
      have same : index % sectorsPerCluster = index := by
        rw [show sectorsPerCluster = 8 from rfl] at small ⊢
        omega
      rw [same, ← lbaIs] at firstIs
      exact UInt32.toNat_inj.mp firstIs
    intro last packets session place
    obtain ⟨packetsAre, sameLast⟩ := session.response noData
    have answerIs := answer_of_cluster before.storage oneCluster readIs firstIs blocksIs asked
    have contents : before.storage.answer reading =
        (List.range (sectorSize * count)).map fun offset =>
          if place + offset < capacity then payload.getD offset 0 else 0 := by
      rw [answerIs, unchanged.ram, ramIs]
      apply List.map_congr_left
      intro offset present
      rw [List.mem_range, ← size] at present
      rw [getD_overwrite _ _ _ _ present, drive.storage.ram.length_bytes]
    constructor
    · rw [packetsAre, Storage.response, contents, noData]
      simp only [List.length_map, List.length_range, Nat.add_zero]
    · intro other apart
      rw [sameLast.ram, unchanged.ram, ramIs, Volume.getElem?_overwrite, if_neg]
      intro inside
      omega

/-- Sector 9 of the data region lies in the second cluster, and is read back from the second sector of
the first one, of which a memory of 700 bytes holds the first 188. -/
theorem read_after_write_second_cluster :
    let drive : Drive 700 := fresh {} (by decide)
    let payload := List.replicate 512 0x41
    ∃ written outcomes,
      drive.run (drive.send (CommandWrapper.writing 3 74 1).encode Willing.willing ::
        sending 6 (chunks payload)) = .ok (written, outcomes) ∧
      ∃ last packets, written.Session (CommandWrapper.reading 4 66 1) last packets ∧
        packets = chunks ((List.range (sectorSize * 1)).map fun offset =>
            if 9 % sectorsPerCluster * sectorSize + offset < 700 then payload.getD offset 0 else 0) ++
          [((CommandWrapper.reading 4 66 1).closing (sectorSize * 1)).encode] := by
  intro drive payload
  have command : (CommandWrapper.writing 3 74 1).command = .write10 74 1 := rfl
  have others : ∀ made ∈ sending 6 (chunks payload),
      made.operation.sentTo drive.identity.endpoints.diskOut = none →
        made.operation.Quiet drive.identity.endpoints := by
    intro made present unsent
    obtain ⟨bytes, -, rfl⟩ := List.mem_map.mp present
    cases unsent
  have unread : ∀ made ∈ sending 6 (chunks payload), made.operation ≠ .takeChanged := by
    intro made present
    obtain ⟨bytes, -, rfl⟩ := List.mem_map.mp present
    exact Operation.noConfusion
  obtain ⟨written, outcomes, ran, -, readBack⟩ := read_after_write drive 9 1 (by decide)
    (by decide) (by decide) (by decide) (List.length_replicate ..)
    (CommandWrapper.decode_encode _) command rfl rfl rfl Willing.willing
    (sending 6 (chunks payload)) (sentIn_sending 6 _) others unread
  obtain ⟨-, ⟨last, packets, session⟩, returned⟩ := readBack written
    (CommandWrapper.reading 4 66 1) 66 .none rfl rfl (by decide)
  exact ⟨written, outcomes, ran, last, packets, session, (returned last packets session).1⟩

end Drive

end ScriptDrive
