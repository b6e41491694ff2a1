import HAL9000.Fat32.Create

/-!
# FAT32: what reading and writing a file does to the volume

`FatWriteFile` goes along the chain of a file and extends it where it is too short. `WriteRule` is the
rule for a property `P disk c` of the volume and the current cluster: what keeps it at every change the
loops make is known when the call returns (`fatWriteFile_rule`). Reading along a sound chain changes
nothing but the stamps in the entry of the file (`fatReadFile_sound`).
-/

namespace HAL9000.Fat32
open Lib Prog

variable {fd : FatData} {v : Volume} {disk disk' : Mem} {now : DateTime} {buffer : Mem}
  {c d e fuel i k n : Nat}

def SoundChain (fd : FatData) (disk : Mem) (c : Nat) : Prop :=
  ∀ n d, follow (successor fd disk) n c = some d → IsData fd d ∧ tableEntry fd disk d ≠ 0

lemma SoundChain.data (h : SoundChain fd disk c) : IsData fd c := (h 0 c rfl).1

lemma SoundChain.taken (h : SoundChain fd disk c) : tableEntry fd disk c ≠ 0 := (h 0 c rfl).2

lemma SoundChain.next (h : SoundChain fd disk c) (hd : successor fd disk c = some d) : SoundChain fd disk d :=
  fun n x hx => h (n + 1) x (by rw [follow_succ hd, hx])

lemma SoundChain.of_data (g : Geometry fd) (h : SoundChain fd disk c)
    (hw : Within (DataRegion fd) disk disk') : SoundChain fd disk' c := by
  intro n d hd
  rw [follow_congr fun k x hx => successor_of_data g hw (h k x hx).1] at hd
  obtain ⟨hdata, htaken⟩ := h n d hd
  exact ⟨hdata, by rwa [tableEntry_of_data g hw hdata.2]⟩

lemma soundChain_of_end (hc : IsData fd c) (ht : tableEntry fd disk c ≠ 0)
    (hs : successor fd disk c = none) : SoundChain fd disk c := by
  rintro (_ | n) d hd
  · cases hd
    exact ⟨hc, ht⟩
  · rw [follow, hs] at hd
    cases hd

lemma writeDirEntryToSector_eq (hr : Reliable fd) {m : Mem}
    (hlt : sizeofDirEntry * i + sizeofDirEntry ≤ bytesPerCluster fd) :
    writeDirEntryToSector fd (sectorOf fd d) i m v =
      .ok (.ok (), ⟨copyTo v.disk (entryAddr fd d i) sizeofDirEntry m, v.reads + 1⟩) := by
  rw [writeDirEntryToSector, Prog.bind_of_ok (ioReadDevice_reliable hr ..), ioWriteDevice_reliable hr,
    copyTo_copyTo hlt, entryAddr]

lemma stamps_within (h : Within (fun x => ∃ t, StampBytes t ∧ x = entryAddr fd e i + t) disk disk') :
    Within (DataRegion fd) disk disk' := by
  refine h.mono ?_
  rintro x ⟨t, -, rfl⟩
  rw [entryAddr, Nat.add_assoc]
  exact dataRegion_cluster ..

section Write

/-- The volume after cluster `n` has been taken for the chain that ends in `c`. -/
def extended (fd : FatData) (disk : Mem) (c n : Nat) (info : Mem) : Mem :=
  copyTo (setEntry fd (setEntry fd disk n eocMark) c n) fd.bytesPerSector fd.bytesPerSector info

lemma Extendable.data (g : Geometry fd) (h : Extendable fd disk n) : IsData fd n := ⟨h.2.2.1, h.2.2.2.2.lt g⟩

lemma Extendable.free (h : Extendable fd disk n) : IsFree fd disk n := h.2.2.2.1.2.1

lemma Extendable.linked (g : Geometry fd) (h : Extendable fd disk n) (hc : tableEntry fd disk c ≠ 0)
    (info : Mem) : Linked fd disk (extended fd disk c n info) c n := by
  refine linked_of_setEntry g (h.data g) h.free ?_ copyTo_within
  rintro rfl
  exact hc h.free

lemma Linked.end (h : Linked fd disk disk' c n) : tableEntry fd disk' n ≠ 0 ∧ successor fd disk' n = none := by
  have hend := h.ends
  refine ⟨fun h0 => ?_, ?_⟩
  · rw [h0] at hend
    exact absurd hend (by decide)
  · rw [successor, nextOf, if_pos]
    split
    · rfl
    · exact hend

/-- What has to be shown of a property of the volume and the current cluster of a file whose entry is in
    cluster `e`: it is kept on the way along the chain, when the cluster is written to and when the chain
    is extended. Then `S` holds where the call succeeds, and `F` where it fails. -/
structure WriteRule (fd : FatData) (e : Nat) (P : Mem → Nat → Prop) (S F : Mem → Prop) : Prop where
  data : ∀ disk c, P disk c → IsData fd c
  taken : ∀ disk c, P disk c → tableEntry fd disk c ≠ 0
  next : ∀ disk c d, P disk c → successor fd disk c = some d → IsData fd d → P disk d
  store : ∀ disk c disk', P disk c →
    Within (Span (sectorOf fd c * fd.bytesPerSector) (bytesPerCluster fd)) disk disk' → P disk' c
  extend : ∀ disk c n info, P disk c → successor fd disk c = none → Extendable fd disk n →
    InfoTaken fd disk n info → P (extended fd disk c n info) n
  stamp : ∀ disk c index disk', P disk c →
    sizeofDirEntry * index + sizeofDirEntry ≤ bytesPerCluster fd →
    Within (fun x => ∃ t, StampBytes t ∧ x = entryAddr fd e index + t) disk disk' → S disk'
  fails : ∀ disk c, P disk c → F disk
  lost : ∀ disk c info, P disk c → successor fd disk c = none →
    F (copyTo disk fd.bytesPerSector fd.bytesPerSector info)

variable {P : Mem → Nat → Prop} {S F : Mem → Prop}

variable (W : WriteRule fd e P S F) (g : Geometry fd) (hr : Reliable fd)
include W g hr

lemma WriteRule.nextSector (hP : P v.disk c) (hi : i < fd.sectorsPerCluster) :
    Runs (fun _ => False) (nextSectorInClusterChain fd (sectorOf fd c + i) true) v fun r v' =>
      (∀ s, r = .ok s → ∃ d, P v'.disk d ∧ s = sectorOf fd d) ∧ ∀ st, r = .error st → F v'.disk := by
  have hc := W.data _ _ hP
  have hsame : repaired fd v.disk c = v.disk := if_neg (W.taken _ _ hP)
  rw [nextSectorInClusterChain, clusterOfSector_ok g hc hi, ofExcept_ok_bind]
  refine .bind_of_ok (nextClusterInChain_eq g hr c) ?_
  rw [hsame]
  refine .ite (fun hend => ?_) fun hend => ?_
  · have hlast : successor fd v.disk c = none := by rw [successor, if_pos hend]
    rw [if_pos rfl]
    by_cases hext : ∃ n, Extendable fd v.disk n
    · obtain ⟨n, hext⟩ := hext
      obtain ⟨info, r, h, hinfo⟩ :=
        addNewClusterToChain_ok g hr hc (v := ⟨v.disk, v.reads + 1⟩) hext
      refine .bind_of_ok h ?_
      rw [firstSectorOfCluster_ok g (hext.data g)]
      refine .ofExcept ⟨fun s hs => ⟨n, W.extend _ _ _ _ hP hlast hext hinfo, ?_⟩, by simp⟩
      cases hs
      rfl
    · rcases addNewClusterToChain_none g hr hc (v := ⟨v.disk, v.reads + 1⟩) hext with h | ⟨info, r, h⟩
      · rw [Runs, Prog.bind_of_fault h]
        exact id
      · -- cluster 0 has no sector
        refine .bind_of_ok h (.ofExcept ⟨fun s hs => ?_, fun _ _ => W.lost _ _ _ hP hlast⟩)
        exact absurd ((firstSectorOfCluster_eq_ok g).mp hs).1.1 (by decide)
  · refine .ofExcept ⟨fun s hs => ?_, fun _ _ => W.fails _ _ hP⟩
    obtain ⟨hd, rfl⟩ := (firstSectorOfCluster_eq_ok g).mp hs
    exact ⟨_, W.next _ _ _ hP (by rw [successor, if_neg hend]) hd, rfl⟩

lemma WriteRule.skipClusters (hP : P v.disk c) :
    Runs (fun _ => False) (skipClusters fd n true fuel k (sectorOf fd c)) v fun r v' =>
      (∀ s, r = .ok s → ∃ d, P v'.disk d ∧ s = sectorOf fd d) ∧ ∀ st, r = .error st → F v'.disk := by
  induction fuel generalizing v c k with
  | zero => exact .fault id
  | succ fuel ih =>
    rw [Fat32.skipClusters]
    refine .ite (fun _ => ?_) fun _ => .pure ⟨fun s hs => ⟨c, hP, by cases hs; rfl⟩, by simp⟩
    refine .assert_bind (by simp) fun _ => ?_
    refine (W.nextSector (i := 0) g hr hP g.sectorsPerCluster_pos).seq ?_
      fun st v' h => ⟨by simp, fun _ _ => h.2 st rfl⟩
    rintro s v1 ⟨hs, -⟩
    obtain ⟨d, hd, rfl⟩ := hs s rfl
    exact ih hd

lemma WriteRule.writeSectors (hP : P v.disk c) (hin : i + k ≤ fd.sectorsPerCluster)
    (hi : i < fd.sectorsPerCluster) {p : Nat} :
    Runs (fun _ => False) (writeSectors fd buffer fuel (sectorOf fd c + i) n k p) v fun r v' =>
      (∀ u, r = .ok u → ∃ d, P v'.disk d) ∧ ∀ st, r = .error st → F v'.disk := by
  induction fuel generalizing v c i k n p with
  | zero => exact .fault id
  | succ fuel ih =>
    rw [Fat32.writeSectors]
    refine .bind_of_ok (ioWriteDevice_reliable hr ..) ?_
    have hP' := W.store _ _ (copyTo v.disk ((sectorOf fd c + i) * fd.bytesPerSector)
      (k * fd.bytesPerSector) fun x => buffer (p + x)) hP (copyTo_within.mono fun x hx => ?_)
    · refine .ite (fun _ => .pure ⟨fun _ _ => ⟨c, hP'⟩, by simp⟩) fun _ => ?_
      refine (W.nextSector g hr hP' hi).seq ?_ fun st v' h => ⟨by simp, fun _ _ => h.2 st rfl⟩
      rintro s v1 ⟨hs, -⟩
      obtain ⟨d, hd, rfl⟩ := hs s rfl
      exact ih (i := 0) hd (by omega) g.sectorsPerCluster_pos
    · -- the sectors are in the cluster
      have hle := Nat.mul_le_mul_right fd.bytesPerSector hin
      obtain ⟨h1, h2⟩ := hx
      rw [Nat.add_mul] at h1 h2 hle
      rw [bytesPerCluster, Nat.mul_comm fd.bytesPerSector]
      unfold Span
      omega

lemma fatWriteFile_written (hn : 0 ≠ n) (hP : P v.disk c) :
    Runs (fun _ => False) (fatWriteFile fd now (sectorOf fd c) i (sectorOf fd e) buffer n) v fun r v' =>
      (∀ m, r = .ok m → ∃ disk d index, P disk d ∧
        findDirEntry (clusterBytes fd disk e) c (bytesPerCluster fd / sizeofDirEntry) 0 = some index ∧
        v'.disk = copyTo disk (entryAddr fd e index) sizeofDirEntry (writtenEntry now
          ((i + n) % 2 ^ 32 * fd.bytesPerSector % 2 ^ 32) fun x => disk (entryAddr fd e index + x))) ∧
      ∀ st, r = .error st → F v'.disk := by
  have hc := W.data _ _ hP
  rw [fatWriteFile]
  refine .assert_bind (by simp) fun _ => ?_
  rw [if_neg hn]
  refine (W.skipClusters g hr hP).seq ?_ fun st v' h => ⟨by simp, fun _ _ => h.2 st rfl⟩
  rintro s v1 ⟨hs, -⟩
  obtain ⟨d, hd, rfl⟩ := hs s rfl
  refine .assert_bind (by simp) fun _ => ?_
  have hlt := Nat.mod_lt i g.sectorsPerCluster_pos
  dsimp only
  refine (W.writeSectors g hr hd (by omega) hlt).seq ?_ fun st v' h => ⟨by simp, fun _ _ => h.2 st rfl⟩
  rintro _ v2 ⟨hv2, -⟩
  obtain ⟨d', hd'⟩ := hv2 () rfl
  refine (getDirEntryFromSector_runs g hc).seq ?_ fun st v' h => ⟨by simp, fun _ _ => h.1 ▸ W.fails _ _ hd'⟩
  rintro ⟨index, m⟩ ⟨disk3, reads3⟩ ⟨rfl, hm⟩
  obtain ⟨hfind, rfl⟩ := hm index m rfl
  have hle := entry_le (findDirEntry_some hfind).1
  exact .bind_of_ok (writeDirEntryToSector_eq hr hle) (.pure ⟨fun _ _ => ⟨_, d', index, hd', hfind, rfl⟩, by simp⟩)

lemma fatWriteFile_rule (hS : S v.disk) (hP : P v.disk c) :
    Runs (fun _ => False) (fatWriteFile fd now (sectorOf fd c) i (sectorOf fd e) buffer n) v fun r v' =>
      (∀ m, r = .ok m → S v'.disk) ∧ ∀ st, r = .error st → F v'.disk := by
  by_cases hn : 0 = n
  · rw [fatWriteFile]
    refine .assert_bind (by simp) fun _ => ?_
    rw [if_pos hn]
    exact .pure ⟨fun _ _ => hS, by simp⟩
  · refine (fatWriteFile_written W g hr hn hP).mono fun r v' h => ⟨fun m hm => ?_, h.2⟩
    obtain ⟨disk, d, index, hd, hfind, hv'⟩ := h.1 m hm
    rw [hv']
    exact W.stamp _ _ _ _ hd (entry_le (findDirEntry_some hfind).1) (copyTo_stamps (writtenEntry_stamps _ _ _))

end Write

section Read

lemma clusterOfSector_zero (g : Geometry fd) : clusterOfSector fd 0 = .error .deviceClusterInvalid := by
  have hsec := g.sectors
  have hres := g.info_le
  have hpos := g.bytesPerSector_pos
  have hq := g.sectorsPerCluster_pos
  have hfirst : 2 < fd.firstDataSector := by
    have htab := g.tables
    have := Nat.mul_le_mul_right fd.bytesPerSector g.reserved
    unfold fatAddr at htab
    exact Nat.lt_of_mul_lt_mul_right (a := fd.bytesPerSector) (by omega)
  have hsub : wsub 64 0 fd.firstDataSector = 2 ^ 64 - fd.firstDataSector := by
    unfold wsub
    rw [Nat.mod_eq_of_lt]
    all_goals omega
  have hge : fd.countOfClusters ≤ (2 ^ 64 - fd.firstDataSector) / fd.sectorsPerCluster :=
    (Nat.le_div_iff_mul_le hq).mpr (by omega)
  have hle := Nat.div_le_self (2 ^ 64 - fd.firstDataSector) fd.sectorsPerCluster
  simp only [clusterOfSector, hsub, g.clustered.wadd_one]
  rw [wadd_eq (by omega), if_pos (by omega)]

/-- Where a read is on its way along a sound chain: at a cluster of it, or behind its end. -/
def OnChain (fd : FatData) (disk : Mem) (s : Nat) : Prop := s = 0 ∨ ∃ d, SoundChain fd disk d ∧ s = sectorOf fd d

variable (g : Geometry fd) (hr : Reliable fd)
include g hr

lemma nextSector_sound (hc : SoundChain fd v.disk c) (hi : i < fd.sectorsPerCluster) :
    Runs (fun _ => False) (nextSectorInClusterChain fd (sectorOf fd c + i) false) v fun r v' =>
      v'.disk = v.disk ∧ ∀ s, r = .ok s → OnChain fd v.disk s := by
  have hsame : repaired fd v.disk c = v.disk := if_neg hc.taken
  rw [nextSectorInClusterChain, clusterOfSector_ok g hc.data hi, ofExcept_ok_bind]
  refine .bind_of_ok (nextClusterInChain_eq g hr c) ?_
  rw [hsame]
  refine .ite (fun _ => .pure ⟨rfl, fun s hs => ?_⟩) fun hend => .ofExcept ⟨rfl, fun s hs => ?_⟩
  · cases hs
    exact .inl rfl
  · exact .inr ⟨_, hc.next (by rw [successor, if_neg hend]), ((firstSectorOfCluster_eq_ok g).mp hs).2⟩

lemma skipClusters_sound {s : Nat} (hs : OnChain fd v.disk s) :
    Runs (fun _ => False) (skipClusters fd n false fuel k s) v fun r v' =>
      v'.disk = v.disk ∧ ∀ s, r = .ok s → OnChain fd v.disk s := by
  induction fuel generalizing v k s with
  | zero => exact .fault id
  | succ fuel ih =>
    rw [skipClusters]
    refine .ite (fun _ => ?_) fun _ => .pure ⟨rfl, fun s' hs' => by cases hs'; exact hs⟩
    refine .assert_bind (by simp) fun _ => ?_
    rcases hs with rfl | ⟨d, hd, rfl⟩
    · rw [nextSectorInClusterChain, clusterOfSector_zero g]
      exact ⟨rfl, by simp⟩
    · refine (nextSector_sound (i := 0) g hr hd g.sectorsPerCluster_pos).seq ?_
        fun st v' h => ⟨h.1, by simp⟩
      rintro s ⟨disk1, reads1⟩ ⟨rfl, hs⟩
      exact ih (v := ⟨v.disk, reads1⟩) (hs s rfl)

lemma readSectors_sound (hc : SoundChain fd v.disk c) (hi : i < fd.sectorsPerCluster) {p : Nat} :
    Runs (fun _ => False) (readSectors fd fuel (sectorOf fd c + i) n k buffer p) v fun _ v' =>
      v'.disk = v.disk := by
  induction fuel generalizing v c i k n buffer p with
  | zero => exact .fault id
  | succ fuel ih =>
    rw [readSectors]
    refine .bind_of_ok (ioReadDevice_reliable hr ..) (.ite (fun _ => .pure rfl) fun _ => ?_)
    refine (nextSector_sound (v := ⟨v.disk, v.reads + 1⟩) g hr hc hi).seq ?_ fun st v' h => h.1
    rintro s ⟨disk1, reads1⟩ ⟨rfl, hs⟩
    refine .ite (fun _ => .pure rfl) fun hne => ?_
    rcases hs s rfl with rfl | ⟨d, hd, rfl⟩
    · exact absurd rfl hne
    · exact ih (v := ⟨v.disk, reads1⟩) (i := 0) hd g.sectorsPerCluster_pos

lemma fatReadFile_sound (hc : SoundChain fd v.disk c) :
    Runs (fun _ => False) (fatReadFile fd now (sectorOf fd c) i (sectorOf fd e) buffer n) v fun _ v' =>
      v'.disk = v.disk ∨ ∃ index, sizeofDirEntry * index + sizeofDirEntry ≤ bytesPerCluster fd ∧
        Within (fun x => ∃ t, StampBytes t ∧ x = entryAddr fd e index + t) v.disk v'.disk := by
  rw [fatReadFile]
  refine .assert_bind (by simp) fun _ => ?_
  refine .ite (fun _ => .pure (.inl rfl)) fun _ => ?_
  refine (skipClusters_sound g hr (.inr ⟨c, hc, rfl⟩)).seq ?_ fun st v' h => .inl h.1
  rintro s ⟨disk1, reads1⟩ ⟨rfl, hs⟩
  refine .assert_bind (by simp) fun hne => ?_
  obtain ⟨d, hd, rfl⟩ := (hs s rfl).resolve_left hne.symm
  dsimp only
  refine (readSectors_sound (v := ⟨v.disk, reads1⟩) g hr hd (Nat.mod_lt i g.sectorsPerCluster_pos)).seq ?_
    fun st v' h => .inl h
  rintro ⟨left, b⟩ ⟨disk2, reads2⟩ rfl
  refine (getDirEntryFromSector_runs g hc.data).seq ?_ fun st v' h => .inl h.1
  rintro ⟨index, m⟩ ⟨disk3, reads3⟩ ⟨rfl, hm⟩
  obtain ⟨hfind, rfl⟩ := hm index m rfl
  have hle := entry_le (findDirEntry_some hfind).1
  refine .bind_of_ok (writeDirEntryToSector_eq hr hle) (.pure (.inr ⟨index, hle, ?_⟩))
  exact copyTo_stamps (writeLE_within.mono fun x hx => .inl hx)

end Read

/-- The calls that change a volume, with what surrounds them: what lies behind the buffers of a search,
    and how many steps its loops may take. -/
inductive Call where
  | create (past : Nat → Option UInt8) (fuel : Nat) (now : DateTime) (name : List UInt8)
      (fileAttributes : Nat)
  | write (now : DateTime) (baseFileSector sectorOffset dirEntrySector : Nat) (buffer : Mem)
      (sectorsToWrite : Nat)
  | read (now : DateTime) (baseFileSector sectorOffset dirEntrySector : Nat) (buffer : Mem)
      (sectorsToRead : Nat)

def Call.run (fd : FatData) : Call → Fs Unit
  | .create past fuel now name attr => fatCreateDirectoryEntry fd past fuel now name attr
  | .write now base offset entry buffer n => do
    let _ ← fatWriteFile fd now base offset entry buffer n
  | .read now base offset entry buffer n => do
    let _ ← fatReadFile fd now base offset entry buffer n

end HAL9000.Fat32
