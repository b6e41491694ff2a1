import HAL9000.Fat32.Files

/-!
# FAT32: the size of a file that is written to

`FatWriteFile` computes the end of what it has written in 32 bits. While the end fits, the size in the entry is the
larger one of the old size and the end (`fatWriteFile_size`). A write that ends behind that is not refused.
-/

namespace HAL9000.Fat32
open Lib Prog

variable {fd : FatData} {v v' : Volume} {disk disk' : Mem} {now : DateTime} {buffer : Mem}
  {c d e i n m index x : Nat}

/-- The chain of a file does not contain the cluster `e`, which is in use. -/
structure Apart (fd : FatData) (disk : Mem) (c e : Nat) : Prop where
  sound : SoundChain fd disk c
  data : IsData fd e
  taken : tableEntry fd disk e ≠ 0
  apart : ∀ n, follow (successor fd disk) n c ≠ some e

abbrev ClusterSpan (fd : FatData) (c : Nat) : Nat → Prop :=
  Span (sectorOf fd c * fd.bytesPerSector) (bytesPerCluster fd)

lemma cluster_disjoint (hc : IsData fd c) (hd : IsData fd d) (h : ClusterSpan fd c x) (h' : ClusterSpan fd d x) :
    c = d := by
  have hstart : ∀ c, sectorOf fd c * fd.bytesPerSector =
      (c - 2) * bytesPerCluster fd + fd.firstDataSector * fd.bytesPerSector := by
    intro c
    rw [sectorOf, Nat.add_mul, Nat.mul_assoc, Nat.mul_comm fd.sectorsPerCluster, bytesPerCluster]
  obtain ⟨h2, -⟩ := hc
  obtain ⟨h2', -⟩ := hd
  simp only [Span, hstart] at h h'
  have := sector_disjoint (n := bytesPerCluster fd) (a := c - 2) (b := d - 2)
    (x := x - fd.firstDataSector * fd.bytesPerSector) ⟨by omega, by omega⟩ ⟨by omega, by omega⟩
  omega

/-- On the way the cluster of the entry stays as it is. -/
lemma sizeRule (g : Geometry fd) (disk₀ : Mem) (e : Nat) : WriteRule fd e (fun disk c => Apart fd disk c e ∧
      ∀ x, ClusterSpan fd e x → disk x = disk₀ x) (fun _ => True) fun _ => True where
  data := fun _ _ h => h.1.sound.data
  taken := fun _ _ h => h.1.sound.taken
  next := fun disk c d h hs _ => ⟨⟨h.1.sound.next hs, h.1.data, h.1.taken, fun n hn =>
    h.1.apart (n + 1) (by rw [follow_succ hs, hn])⟩, h.2⟩
  store := fun disk c disk' h hw => by
    have hd := cluster_within hw
    refine ⟨⟨h.1.sound.of_data g hd, h.1.data, ?_, fun n hn => ?_⟩, fun x hx => ?_⟩
    · rw [tableEntry_of_data g hd h.1.data.2]
      exact h.1.taken
    · rw [follow_congr fun k x hx => successor_of_data g hd (h.1.sound k x hx).1] at hn
      exact h.1.apart n hn
    · rw [hw x fun hc => h.1.apart 0 (congrArg some (cluster_disjoint h.1.sound.data h.1.data hc hx)), h.2 x hx]
  extend := fun disk c n info h hs hext _ => by
    have hl := hext.linked g h.1.sound.taken info
    have hne : n ≠ e := fun hn => h.1.taken (hn ▸ hl.free)
    refine ⟨⟨soundChain_of_end hl.data hl.end.1 hl.end.2, h.1.data, ?_, ?_⟩, fun x hx => ?_⟩
    · rw [hl.others e (fun hc => h.1.apart 0 (congrArg some hc.symm)) hne.symm]
      exact h.1.taken
    · rintro (_ | k) hk
      · exact hne (Option.some.inj hk)
      · rw [follow, hl.end.2] at hk
        cases hk
    · obtain ⟨y, rfl⟩ := Nat.exists_eq_add_of_le hx.1
      have hy := dataRegion_cluster fd e y
      have hinfo := g.info_le
      rw [← h.2 _ hx, extended, copyTo_within _ fun hin => ?_, setEntry_of_data g h.1.sound.data hy,
        setEntry_of_data g hl.data hy]
      unfold DataRegion Span at *
      omega
  stamp := fun _ _ _ _ _ _ _ => trivial
  fails := fun _ _ _ => trivial
  lost := fun _ _ _ _ _ => trivial

lemma dirFileSize_writtenEntry (now : DateTime) (hn : n < 2 ^ 32) (m : Mem) :
    dirFileSize (writtenEntry now n m) 0 = max (dirFileSize m 0) n := by
  have hstep : ∀ (m : Mem) a y, a + 2 ≤ 0x1C → dirFileSize (writeLE m a 2 y) 0 = dirFileSize m 0 := by
    intro m a y ha
    refine writeLE_within.readLE fun x hx hin => ?_
    unfold Span at *
    omega
  rw [writtenEntry, hstep _ _ _ (by decide), hstep _ _ _ (by decide), hstep _ _ _ (by decide)]
  split
  · next hlt =>
    rw [dirFileSize, Nat.zero_add, readLE_writeLE _ _ hn]
    omega
  · omega

lemma dirFileSize_cluster (fd : FatData) (disk : Mem) (e index : Nat) :
    dirFileSize (clusterBytes fd disk e) (sizeofDirEntry * index) =
      dirFileSize (fun x => disk (entryAddr fd e index + x)) 0 := by
  unfold dirFileSize clusterBytes entryAddr
  rw [readLE_shift, readLE_shift, Nat.zero_add, Nat.add_assoc]

/-- The size becomes the end of what was written, unless it is larger. -/
lemma fatWriteFile_size (g : Geometry fd) (hr : Reliable fd) (hn : 0 ≠ n) (ha : Apart fd v.disk c e)
    (hfind : findDirEntry (clusterBytes fd v.disk e) c (bytesPerCluster fd / sizeofDirEntry) 0 = some index)
    (h : fatWriteFile fd now (sectorOf fd c) i (sectorOf fd e) buffer n v = .ok (.ok m, v')) :
    dirFileSize (clusterBytes fd v'.disk e) (sizeofDirEntry * index) =
      max (dirFileSize (clusterBytes fd v.disk e) (sizeofDirEntry * index))
        ((i + n) * fd.bytesPerSector % 2 ^ 32) := by
  obtain ⟨disk, d, index', ⟨-, hsame⟩, hfind', hv'⟩ :=
    ((fatWriteFile_written (sizeRule g v.disk e) g hr hn ⟨ha, fun _ _ => rfl⟩).apply h).1 m rfl
  have hbyte : ∀ k t, k < 0 + bytesPerCluster fd / sizeofDirEntry → t < sizeofDirEntry →
      disk (entryAddr fd e k + t) = v.disk (entryAddr fd e k + t) := by
    intro k t hk ht
    have := entry_le hk
    refine hsame _ ?_
    unfold entryAddr ClusterSpan Span
    omega
  obtain rfl : index = index' := by
    refine Option.some.inj (hfind.symm.trans (Eq.trans (findDirEntry_stamps fun k t hk ht _ => ?_) hfind'))
    have := hbyte k t hk ht
    rw [entryAddr, Nat.add_assoc] at this
    exact this.symm
  have hsize : ∀ x, Span (0 + 0x1C) 4 x → x < sizeofDirEntry := fun x hx => hx.2
  have hold : dirFileSize (fun x => disk (entryAddr fd e index + x)) 0 =
      dirFileSize (fun x => v.disk (entryAddr fd e index + x)) 0 :=
    readLE_congr fun x hx => hbyte index x (findDirEntry_some hfind).1 (hsize x hx)
  have hnew : dirFileSize (fun x => v'.disk (entryAddr fd e index + x)) 0 = dirFileSize (writtenEntry now
      ((i + n) % 2 ^ 32 * fd.bytesPerSector % 2 ^ 32) fun x => disk (entryAddr fd e index + x)) 0 := by
    refine readLE_congr fun x hx => ?_
    rw [hv', copyTo, if_pos ⟨Nat.le_add_right .., Nat.add_lt_add_left (hsize x hx) _⟩, Nat.add_sub_cancel_left]
  rw [dirFileSize_cluster, dirFileSize_cluster, hnew, dirFileSize_writtenEntry _ (Nat.mod_lt _ (by decide)), hold,
    Nat.mod_mul_mod]

/-- After a successful write the size is the larger one of the old size and the end of what has been written, if
    and only if the end fits in 32 bits. -/
theorem fatWriteFile_size_iff (g : Geometry fd) (hr : Reliable fd) (now : DateTime) (buffer : Mem) (hn : 0 < n)
    (ha : Apart fd v.disk c e)
    (hfind : findDirEntry (clusterBytes fd v.disk e) c (bytesPerCluster fd / sizeofDirEntry) 0 = some index)
    (h : fatWriteFile fd now (sectorOf fd c) i (sectorOf fd e) buffer n v = .ok (.ok m, v')) :
    dirFileSize (clusterBytes fd v'.disk e) (sizeofDirEntry * index) =
        max (dirFileSize (clusterBytes fd v.disk e) (sizeofDirEntry * index)) ((i + n) * fd.bytesPerSector) ↔
      (i + n) * fd.bytesPerSector < 2 ^ 32 := by
  have hlt : dirFileSize (clusterBytes fd v'.disk e) (sizeofDirEntry * index) < 2 ^ 32 := readLE_lt ..
  have hsize := fatWriteFile_size g hr (Nat.ne_of_lt hn) ha hfind h
  constructor
  · intro heq
    omega
  · intro hfits
    rw [hsize, Nat.mod_eq_of_lt hfits]

/-- The first sector of an empty file. -/
theorem fatWriteFile_size_oneFile : ∃ v', fatWriteFile sampleData ⟨1, 1, 2000, 0, 0, 0⟩ (sectorOf sampleData 3) 0
      (sectorOf sampleData 2) (fun _ => 0) 1 ⟨oneFile, 0⟩ = .ok (.ok 1, v') ∧
    dirFileSize (clusterBytes sampleData v'.disk 2) 0 = 512 := by
  obtain ⟨v', hrun, -⟩ := exists_of_returns (x := fatWriteFile sampleData ⟨1, 1, 2000, 0, 0, 0⟩
    (sectorOf sampleData 3) 0 (sectorOf sampleData 2) (fun _ => 0) 1) (s := ⟨oneFile, 0⟩) (a := 1)
    (P := fun _ => True) (by decide)
  have hend : successor sampleData oneFile 3 = none := by decide
  have ha : Apart sampleData oneFile 3 2 := by
    refine ⟨soundChain_of_end (by decide) (by decide) hend, by decide, by decide, ?_⟩
    rintro (_ | n) hn
    · cases hn
    · rw [follow, hend] at hn
      cases hn
  have hfind : findDirEntry (clusterBytes sampleData oneFile 2) 3
      (bytesPerCluster sampleData / sizeofDirEntry) 0 = some 0 := by decide
  exact ⟨v', hrun, (fatWriteFile_size_iff (v := ⟨oneFile, 0⟩) sampleData_geometry sampleData_reliable
    _ _ (by decide) ha hfind hrun).mpr (by decide)⟩

/-- Clusters of 4 MB, each of them followed by the next one; the file starts with the second one. -/
def largeData : FatData := { sampleData with
  rootDirectoryStartSector := 128, firstDataSector := 128, sectorsPerCluster := 128, bytesPerSector := 32768
  entriesPerSector := 1024, allocationSize := 4194304 }

def largeFile : Mem := fun x =>
  if x < 128 * 32768 then .ofNat (((x - 32 * 32768) / 4 + 1) / 256 ^ (x % 4))
  else if x = 128 * 32768 then 65 else if x = 128 * 32768 + 0x1A then 3 else 0

/-- The sector that ends at 4 GB is written, and the size stays 0. -/
theorem fatWriteFile_size_wraps : ∃ v', fatWriteFile largeData ⟨1, 1, 2000, 0, 0, 0⟩ (sectorOf largeData 3) 131071
      (sectorOf largeData 2) (fun _ => 0) 1 ⟨largeFile, 0⟩ = .ok (.ok 1, v') ∧
    dirFileSize (clusterBytes largeData v'.disk 2) 0 = 0 :=
  exists_of_returns (by decide +kernel)

end HAL9000.Fat32
