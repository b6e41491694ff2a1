import HAL9000.Fat32.Directory
import HAL9000.Fat32.Extend

/-!
# FAT32: what creating an entry does

`FatCreateDirectoryEntry` puts the new entry into the last cluster of the parent directory and takes the
cluster the hint names, free or not. `created` is the volume it leaves behind. On a volume with sound
directories and a hint that names a cluster, a call leaves this volume behind or, if it fails, the one it
was started with (`fatCreateDirectoryEntry_runs`).
-/

namespace HAL9000.Fat32
open Lib Prog

variable {fd : FatData} {v : Volume} {disk disk' : Mem} {past : Nat → Option UInt8} {bad : Fault → Prop}
  {now : DateTime} {name : List UInt8} {attr c d fuel i k l n p : Nat}

lemma Geometry.info_le (g : Geometry fd) : 2 * fd.bytesPerSector ≤ fd.firstDataSector * fd.bytesPerSector := by
  have := Nat.mul_le_mul_right fd.bytesPerSector g.reserved
  have := g.tables
  unfold fatAddr at this
  omega

lemma fatAddr_le (g : Geometry fd) (hc : c < fd.countOfClusters + 2) :
    2 * fd.bytesPerSector ≤ fatAddr fd c ∧ fatAddr fd c + 4 ≤ fd.firstDataSector * fd.bytesPerSector := by
  have := Nat.mul_le_mul_right fd.bytesPerSector g.reserved
  have := g.tables
  unfold fatAddr at *
  omega

lemma dataRegion_cluster (fd : FatData) (c y : Nat) : DataRegion fd (sectorOf fd c * fd.bytesPerSector + y) :=
  (Nat.mul_le_mul_right _ (firstDataSector_le_sectorOf fd c)).trans (Nat.le_add_right ..)

lemma info_of_data (g : Geometry fd) (hinfo : sizeofFsInfo ≤ fd.bytesPerSector)
    (h : Within (DataRegion fd) disk disk') (ha : i + 4 ≤ sizeofFsInfo) :
    readLE disk' (fd.bytesPerSector + i) 4 = readLE disk (fd.bytesPerSector + i) 4 := by
  refine h.readLE fun x hx hd => ?_
  have := g.info_le
  unfold Span DataRegion at *
  omega

lemma info_setEntry (g : Geometry fd) (hinfo : sizeofFsInfo ≤ fd.bytesPerSector) {x : Nat}
    (ha : i + 4 ≤ sizeofFsInfo) :
    readLE (setEntry fd disk c x) (fd.bytesPerSector + i) 4 = readLE disk (fd.bytesPerSector + i) 4 := by
  refine setEntry_within.readLE fun y hy hd => ?_
  have := Nat.mul_le_mul_right fd.bytesPerSector g.reserved
  unfold Span fatAddr at *
  omega

lemma info_copyTo (hinfo : sizeofFsInfo ≤ fd.bytesPerSector) (info : Mem) (ha : i + 4 ≤ sizeofFsInfo) :
    readLE (copyTo disk fd.bytesPerSector fd.bytesPerSector info) (fd.bytesPerSector + i) 4 =
      readLE info i 4 := by
  rw [← readLE_shift]
  refine readLE_congr fun x hx => ?_
  unfold Span at hx
  rw [copyTo, if_pos (by omega), Nat.add_sub_cancel_left]

/-- Where the search for a free entry starts: the first two entries of cluster 2 are left out. -/
def slotStart (fd : FatData) (l : Nat) : Nat := if sectorOf fd l = fd.firstDataSector then 2 else 0

/-- The volume after an entry has been created in cluster `l`, with the cluster that the hint names. -/
def created (fd : FatData) (now : DateTime) (disk : Mem) (l index : Nat) (name : List UInt8)
    (attr parent : Nat) : Mem :=
  let h := nxtFree fd disk
  let info := setFsiNxtFree
    (setFsiFreeCount (fun i => disk (1 * fd.bytesPerSector + i)) (wsub 32 (freeCount fd disk) 1))
    (wadd 32 h 1)
  let disk1 := copyTo disk fd.bytesPerSector fd.bytesPerSector info
  let disk2 := copyTo disk1 (sectorOf fd l * fd.bytesPerSector) (bytesPerCluster fd)
    (putDirEntry now (clusterBytes fd disk l) (sizeofDirEntry * index) name h attr)
  let disk3 := copyTo disk2 (sectorOf fd h * fd.bytesPerSector) (bytesPerCluster fd)
    (newCluster now attr h parent)
  setEntry fd disk3 h eocMark

/-- What there is to know of a successful call: the last cluster `l` of the parent directory, and the
    first free entry of it. -/
structure CreatedIn (fd : FatData) (now : DateTime) (disk : Mem) (name : List UInt8)
    (attr p l index : Nat) (disk' : Mem) : Prop where
  parent : Directory fd disk p
  parentData : IsData fd p
  directory : Directory fd disk l
  data : IsData fd l
  reached : ∃ n, follow (successor fd disk) n p = some l
  last : successor fd disk l = none
  slot : freeDirEntry (clusterBytes fd disk l) (entriesPerCluster fd - slotStart fd l) (slotStart fd l) =
    some index
  count : freeCount fd disk ≠ 0
  hint : IsData fd (nxtFree fd disk)
  disk_eq : disk' = created fd now disk l index name attr
    (if fd.firstDataSector = sectorOf fd p then 0 else p)

lemma lastClusterInChain_directory (g : Geometry fd) (hsound : SoundDirectories fd v.disk)
    (hc : Directory fd v.disk c) (hdata : IsData fd c) :
    Runs (fun _ => False) (lastClusterInChain fd fuel c) v fun r v' => v'.disk = v.disk ∧
      ∀ l, r = .ok l → Directory fd v.disk l ∧ IsData fd l ∧ successor fd v.disk l = none ∧
        ∃ n, follow (successor fd v.disk) n c = some l := by
  induction fuel generalizing v c with
  | zero => exact .fault id
  | succ fuel ih =>
    have hne := (hsound c hc hdata).1
    rw [lastClusterInChain]
    refine (nextClusterInChain_runs g).seq ?_ fun st v' h => ⟨eq_of_repaired hne h.2.1, by simp⟩
    rintro e v1 ⟨-, hv1, he⟩
    have hv1 := eq_of_repaired hne hv1
    cases he e rfl
    refine .ite (fun hend => .pure ⟨hv1, fun l hl => ?_⟩) fun hend => ?_
    · cases hl
      exact ⟨hc, hdata, by rw [successor, if_pos hend], 0, rfl⟩
    · have hnext : successor fd v.disk c = some (nextOf (tableEntry fd v.disk c)) := by
        rw [successor, if_neg hend]
      have hstep := ih (v := v1) (by rwa [hv1]) (by rw [hv1]; exact hc.next hdata hnext)
        ((hsound c hc hdata).2 _ hnext)
      refine hstep.mono ?_
      rintro r v2 ⟨hv2, hr⟩
      refine ⟨hv2.trans hv1, fun l hl => ?_⟩
      obtain ⟨hdir, hld, hlast, n, hn⟩ := hr l hl
      rw [hv1] at hdir hlast hn
      exact ⟨hdir, hld, hlast, n + 1, by rw [follow_succ hnext, hn]⟩

lemma mod_bytesPerSector (g : Geometry fd) (c : Nat) :
    c * sizeofFatEntry % fd.bytesPerSector = sizeofFatEntry * (c % fatEntriesPerSector fd) := by
  rw [← g.clustered.four_dvd, sizeofFatEntry, Nat.mul_comm c, Nat.mul_mod_mul_left]

def CreatedOrFailed (fd : FatData) (now : DateTime) (disk : Mem) (name : List UInt8) (attr p : Nat)
    (r : Except Status Unit) (v' : Volume) : Prop :=
  r = .ok () ∧ (∃ l index, CreatedIn fd now disk name attr p l index v'.disk) ∨
    (∃ st, r = .error st) ∧ v'.disk = disk

lemma createIn_runs (g : Geometry fd) (hr : Reliable fd) (hsound : SoundDirectories fd v.disk)
    (hp : Directory fd v.disk p) (hpd : IsData fd p) (hhint : IsData fd (nxtFree fd v.disk)) :
    Runs (fun _ => False) (createIn fd fuel now (sectorOf fd p) name attr) v
      (CreatedOrFailed fd now v.disk name attr p) := by
  rw [createIn, clusterOfSector_sectorOf g hpd, ofExcept_ok_bind]
  refine (lastClusterInChain_directory g hsound hp hpd).seq ?_ fun st v' h => .inr ⟨⟨st, rfl⟩, h.1⟩
  rintro l ⟨disk1, reads1⟩ ⟨rfl, hl⟩
  obtain ⟨hld, hldata, hlast, hreach⟩ := hl l rfl
  rw [firstSectorOfCluster_ok g hldata, ofExcept_ok_bind]
  refine .bind_of_ok (ioReadDevice_reliable hr ..) ?_
  dsimp only
  split
  · exact .fail (.inr ⟨⟨_, rfl⟩, rfl⟩)
  · next index hslot =>
    refine .bind_of_ok (ioReadDevice_reliable hr ..) ?_
    dsimp only
    rw [fsiFreeCount_sector, fsiNxtFree_sector]
    refine .ite (fun _ => .fail (.inr ⟨⟨_, rfl⟩, rfl⟩)) fun hcount => ?_
    refine .bind_of_ok (ioWriteDevice_reliable hr ..) (.bind_of_ok (ioWriteDevice_reliable hr ..) ?_)
    rw [firstSectorOfCluster_ok g hhint, ofExcept_ok_bind]
    refine .bind_of_ok (ioWriteDevice_reliable hr ..) (.bind_of_ok (ioReadDevice_reliable hr ..) ?_)
    refine .of_eq (ioWriteDevice_reliable hr ..) (.inl ⟨rfl, l, index, ?_⟩)
    refine ⟨hp, hpd, hld, hldata, hreach, hlast, hslot, Ne.symm hcount, hhint, ?_⟩
    rw [mod_bytesPerSector g]
    exact (copyTo_setFatEntryAt g _ _ eocMark).trans (by rw [created, Nat.one_mul]; rfl)

lemma fatCreateDirectoryEntry_runs (m : Mounted fd) (hr : Reliable fd)
    (hsound : SoundDirectories fd v.disk) (hhint : IsData fd (nxtFree fd v.disk)) :
    Runs (fun _ => False) (fatCreateDirectoryEntry fd past fuel now name attr) v fun r v' =>
      ∃ p, CreatedOrFailed fd now v.disk (name.drop (clStrrchr name fatDelimiter + 1)) attr p r v' := by
  rw [fatCreateDirectoryEntry]
  refine .ite (fun _ => .fail ⟨0, .inr ⟨⟨_, rfl⟩, rfl⟩⟩) fun _ => .ite (fun _ => .fault id) fun _ => ?_
  refine (fatSearch_parent m hsound).seq ?_ fun st v' h => ⟨0, .inr ⟨⟨st, rfl⟩, h.1⟩⟩
  rintro parent ⟨disk1, reads1⟩ ⟨rfl, hparent⟩
  obtain ⟨p, hp, hpd, hsec⟩ := hparent parent rfl
  refine Runs.seq (Q := fun _ v' => v'.disk = v.disk)
    (.attempt ((fatSearch_directory (v := ⟨v.disk, reads1⟩) m hsound).mono fun _ _ h => h.1)) ?_
    fun st v' h => ⟨0, .inr ⟨⟨st, rfl⟩, h⟩⟩
  rintro r ⟨disk2, reads2⟩ rfl
  have hin : Runs (fun _ => False) (createIn fd fuel now parent.sector
      (name.drop (clStrrchr name fatDelimiter + 1)) attr) ⟨v.disk, reads2⟩
      (CreatedOrFailed fd now v.disk (name.drop (clStrrchr name fatDelimiter + 1)) attr p) := by
    rw [hsec]
    exact createIn_runs m.toGeometry hr hsound hp hpd hhint
  split
  · exact .fail ⟨0, .inr ⟨⟨_, rfl⟩, rfl⟩⟩
  · exact .fail ⟨0, .inr ⟨⟨_, rfl⟩, rfl⟩⟩
  · exact hin.mono fun r v' h => ⟨p, h⟩

section Created

variable {index parent : Nat}

lemma setEntry_of_data (g : Geometry fd) (hc : IsData fd c) {x y : Nat} (hy : DataRegion fd y) :
    setEntry fd disk c x y = disk y := by
  refine setEntry_within y fun hin => ?_
  have := fatAddr_le g hc.2
  unfold Span DataRegion at *
  omega

/-- The clusters are in the data region. -/
lemma cluster_within (h : Within (Span (sectorOf fd c * fd.bytesPerSector) (bytesPerCluster fd)) disk disk') :
    Within (DataRegion fd) disk disk' :=
  h.mono fun x hx => by
    obtain ⟨y, rfl⟩ := Nat.exists_eq_add_of_le hx.1
    exact dataRegion_cluster fd c y

lemma tableEntry_created (g : Geometry fd) (hc : c < fd.countOfClusters + 2) :
    tableEntry fd (created fd now disk l index name attr parent) c =
      if c = nxtFree fd disk then eocMark else tableEntry fd disk c := by
  rw [created, tableEntry_setEntry (by decide), tableEntry_of_data g (cluster_within copyTo_within) hc,
    tableEntry_of_data g (cluster_within copyTo_within) hc, tableEntry_of_info g copyTo_within]

variable (g : Geometry fd) (hinfo : sizeofFsInfo ≤ fd.bytesPerSector)
include g hinfo

lemma info_created (hi : i + 4 ≤ sizeofFsInfo) :
    readLE (created fd now disk l index name attr parent) (fd.bytesPerSector + i) 4 =
      readLE (setFsiNxtFree (setFsiFreeCount (fun i => disk (1 * fd.bytesPerSector + i))
        (wsub 32 (freeCount fd disk) 1)) (wadd 32 (nxtFree fd disk) 1)) i 4 := by
  rw [created, info_setEntry g hinfo hi, info_of_data g hinfo (cluster_within copyTo_within) hi,
    info_of_data g hinfo (cluster_within copyTo_within) hi, info_copyTo hinfo _ hi]

lemma freeCount_created :
    freeCount fd (created fd now disk l index name attr parent) = wsub 32 (freeCount fd disk) 1 := by
  rw [freeCount, info_created g hinfo (by decide)]
  exact (fsiFreeCount_setFsiNxtFree ..).trans (fsiFreeCount_set _ (wsub_lt ..))

end Created

end HAL9000.Fat32
