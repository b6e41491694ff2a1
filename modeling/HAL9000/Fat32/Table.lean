import Mathlib.Data.Nat.Find
import HAL9000.Fat32.Init

/-!
# FAT32: the allocation table

The table is read and written a sector at a time. `tableEntry` is the part of an entry that the chains
are made of, and `setEntry` changes it: what the code does to a sector in memory and then writes back
is a change of one entry on the volume (`copyTo_setFatEntryAt`). In these terms `nextClusterInChain`
follows a chain (`nextClusterInChain_eq`) and `firstFreeCluster` finds the first entry that is 0 in the
part of the table it searches (`firstFreeCluster_some`, `firstFreeCluster_none`).
-/

namespace HAL9000.Fat32
open Lib Prog

def IsData (fd : FatData) (c : Nat) : Prop := 2 ≤ c ∧ c < fd.countOfClusters + 2

instance {fd : FatData} {c : Nat} : Decidable (IsData fd c) := inferInstanceAs (Decidable (_ ∧ _))

def sectorOf (fd : FatData) (c : Nat) : Nat := (c - 2) * fd.sectorsPerCluster + fd.firstDataSector

def fatAddr (fd : FatData) (c : Nat) : Nat := fd.reservedSectors * fd.bytesPerSector + 4 * c

def tableEntry (fd : FatData) (disk : Mem) (c : Nat) : Nat := readLE disk (fatAddr fd c) 4 &&& clusterMask

def setEntry (fd : FatData) (disk : Mem) (c value : Nat) : Mem :=
  writeLE disk (fatAddr fd c) 4 (readLE disk (fatAddr fd c) 4 &&& wnot 32 clusterMask ||| value)

/-- What `FatInitVolume` should make sure of: sectors hold whole entries, cluster numbers are not
    marks, and the information sector, the table and the data come in this order. -/
structure Geometry (fd : FatData) : Prop where
  bytesPerSector_pos : 0 < fd.bytesPerSector
  bytesPerSector_dvd : 32 ∣ fd.bytesPerSector
  entriesPerSector : fd.entriesPerSector = fd.bytesPerSector / 32
  sectorsPerCluster_pos : 0 < fd.sectorsPerCluster
  clusters : fd.countOfClusters + 2 ≤ badCluster
  reserved : 2 ≤ fd.reservedSectors
  tables : fatAddr fd (fd.countOfClusters + 2) ≤ fd.firstDataSector * fd.bytesPerSector
  sectors : fd.firstDataSector + fd.countOfClusters * fd.sectorsPerCluster < 2 ^ 64

/-- What the arithmetic needs: sectors hold whole entries of the table, clusters are not empty, their numbers
    have 28 bits, and those of the sectors 64. -/
structure Clustered (fd : FatData) : Prop where
  bytesPerSector_pos : 0 < fd.bytesPerSector
  bytesPerSector_dvd : 4 ∣ fd.bytesPerSector
  sectorsPerCluster_pos : 0 < fd.sectorsPerCluster
  clusters : fd.countOfClusters < 2 ^ 28
  sectors : fd.firstDataSector + fd.countOfClusters * fd.sectorsPerCluster < 2 ^ 64

def Reliable (fd : FatData) : Prop := ∀ offset length, fd.volumeDevice.readFailure offset length = none ∧
    fd.volumeDevice.writeFailure offset length = none

variable {fd : FatData} {v v' : Volume} {disk : Mem} {c d n x : Nat}

lemma Geometry.clustered (g : Geometry fd) : Clustered fd where
  bytesPerSector_pos := g.bytesPerSector_pos
  bytesPerSector_dvd := Nat.dvd_trans (by decide) g.bytesPerSector_dvd
  sectorsPerCluster_pos := g.sectorsPerCluster_pos
  clusters := by
    have := g.clusters
    unfold badCluster at this
    omega
  sectors := g.sectors

instance : Coe (Geometry fd) (Clustered fd) := ⟨Geometry.clustered⟩

lemma Clustered.wadd_one (g : Clustered fd) : wadd 32 fd.countOfClusters 1 = fd.countOfClusters + 1 :=
  wadd_eq (by have := g.clusters; omega)

lemma Geometry.wadd_two (g : Geometry fd) : wadd 32 fd.countOfClusters 2 = fd.countOfClusters + 2 :=
  wadd_eq (by have := g.clusters; unfold badCluster at this; omega)

lemma firstSectorOfCluster_ok (g : Clustered fd) (hc : IsData fd c) :
    firstSectorOfCluster fd c = .ok (sectorOf fd c) := by
  obtain ⟨h2, hlt⟩ := hc
  rw [firstSectorOfCluster, g.wadd_one, if_neg (by omega)]
  rfl

lemma firstSectorOfCluster_eq_ok (g : Geometry fd) :
    firstSectorOfCluster fd c = .ok x ↔ IsData fd c ∧ x = sectorOf fd c := by
  constructor
  · intro h
    rw [firstSectorOfCluster, g.clustered.wadd_one] at h
    split at h
    · cases h
    · next hin =>
      cases h
      exact ⟨⟨by omega, by omega⟩, rfl⟩
  · rintro ⟨hc, rfl⟩
    exact firstSectorOfCluster_ok g hc

lemma sectorOf_le (hc : IsData fd c) {i : Nat} (hi : i < fd.sectorsPerCluster) :
    sectorOf fd c + i < fd.firstDataSector + fd.countOfClusters * fd.sectorsPerCluster := by
  obtain ⟨h2, hlt⟩ := hc
  have := Nat.mul_le_mul_right fd.sectorsPerCluster (show c - 2 + 1 ≤ fd.countOfClusters by omega)
  rw [Nat.add_mul, Nat.one_mul] at this
  unfold sectorOf
  omega

lemma clusterOfSector_ok (g : Clustered fd) (hc : IsData fd c) {i : Nat} (hi : i < fd.sectorsPerCluster) :
    clusterOfSector fd (sectorOf fd c + i) = .ok c := by
  have hle := sectorOf_le hc hi
  have hsec := g.sectors
  have hclus := g.clusters
  obtain ⟨h2, hlt⟩ := hc
  have hsub : wsub 64 (sectorOf fd c + i) fd.firstDataSector = (c - 2) * fd.sectorsPerCluster + i := by
    rw [wsub_eq (by omega) (by unfold sectorOf; omega)]
    unfold sectorOf
    omega
  have hdiv : ((c - 2) * fd.sectorsPerCluster + i) / fd.sectorsPerCluster = c - 2 := by
    rw [Nat.mul_comm, Nat.mul_add_div g.sectorsPerCluster_pos, Nat.div_eq_of_lt hi, Nat.add_zero]
  have hadd : wadd 64 (c - 2) 2 = c := by
    rw [wadd_eq (by omega)]
    omega
  simp only [clusterOfSector, hsub, hdiv, hadd, g.wadd_one]
  rw [if_neg (by omega)]

lemma clusterOfSector_sectorOf (g : Geometry fd) (hc : IsData fd c) : clusterOfSector fd (sectorOf fd c) = .ok c :=
  clusterOfSector_ok g hc (i := 0) g.sectorsPerCluster_pos

lemma isData_of_clusterOfSector (g : Geometry fd) (h : clusterOfSector fd x = .ok c) : IsData fd c := by
  simp only [clusterOfSector, g.clustered.wadd_one] at h
  split at h
  · cases h
  · next hin =>
    cases h
    exact ⟨by omega, by omega⟩

lemma and_clusterMask (x : Nat) : x &&& clusterMask = x % 2 ^ 28 := Nat.and_two_pow_sub_one_eq_mod x 28

lemma setEntry_within : Within (Span (fatAddr fd c) 4) disk (setEntry fd disk c x) := writeLE_within

lemma tableEntry_congr {disk' : Mem} (h : ∀ x, Span (fatAddr fd c) 4 x → disk' x = disk x) :
    tableEntry fd disk' c = tableEntry fd disk c := by
  rw [tableEntry, tableEntry, readLE_congr h]

lemma tableEntry_setEntry_self (hx : x < 2 ^ 28) : tableEntry fd (setEntry fd disk c x) c = x := by
  have hmask : wnot 32 clusterMask &&& clusterMask = 0 := by decide
  have hlt : readLE disk (fatAddr fd c) 4 &&& wnot 32 clusterMask ||| x < 2 ^ 32 :=
    Nat.or_lt_two_pow (Nat.and_lt_two_pow _ (by decide)) (by omega)
  rw [tableEntry, setEntry, readLE_writeLE _ _ hlt, Nat.and_or_distrib_right, Nat.and_assoc, hmask,
    Nat.and_zero, Nat.zero_or, and_clusterMask, Nat.mod_eq_of_lt hx]

lemma tableEntry_setEntry_of_ne (h : d ≠ c) : tableEntry fd (setEntry fd disk c x) d = tableEntry fd disk d := by
  refine tableEntry_congr fun y hy => setEntry_within y ?_
  unfold Span fatAddr at *
  omega

lemma tableEntry_setEntry (hx : x < 2 ^ 28) :
    tableEntry fd (setEntry fd disk c x) d = if d = c then x else tableEntry fd disk d := by
  split
  · next h =>
    subst h
    exact tableEntry_setEntry_self hx
  · next h => exact tableEntry_setEntry_of_ne h

section

variable (g : Clustered fd)
include g

lemma Clustered.four_dvd : 4 * fatEntriesPerSector fd = fd.bytesPerSector :=
  Nat.mul_div_cancel' g.bytesPerSector_dvd

lemma Clustered.fatEntriesPerSector_pos : 0 < fatEntriesPerSector fd := by
  have := g.four_dvd
  have := g.bytesPerSector_pos
  omega

lemma fatSector_eq (c : Nat) : fatSector fd c = fd.reservedSectors + c / fatEntriesPerSector fd := by
  rw [fatSector, ← g.four_dvd, sizeofFatEntry, Nat.mul_comm c, Nat.mul_div_mul_left _ _ (by decide)]

lemma fatAddr_eq (c : Nat) :
    fatSector fd c * fd.bytesPerSector + sizeofFatEntry * (c % fatEntriesPerSector fd) =
      fatAddr fd c := by
  have h := Nat.div_add_mod c (fatEntriesPerSector fd)
  have hmul : c / fatEntriesPerSector fd * fd.bytesPerSector =
      4 * (fatEntriesPerSector fd * (c / fatEntriesPerSector fd)) := by
    rw [← g.four_dvd, Nat.mul_left_comm, Nat.mul_comm (c / fatEntriesPerSector fd)]
  rw [fatSector_eq g, Nat.add_mul, hmul, sizeofFatEntry, fatAddr]
  omega

lemma entry_in_sector {i : Nat} (hi : i < fatEntriesPerSector fd) :
    sizeofFatEntry * i + 4 ≤ fd.bytesPerSector := by
  have := g.four_dvd
  unfold sizeofFatEntry
  omega

lemma fatEntryAt_sector (disk : Mem) (c : Nat) :
    fatEntryAt (fun i => disk (fatSector fd c * fd.bytesPerSector + i)) (c % fatEntriesPerSector fd) =
      readLE disk (fatAddr fd c) 4 := by
  rw [fatEntryAt, readLE_shift, fatAddr_eq g]

lemma copyTo_setFatEntryAt (disk : Mem) (c x : Nat) :
    copyTo disk (fatSector fd c * fd.bytesPerSector) fd.bytesPerSector
        (setFatEntryAt (fun i => disk (fatSector fd c * fd.bytesPerSector + i)) (c % fatEntriesPerSector fd) x) =
      setEntry fd disk c x := by
  have hi := Nat.mod_lt c g.fatEntriesPerSector_pos
  rw [setFatEntryAt, fatEntryAt_sector g, copyTo_writeLE (entry_in_sector g hi), fatAddr_eq g, setEntry]

end

def nextOf (e : Nat) : Nat := if e = 0 ∨ e = badCluster then eocMark else e

def repaired (fd : FatData) (disk : Mem) (c : Nat) : Mem :=
  if tableEntry fd disk c = 0 then setEntry fd disk c eocMark else disk

lemma ioReadDevice_reliable (hr : Reliable fd) (length offset : Nat) :
    ioReadDevice fd.volumeDevice length offset v =
      .ok (.ok fun i => v.disk (offset + i), { v with reads := v.reads + 1 }) := by
  simp only [ioReadDevice, (hr offset length).1]

lemma ioWriteDevice_reliable (hr : Reliable fd) (buffer : Mem) (length offset : Nat) :
    ioWriteDevice fd.volumeDevice buffer length offset v =
      .ok (.ok (), { v with disk := copyTo v.disk offset length buffer }) := by
  simp only [ioWriteDevice, (hr offset length).2]

lemma nextClusterInChain_eq (g : Clustered fd) (hr : Reliable fd) (c : Nat) : nextClusterInChain fd c v =
      .ok (.ok (nextOf (tableEntry fd v.disk c)), ⟨repaired fd v.disk c, v.reads + 1⟩) := by
  rw [nextClusterInChain, bind_of_ok (ioReadDevice_reliable hr ..), fatEntryAt_sector g,
    ← tableEntry, nextOf, repaired]
  by_cases h0 : tableEntry fd v.disk c = 0
  · rw [if_pos h0, if_pos (.inl h0), if_pos h0, bind_of_ok (ioWriteDevice_reliable hr ..),
      copyTo_setFatEntryAt g]
    rfl
  · rw [if_neg h0, if_neg h0]
    by_cases hb : tableEntry fd v.disk c = badCluster
    · rw [if_pos hb, if_pos (.inr hb)]
      rfl
    · rw [if_neg hb, if_neg (by tauto)]
      rfl

section Free

def IsFree (fd : FatData) (disk : Mem) (c : Nat) : Prop := tableEntry fd disk c = 0

instance : Decidable (IsFree fd disk c) := inferInstanceAs (Decidable (_ = _))

/-- The first free entry from `a` on is `c`. -/
def FirstFree (fd : FatData) (disk : Mem) (a c : Nat) : Prop :=
  a ≤ c ∧ IsFree fd disk c ∧ ∀ d, a ≤ d → d < c → ¬ IsFree fd disk d

variable {m i k e : Nat} {b : Bool}

lemma freeInSector_spec {e : Mem} :
    match freeInSector e m i with
    | some j => i ≤ j ∧ j < i + m ∧ fatEntryAt e j &&& clusterMask = 0 ∧
        ∀ k, i ≤ k → k < j → fatEntryAt e k &&& clusterMask ≠ 0
    | none => ∀ k, i ≤ k → k < i + m → fatEntryAt e k &&& clusterMask ≠ 0 := by
  induction m generalizing i with rw [freeInSector]
  | zero =>
    intro k hk hk'
    omega
  | succ m ih =>
    by_cases h0 : fatEntryAt e i &&& clusterMask = 0
    · rw [if_pos h0]
      exact ⟨Nat.le_refl i, by omega, h0, fun k hk hk' => by omega⟩
    · rw [if_neg h0]
      have := ih (i := i + 1)
      split at this
      · next j hj =>
        obtain ⟨h1, h2, h3, h4⟩ := this
        refine ⟨by omega, by omega, h3, fun k hk hk' => ?_⟩
        rcases Nat.eq_or_lt_of_le hk with rfl | hlt
        · exact h0
        · exact h4 k hlt hk'
      · next hn =>
        intro k hk hk'
        rcases Nat.eq_or_lt_of_le hk with rfl | hlt
        · exact h0
        · exact this k hlt (by omega)

lemma cluster_div (g : Geometry fd) (hi : i < fatEntriesPerSector fd) :
    (k * fatEntriesPerSector fd + i) / fatEntriesPerSector fd = k := by
  rw [Nat.mul_comm, Nat.mul_add_div g.clustered.fatEntriesPerSector_pos, Nat.div_eq_of_lt hi, Nat.add_zero]

lemma cluster_mod (hi : i < fatEntriesPerSector fd) :
    (k * fatEntriesPerSector fd + i) % fatEntriesPerSector fd = i := by
  rw [Nat.mul_comm, Nat.mul_add_mod, Nat.mod_eq_of_lt hi]

lemma fatEntryAt_cluster (g : Geometry fd) (disk : Mem) (hi : i < fatEntriesPerSector fd) :
    fatEntryAt (fun j => disk ((fd.reservedSectors + k) * fd.bytesPerSector + j)) i &&& clusterMask =
      tableEntry fd disk (k * fatEntriesPerSector fd + i) := by
  have h := fatEntryAt_sector g.clustered disk (k * fatEntriesPerSector fd + i)
  rw [fatSector_eq g, cluster_div g hi, cluster_mod hi] at h
  rw [h, tableEntry]

lemma freeInFat_some (g : Geometry fd) (hr : Reliable fd) (hi : i < fatEntriesPerSector fd)
    (hf : FirstFree fd v.disk (k * fatEntriesPerSector fd + i) c) (hc : c < (k + m) * fatEntriesPerSector fd) :
    ∃ r, freeInFat fd e b m (fd.reservedSectors + k) i v =
      if (2 ≤ c ∧ c < e) ∧ unknown ≠ c then
        .ok (.ok c, ⟨if b then setEntry fd v.disk c eocMark else v.disk, r⟩)
      else .error .check := by
  induction m generalizing k i v with
  | zero =>
    have := hf.1
    rw [Nat.add_zero] at hc
    omega
  | succ m ih =>
    obtain ⟨hle, hfree, hmin⟩ := hf
    rw [freeInFat, bind_of_ok (ioReadDevice_reliable hr ..)]
    have hspec := freeInSector_spec
      (e := fun j => v.disk ((fd.reservedSectors + k) * fd.bytesPerSector + j))
      (m := fatEntriesPerSector fd - i) (i := i)
    cases hs : freeInSector (fun j => v.disk ((fd.reservedSectors + k) * fd.bytesPerSector + j))
        (fatEntriesPerSector fd - i) i with
    | none =>
      rw [hs] at hspec
      -- nothing in this sector, so the entry is in one of those behind it
      have hge : (k + 1) * fatEntriesPerSector fd + 0 ≤ c := by
        by_contra hlt
        rw [Nat.add_mul, Nat.one_mul] at hlt
        refine hspec (c - k * fatEntriesPerSector fd) (by omega) (by omega) ?_
        rw [fatEntryAt_cluster g _ (by omega), Nat.add_sub_cancel' (by omega)]
        exact hfree
      have hmin' : ∀ d, (k + 1) * fatEntriesPerSector fd + 0 ≤ d → d < c → ¬ IsFree fd v.disk d := by
        intro d hd
        rw [Nat.add_mul, Nat.one_mul] at hd
        exact hmin d (by omega)
      exact ih (v := ⟨v.disk, v.reads + 1⟩) g.clustered.fatEntriesPerSector_pos ⟨hge, hfree, hmin'⟩
        (by rwa [Nat.add_right_comm, Nat.add_assoc])
    | some j =>
      rw [hs] at hspec
      obtain ⟨h1, h2, h3, h4⟩ := hspec
      have hj : j < fatEntriesPerSector fd := by omega
      have hcj : c = k * fatEntriesPerSector fd + j := by
        rw [fatEntryAt_cluster g _ hj] at h3
        refine Nat.le_antisymm (Nat.not_lt.mp fun hlt => hmin _ (by omega) hlt h3)
          (Nat.not_lt.mp fun hlt => ?_)
        refine h4 (c - k * fatEntriesPerSector fd) (by omega) (by omega) ?_
        rw [fatEntryAt_cluster g _ (by omega), Nat.add_sub_cancel' (by omega)]
        exact hfree
      have hidx : (fd.reservedSectors + k - fd.reservedSectors) * fatEntriesPerSector fd + j = c := by
        rw [Nat.add_sub_cancel_left, hcj]
      have hwrite : Prog.when b (ioWriteDevice fd.volumeDevice (setFatEntryAt
          (fun i => v.disk ((fd.reservedSectors + k) * fd.bytesPerSector + i)) j eocMark)
          fd.bytesPerSector ((fd.reservedSectors + k) * fd.bytesPerSector)) ⟨v.disk, v.reads + 1⟩ =
          .ok (.ok (), ⟨if b then setEntry fd v.disk c eocMark else v.disk, v.reads + 1⟩) := by
        cases b with
        | false => rfl
        | true =>
          have h := copyTo_setFatEntryAt g.clustered v.disk c eocMark
          rw [fatSector_eq g, hcj, cluster_div g hj, cluster_mod hj, ← hcj] at h
          rw [Prog.when, if_pos rfl, ioWriteDevice_reliable hr]
          simp only [h, if_true]
      refine ⟨v.reads + 1, ?_⟩
      dsimp only
      rw [bind_of_ok hwrite, hidx]
      by_cases hin : (2 ≤ c ∧ c < e) ∧ unknown ≠ c
      · rw [if_pos hin, assert_pos hin.1, assert_pos hin.2]
        rfl
      · rw [if_neg hin]
        by_cases hrange : 2 ≤ c ∧ c < e
        · rw [assert_pos hrange, assert_neg fun h => hin ⟨hrange, h⟩]
          rfl
        · rw [assert_neg hrange]
          rfl

lemma freeInFat_none (g : Geometry fd) (hr : Reliable fd) (hi : i < fatEntriesPerSector fd)
    (hf : ∀ c, k * fatEntriesPerSector fd + i ≤ c → c < (k + m) * fatEntriesPerSector fd → ¬ IsFree fd v.disk c) :
    ∃ r, freeInFat fd e b m (fd.reservedSectors + k) i v =
      .ok (.ok 0, ⟨v.disk, r⟩) := by
  induction m generalizing k i v with
  | zero => exact ⟨v.reads, rfl⟩
  | succ m ih =>
    rw [freeInFat, bind_of_ok (ioReadDevice_reliable hr ..)]
    have hspec := freeInSector_spec
      (e := fun j => v.disk ((fd.reservedSectors + k) * fd.bytesPerSector + j))
      (m := fatEntriesPerSector fd - i) (i := i)
    cases hs : freeInSector (fun j => v.disk ((fd.reservedSectors + k) * fd.bytesPerSector + j))
        (fatEntriesPerSector fd - i) i with
    | none =>
      refine ih (v := ⟨v.disk, v.reads + 1⟩) (k := k + 1) g.clustered.fatEntriesPerSector_pos
        fun c hc hc' => hf c ?_ ?_
      · rw [Nat.add_mul, Nat.one_mul] at hc
        omega
      · rwa [Nat.add_right_comm, Nat.add_assoc] at hc'
    | some j =>
      rw [hs] at hspec
      obtain ⟨h1, h2, h3, h4⟩ := hspec
      have hj : j < fatEntriesPerSector fd := by omega
      rw [fatEntryAt_cluster g _ hj] at h3
      refine absurd h3 (hf _ (by omega) ?_)
      rw [← Nat.add_assoc, Nat.add_mul _ 1, Nat.one_mul, Nat.add_mul]
      omega

def sectorsPerFat (fd : FatData) : Nat := (fd.countOfClusters + 2) * sizeofFatEntry / fd.bytesPerSector

/-- The entry is in the part of the table that is searched. The sector is one of the volume, not of the
    table, so this part is too short by the sectors before the table. -/
def Searched (fd : FatData) (c : Nat) : Prop := fatSector fd c < sectorsPerFat fd

instance : Decidable (Searched fd c) := inferInstanceAs (Decidable (_ < _))

section

variable (g : Geometry fd)
include g

variable {a : Nat} {b : Bool}

lemma searched_iff : Searched fd c ↔ fd.reservedSectors + c / fatEntriesPerSector fd <
        (fd.countOfClusters + 2) / fatEntriesPerSector fd := by
  rw [Searched, fatSector_eq g, sectorsPerFat, ← g.clustered.four_dvd, sizeofFatEntry, Nat.mul_comm _ 4,
    Nat.mul_div_mul_left _ _ (by decide)]

lemma Searched.mono (h : Searched fd c) (hd : d ≤ c) : Searched fd d := by
  rw [searched_iff g] at *
  have := Nat.div_le_div_right (c := fatEntriesPerSector fd) hd
  omega

lemma Searched.lt (h : Searched fd c) : c < fd.countOfClusters + 2 := by
  rw [searched_iff g] at h
  by_contra hle
  have := Nat.div_le_div_right (c := fatEntriesPerSector fd) (Nat.le_of_not_lt hle)
  omega

lemma firstFree_or_none (disk : Mem) (a : Nat) : (∃ c, FirstFree fd disk a c ∧ Searched fd c) ∨
      ∀ c, a ≤ c → Searched fd c → ¬ IsFree fd disk c := by
  by_cases h : ∃ c, a ≤ c ∧ IsFree fd disk c ∧ Searched fd c
  · obtain ⟨hle, hfree, hs⟩ := Nat.find_spec h
    refine .inl ⟨Nat.find h, ⟨hle, hfree, fun d hd hlt hd' => ?_⟩, hs⟩
    exact Nat.find_min h hlt ⟨hd, hd', hs.mono g hlt.le⟩
  · exact .inr fun c hle hs hfree => h ⟨c, hle, hfree, hs⟩

lemma Geometry.unknown_ne (h : c < fd.countOfClusters + 2) : unknown ≠ c := by
  have := g.clusters
  unfold badCluster at this
  unfold unknown
  omega

lemma firstFreeCluster_eq (h : a < fd.countOfClusters + 2) : firstFreeCluster fd a b =
      if Searched fd a then
        freeInFat fd (fd.countOfClusters + 2) b (sectorsPerFat fd - fatSector fd a)
          (fd.reservedSectors + a / fatEntriesPerSector fd) (a % fatEntriesPerSector fd)
      else Prog.fail .unsuccessful := by
  rw [firstFreeCluster, g.wadd_two, ← fatSector_eq g]
  simp only [if_neg (Nat.not_le.mpr h), if_neg (g.unknown_ne h)]
  rfl

lemma lt_searched_iff (h : Searched fd a) :
    c < (a / fatEntriesPerSector fd + (sectorsPerFat fd - fatSector fd a)) * fatEntriesPerSector fd ↔
      Searched fd c := by
  have hc := fatSector_eq g.clustered c
  have ha := fatSector_eq g.clustered a
  rw [← Nat.div_lt_iff_lt_mul g.clustered.fatEntriesPerSector_pos]
  unfold Searched at *
  omega

lemma firstFreeCluster_some (hr : Reliable fd) (hf : FirstFree fd v.disk a c) (hs : Searched fd c) :
    ∃ r, firstFreeCluster fd a b v =
      if 2 ≤ c then .ok (.ok c, ⟨if b then setEntry fd v.disk c eocMark else v.disk, r⟩)
      else .error .check := by
  have ha := hs.mono g hf.1
  have hlt := hs.lt g
  rw [firstFreeCluster_eq g (ha.lt g), if_pos ha]
  rw [← Nat.div_add_mod' a (fatEntriesPerSector fd)] at hf
  obtain ⟨r, h⟩ := freeInFat_some g hr (e := fd.countOfClusters + 2) (b := b)
    (Nat.mod_lt _ g.clustered.fatEntriesPerSector_pos) hf ((lt_searched_iff g ha).mpr hs)
  refine ⟨r, ?_⟩
  rw [h]
  by_cases h2 : 2 ≤ c
  · rw [if_pos ⟨⟨h2, hlt⟩, g.unknown_ne hlt⟩, if_pos h2]
  · rw [if_neg fun hc => h2 hc.1.1, if_neg h2]

lemma firstFreeCluster_none (hr : Reliable fd) (hf : ∀ c, a ≤ c → Searched fd c → ¬ IsFree fd v.disk c) :
    ∃ st r, firstFreeCluster fd a b v = .ok (st, ⟨v.disk, r⟩) ∧
      (st = .ok 0 ∨ st = .error .unsuccessful) := by
  by_cases hlt : a < fd.countOfClusters + 2
  · rw [firstFreeCluster_eq g hlt]
    by_cases ha : Searched fd a
    · obtain ⟨r, h⟩ := freeInFat_none g hr (e := fd.countOfClusters + 2) (b := b)
        (Nat.mod_lt a g.clustered.fatEntriesPerSector_pos) fun c hc hc' =>
          hf c (by rwa [Nat.div_add_mod'] at hc) ((lt_searched_iff g ha).mp hc')
      exact ⟨_, r, by rw [if_pos ha, h], .inl rfl⟩
    · exact ⟨_, v.reads, by rw [if_neg ha]; rfl, .inr rfl⟩
  · rw [firstFreeCluster, g.wadd_two]
    exact ⟨_, v.reads, by rw [if_pos (Nat.le_of_not_lt hlt)]; rfl, .inl rfl⟩

end

end Free

def sampleData : FatData where
  volumeDevice := reliableDevice
  countOfClusters := 65536
  rootDirectoryStartSector := 545
  reservedSectors := 32
  firstDataSector := 545
  sectorsPerCluster := 1
  bytesPerSector := 512
  entriesPerSector := 16
  allocationSize := 512

lemma sampleData_geometry : Geometry sampleData := by constructor <;> decide

lemma sampleData_reliable : Reliable sampleData := fun _ _ => ⟨rfl, rfl⟩

lemma tableEntry_ones (fd : FatData) (c : Nat) : tableEntry fd (fun _ => 0xFF) c = eocMark := by
  rw [tableEntry]
  simp only [readLE]
  decide

end HAL9000.Fat32
