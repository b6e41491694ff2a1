import HAL9000.Disk.Chain

/-!
# Partitions of a disk: what is found

`expected` is the list of all partitions of a disk with a valid master boot record and a sound chain
of extended boot records. The scan finds it on disks that are `Orderly`: the master boot record has no
unused entry before the extended one and nothing behind it, and each extended boot record starts with
its used entries, an extended one last.
-/

namespace HAL9000.Disk
open Lib List

def Entry.plain (e : Entry) : Bool := !e.unused && !e.extended

def partitionsOf (offset : Nat) (es : List Entry) : List PartitionInformation :=
  (es.filter Entry.plain).map fun e => e.partition (e.firstSectorLba + offset)

/-- The extended boot records from a sector on, each with its entries. Every one of them is signed and
    leads to at most one other. -/
inductive EbrChain (disk : Device) (first : Nat) : Nat → List (Nat × List Entry) → Prop where
  | last {offset mbr} : disk offset = .ok mbr → bootSignature mbr = mbrBootSignature →
    (entries mbr mbrExtPartitionNoOfEntries).filter Entry.extended = [] →
    EbrChain disk first offset [(offset, entries mbr mbrExtPartitionNoOfEntries)]
  | link {offset mbr e rs} : disk offset = .ok mbr → bootSignature mbr = mbrBootSignature →
    (entries mbr mbrExtPartitionNoOfEntries).filter Entry.extended = [e] →
    EbrChain disk first (e.firstSectorLba + first) rs →
    EbrChain disk first offset ((offset, entries mbr mbrExtPartitionNoOfEntries) :: rs)

/-- A disk with a valid master boot record, at most one extended entry, and the extended boot records
    `rs`. -/
structure Valid (disk : Device) (mbr : Mem) (rs : List (Nat × List Entry)) : Prop where
  read : disk 0 = .ok mbr
  signed : bootSignature mbr = mbrBootSignature
  status : ∀ e ∈ entries mbr mbrNoOfPartitions, e.valid = true
  chain : ((entries mbr mbrNoOfPartitions).filter Entry.extended = [] ∧ rs = []) ∨
    ∃ e, (entries mbr mbrNoOfPartitions).filter Entry.extended = [e] ∧
      EbrChain disk e.firstSectorLba e.firstSectorLba rs

def expected (mbr : Mem) (rs : List (Nat × List Entry)) : List PartitionInformation :=
  partitionsOf 0 (entries mbr mbrNoOfPartitions) ++ rs.flatMap fun r => partitionsOf r.1 r.2

/-- The used entries of a record are valid and come first, an extended one last. In the master boot
    record unused entries come behind an extended one only. -/
def tidy (extendedPartition : Bool) : List Entry → Bool
  | [] => true
  | e :: es =>
    if e.unused then extendedPartition && es.all Entry.unused
    else e.valid && if e.extended then es.all Entry.unused else tidy extendedPartition es

structure Orderly (mbr : Mem) (rs : List (Nat × List Entry)) : Prop where
  mbr_tidy : tidy false (entries mbr mbrNoOfPartitions) = true
  ebr_tidy : ∀ r ∈ rs, tidy true r.2 = true
  start : ∀ x ∈ entries mbr mbrNoOfPartitions, x.extended = true → x.firstSectorLba ≠ 0
  /-- Sector numbers fit into a `DWORD`. -/
  fits : ∀ r ∈ rs, ∀ e ∈ r.2, (e.plain = true → e.firstSectorLba + r.1 < 2 ^ 32) ∧
    ∀ x ∈ entries mbr mbrNoOfPartitions, e.extended = true → x.extended = true →
      e.firstSectorLba + x.firstSectorLba < 2 ^ 32
  /-- So does the size of the structure for the partitions (C `structureSize`). -/
  few : 4 + 24 * (expected mbr rs).length < 2 ^ 32

variable {disk : Device} {fill extendedPartition : Bool} {offset first count fuel fuel' : Nat}
  {found : List PartitionInformation} {es : List Entry} {e : Entry} {mbr : Mem} {rs : List (Nat × List Entry)}
  {recurse : Nat → Nat → Nat → List PartitionInformation → Exec Scan} {r : Scan}

def noted (fill : Bool) (found more : List PartitionInformation) : List PartitionInformation :=
  if fill then found ++ more else found

@[simp] lemma noted_nil : noted fill found [] = found := by
  cases fill with
  | false => rfl
  | true => exact append_nil found

lemma noted_append {more more' : List PartitionInformation} :
    noted fill (noted fill found more) more' = noted fill found (more ++ more') := by
  cases fill with
  | false => rfl
  | true => exact append_assoc ..

lemma not_extended_of_unused {i : Nat} (h : (entry mbr i).unused = true) : (entry mbr i).extended = false := by
  have hz : mbr (entryOffset i + 4) = 0 := by
    have h16 : clMemscan (fun k => mbr (entryOffset i + k)) 16 0 = 16 := (beq_iff_eq.mp h).symm
    exact clMemscan_eq_size h16 4 (by omega)
  simp [entry, Entry.extended, hz, mbrPartitionExtendedLba, mbrPartitionExtendedChs]

lemma filter_of_unused (hes : ∀ e ∈ es, e.unused = true → e.extended = false) (h : es.all Entry.unused = true) :
    es.filter Entry.plain = [] ∧ es.filter Entry.extended = [] := by
  rw [all_eq_true] at h
  simp only [filter_eq_nil_iff]
  refine ⟨fun e he => ?_, fun e he => ?_⟩
  · simp [Entry.plain, h e he]
  · simp [hes e he (h e he)]

lemma scanEntries_tidy (ht : tidy extendedPartition es = true) (hc : count < 2 ^ 32)
    (hes : ∀ e ∈ es, e.unused = true → e.extended = false)
    (hfit : ∀ e ∈ es, e.plain = true → e.firstSectorLba + offset < 2 ^ 32) :
    scanEntries recurse offset extendedPartition first fill es count found =
      match es.filter Entry.extended with
      | [] => .ok ⟨.success, (count + (partitionsOf offset es).length) % 2 ^ 32,
          noted fill found (partitionsOf offset es)⟩
      | e :: _ => recurse (wadd 32 e.firstSectorLba first)
          (if extendedPartition then first else e.firstSectorLba)
          ((count + (partitionsOf offset es).length) % 2 ^ 32)
          (noted fill found (partitionsOf offset es)) := by
  induction es generalizing count found with
  | nil =>
    rw [scanEntries, partitionsOf, filter_nil, filter_nil, map_nil, noted_nil,
      length_nil, Nat.add_zero, Nat.mod_eq_of_lt hc]
    rfl
  | cons e es ih =>
    have hes' := fun f hf => hes f (mem_cons_of_mem e hf)
    rw [tidy] at ht
    rw [scanEntries]
    by_cases hu : e.unused = true
    · rw [if_pos hu, Bool.and_eq_true] at ht
      obtain ⟨hp, hx⟩ := filter_of_unused hes' ht.2
      rw [if_pos (by simp [ht.1, hu])]
      have hparts : partitionsOf offset (e :: es) = [] := by
        simp [partitionsOf, Entry.plain, hu, hp]
      have hext : (e :: es).filter Entry.extended = [] := by
        simp [hes e mem_cons_self hu, hx]
      rw [hparts, hext, noted_nil, length_nil, Nat.add_zero, Nat.mod_eq_of_lt hc]
      rfl
    · rw [if_neg hu, Bool.and_eq_true] at ht
      have hu' : e.unused = false := by simpa using hu
      rw [if_neg (by simp [hu']), if_neg (by simp [ht.1])]
      by_cases hx : e.extended = true
      · rw [if_pos hx] at ht
        obtain ⟨hp, hx'⟩ := filter_of_unused hes' ht.2
        have hparts : partitionsOf offset (e :: es) = [] := by
          simp [partitionsOf, Entry.plain, hx, hp]
        rw [if_pos hx, filter_cons_of_pos hx, hparts, noted_nil, length_nil, Nat.add_zero,
          Nat.mod_eq_of_lt hc]
      · rw [if_neg hx] at ht
        have hplain : e.plain = true := by simp [Entry.plain, hu', hx]
        have hparts : partitionsOf offset (e :: es) =
            e.partition (e.firstSectorLba + offset) :: partitionsOf offset es := by
          simp [partitionsOf, hplain]
        have hlba : wadd 32 e.firstSectorLba offset = e.firstSectorLba + offset :=
          wadd_eq (hfit e mem_cons_self hplain)
        have hnoted : (if fill = true then found ++ [e.partition (wadd 32 e.firstSectorLba offset)]
            else found) = noted fill found [e.partition (e.firstSectorLba + offset)] := by
          rw [hlba]
          rfl
        have hcount : (wadd 32 count 1 + (partitionsOf offset es).length) % 2 ^ 32 =
            (count + (partitionsOf offset (e :: es)).length) % 2 ^ 32 := by
          rw [hparts, length_cons, wadd]
          omega
        rw [if_neg hx, filter_cons_of_neg hx, hnoted,
          ih ht.2 (wadd_lt ..) hes' fun f hf => hfit f (mem_cons_of_mem e hf), hcount,
          noted_append, hparts]
        rfl

lemma entries_unused {n : Nat} : ∀ e ∈ entries mbr n, e.unused = true → e.extended = false := by
  intro e he hu
  obtain ⟨i, _, rfl⟩ := List.mem_map.mp he
  exact not_extended_of_unused hu

lemma retrieve_chain (hc : EbrChain disk first offset rs) (hfirst : first ≠ 0) (ht : ∀ r ∈ rs, tidy true r.2 = true)
    (hfit : ∀ r ∈ rs, ∀ e ∈ r.2, (e.plain = true → e.firstSectorLba + r.1 < 2 ^ 32) ∧
      (e.extended = true → e.firstSectorLba + first < 2 ^ 32))
    (hcount : count < 2 ^ 32) (hfuel : rs.length ≤ fuel) :
    diskRetrievePartitionsFromDiskStartingAtOffset disk fill fuel offset true first count found =
      .ok ⟨.success, (count + (rs.flatMap fun r => partitionsOf r.1 r.2).length) % 2 ^ 32,
        noted fill found (rs.flatMap fun r => partitionsOf r.1 r.2)⟩ := by
  have hf : (true ^^ decide (0 = first)) = true := by simpa using Ne.symm hfirst
  induction hc generalizing fuel count found with
  | @last offset mbr hd hs hx =>
    obtain ⟨fuel, rfl⟩ : ∃ k, fuel = k + 1 := Nat.exists_eq_add_of_le' hfuel
    rw [diskRetrievePartitionsFromDiskStartingAtOffset, ensure_pos hf, bind_okay, hd]
    simp only [hs, ne_eq, not_true_eq_false, if_false, if_true]
    rw [scanEntries_tidy (ht _ mem_cons_self) hcount entries_unused
      fun e he => (hfit _ mem_cons_self e he).1, hx]
    simp
  | @link offset mbr e rs hd hs hx _ ih =>
    obtain ⟨fuel, rfl⟩ := Nat.exists_eq_add_of_le' (Nat.le_trans (Nat.le_add_left 1 rs.length) hfuel)
    have he : e ∈ (entries mbr mbrExtPartitionNoOfEntries).filter Entry.extended := by
      rw [hx]
      exact mem_singleton_self e
    obtain ⟨he, hex⟩ := List.mem_filter.mp he
    have hlba := (hfit _ mem_cons_self e he).2 hex
    rw [diskRetrievePartitionsFromDiskStartingAtOffset, ensure_pos hf, bind_okay, hd]
    simp only [hs, ne_eq, not_true_eq_false, if_false, if_true]
    rw [scanEntries_tidy (ht _ mem_cons_self) hcount entries_unused
      fun e he => (hfit _ mem_cons_self e he).1, hx]
    simp only [if_true]
    rw [wadd_eq hlba, ih (fun r hr => ht r (mem_cons_of_mem _ hr))
      (fun r hr => hfit r (mem_cons_of_mem _ hr)) (Nat.mod_lt _ (by decide))
      (by simp only [length_cons] at hfuel; omega), noted_append, flatMap_cons,
      length_append]
    congr 2
    rw [Nat.mod_add_mod, Nat.add_assoc]

lemma retrieve_valid (hv : Valid disk mbr rs) (ho : Orderly mbr rs) (hfuel : rs.length + 1 ≤ fuel) :
    diskRetrievePartitionsFromDiskStartingAtOffset disk fill fuel 0 false 0 0 [] =
      .ok ⟨.success, (expected mbr rs).length, noted fill [] (expected mbr rs)⟩ := by
  obtain ⟨fuel, rfl⟩ := Nat.exists_eq_add_of_le' (Nat.le_trans (Nat.le_add_left 1 _) hfuel)
  have hlt : ∀ e ∈ entries mbr mbrNoOfPartitions, e.plain = true → e.firstSectorLba + 0 < 2 ^ 32 := by
    intro e he _
    obtain ⟨i, _, rfl⟩ := List.mem_map.mp he
    exact readLE_lt mbr _ 4
  have hfew : (expected mbr rs).length < 2 ^ 32 := by
    have := ho.few
    omega
  rw [diskRetrievePartitionsFromDiskStartingAtOffset, ensure_pos (by decide), bind_okay, hv.read]
  simp only [hv.signed, ne_eq, not_true_eq_false, if_false]
  rw [if_neg (by decide), scanEntries_tidy ho.mbr_tidy (by decide) entries_unused hlt]
  rw [expected, length_append] at hfew
  rw [expected, length_append]
  rcases hv.chain with ⟨hx, rfl⟩ | ⟨e, hx, hchain⟩
  · rw [hx]
    simp only [flatMap_nil, append_nil, length_nil, Nat.zero_add, Nat.add_zero] at hfew ⊢
    rw [Nat.mod_eq_of_lt hfew]
  · have he : e ∈ (entries mbr mbrNoOfPartitions).filter Entry.extended := by
      rw [hx]
      exact mem_singleton_self e
    obtain ⟨he, hex⟩ := List.mem_filter.mp he
    have hlba : e.firstSectorLba + 0 < 2 ^ 32 := by
      obtain ⟨i, _, rfl⟩ := List.mem_map.mp he
      exact readLE_lt mbr _ 4
    rw [hx]
    simp only [Bool.false_eq_true, if_false]
    rw [wadd_eq hlba, Nat.add_zero, retrieve_chain hchain (ho.start e he hex) ho.ebr_tidy
      (fun r hr f hf => ⟨(ho.fits r hr f hf).1, fun hfx => (ho.fits r hr f hf).2 e he hfx hex⟩)
      (Nat.mod_lt _ (by decide)) (by omega), noted_append]
    congr 2
    omega

/-- On an orderly disk exactly the primary and the logical partitions are found. -/
theorem partitions_found (hv : Valid disk mbr rs) (ho : Orderly mbr rs) :
    ∃ n, ∀ fuel ≥ n, diskRetrievePartitionsFromDisk fuel disk =
      .ok (.ok ⟨(expected mbr rs).length, expected mbr rs⟩) := by
  refine ⟨rs.length + 1, fun fuel hfuel => ?_⟩
  rw [diskRetrievePartitionsFromDisk, retrieve_valid hv ho hfuel, bind_okay]
  simp only [ne_eq, not_true_eq_false, if_false]
  rw [retrieve_valid hv ho hfuel]
  rfl

lemma scanEntries_mono {recurse' : Nat → Nat → Nat → List PartitionInformation → Exec Scan}
    (h : ∀ offset first count found r, recurse offset first count found = .ok r →
      recurse' offset first count found = .ok r)
    (hr : scanEntries recurse offset extendedPartition first fill es count found = .ok r) :
    scanEntries recurse' offset extendedPartition first fill es count found = .ok r := by
  induction es generalizing count found with
  | nil => exact hr
  | cons e es ih =>
    rw [scanEntries] at hr ⊢
    split at hr
    · next hu => rwa [if_pos hu]
    next hu =>
    rw [if_neg hu]
    split at hr
    · next hv =>
      rw [if_pos hv]
      exact ih hr
    next hv =>
    rw [if_neg hv]
    split at hr
    · next hx =>
      rw [if_pos hx]
      exact h _ _ _ _ _ hr
    · next hx =>
      rw [if_neg hx]
      exact ih hr

lemma retrieve_mono (hle : fuel ≤ fuel')
    (hr : diskRetrievePartitionsFromDiskStartingAtOffset disk fill fuel offset extendedPartition first
      count found = .ok r) :
    diskRetrievePartitionsFromDiskStartingAtOffset disk fill fuel' offset extendedPartition first
      count found = .ok r := by
  induction fuel generalizing fuel' offset extendedPartition first count found r with
  | zero => cases hr
  | succ fuel ih =>
    obtain ⟨fuel', rfl⟩ : ∃ k, fuel' = k + 1 :=
      Nat.exists_eq_add_of_le' (Nat.le_trans (Nat.le_add_left 1 fuel) hle)
    rw [diskRetrievePartitionsFromDiskStartingAtOffset] at hr ⊢
    obtain ⟨u, hu, hr⟩ := bind_ok.mp hr
    rw [hu, bind_okay]
    cases hd : disk offset with
    | error st =>
      rw [hd] at hr
      exact hr
    | ok mbr =>
      simp only [hd] at hr ⊢
      split at hr
      · next hs => rwa [if_pos hs]
      · next hs =>
        rw [if_neg hs]
        exact scanEntries_mono (fun _ _ _ _ _ => ih (by omega)) hr

lemma diskRetrieve_mono {layout : DiskLayout} (hle : fuel ≤ fuel')
    (hr : diskRetrievePartitionsFromDisk fuel disk = .ok (.ok layout)) :
    diskRetrievePartitionsFromDisk fuel' disk = .ok (.ok layout) := by
  rw [diskRetrievePartitionsFromDisk] at hr ⊢
  obtain ⟨s, hs, hr⟩ := bind_ok.mp hr
  rw [retrieve_mono hle hs, bind_okay]
  split at hr
  · cases hr
  next hst =>
  rw [if_neg hst]
  obtain ⟨s', hs', hr⟩ := bind_ok.mp hr
  rw [retrieve_mono hle hs', bind_okay]
  exact hr

def recordAt (records : List (Nat × Mem)) (offset : Nat) : Mem := (records.lookup offset).getD emptyRecord

def ebrsAt (records : List (Nat × Mem)) (offsets : List Nat) : List (Nat × List Entry) :=
  offsets.map fun i => (i, entries (recordAt records i) mbrExtPartitionNoOfEntries)

def fullDisk : List (Nat × Mem) :=
  [(0, putEntry (putEntry (putEntry (putEntry emptyRecord 0 0x80 0xB 10 5) 1 0 0xB 20 5) 2 0 7 30 5) 3 0 0xF 40 20),
    (40, putEntry (putEntry emptyRecord 0 0 0xB 1 5) 1 0 5 10 10),
    (50, putEntry emptyRecord 0 0 0xB 1 5)]

lemma valid_fullDisk : Valid (diskOf fullDisk) (recordAt fullDisk 0) (ebrsAt fullDisk [40, 50]) where
  read := rfl
  signed := by decide
  status := by decide
  chain := by
    refine .inr ⟨entry (recordAt fullDisk 0) 3, by decide, ?_⟩
    have h40 : (entry (recordAt fullDisk 0) 3).firstSectorLba = 40 := by decide
    have h50 : (entry (recordAt fullDisk 40) 1).firstSectorLba + 40 = 50 := by decide
    rw [h40]
    refine .link (e := entry (recordAt fullDisk 40) 1) rfl (by decide) (by decide) ?_
    rw [h50]
    exact .last rfl (by decide) (by decide)

/-- All five partitions are found. -/
theorem partitions_found_fullDisk : (∃ n, ∀ fuel ≥ n, diskRetrievePartitionsFromDisk fuel (diskOf fullDisk) =
      .ok (.ok ⟨(expected (recordAt fullDisk 0) (ebrsAt fullDisk [40, 50])).length,
        expected (recordAt fullDisk 0) (ebrsAt fullDisk [40, 50])⟩)) ∧
    (expected (recordAt fullDisk 0) (ebrsAt fullDisk [40, 50])).map (·.offsetInDisk) =
      [10, 20, 30, 41, 51] :=
  ⟨partitions_found valid_fullDisk ⟨by decide, by decide, by decide,
    by decide, by decide⟩, by decide⟩

def mixedDisk : List (Nat × Mem) := [(0, putEntry (putEntry emptyRecord 1 0 0xF 40 20) 2 0 0xB 10 5),
    (40, putEntry emptyRecord 0 0 0xB 1 5)]

lemma valid_mixedDisk : Valid (diskOf mixedDisk) (recordAt mixedDisk 0) (ebrsAt mixedDisk [40]) where
  read := rfl
  signed := by decide
  status := by decide
  chain := by
    refine .inr ⟨entry (recordAt mixedDisk 0) 1, by decide, ?_⟩
    have h40 : (entry (recordAt mixedDisk 0) 1).firstSectorLba = 40 := by decide
    rw [h40]
    exact .last rfl (by decide) (by decide)

/-- The unused entry is reported, and the primary partition behind the extended one is not. -/
theorem primary_partition_missed : Valid (diskOf mixedDisk) (recordAt mixedDisk 0) (ebrsAt mixedDisk [40]) ∧
    (expected (recordAt mixedDisk 0) (ebrsAt mixedDisk [40])).map (·.offsetInDisk) = [10, 41] ∧
    ∃ n, ∀ fuel ≥ n, ∃ layout,
      diskRetrievePartitionsFromDisk fuel (diskOf mixedDisk) = .ok (.ok layout) ∧
      layout.partitions.map (·.offsetInDisk) = [0, 41] ∧
      ¬ layout.partitions.Perm (expected (recordAt mixedDisk 0) (ebrsAt mixedDisk [40])) := by
  refine ⟨valid_mixedDisk, by decide, 2, fun fuel hfuel => ?_⟩
  have hrun : returns (diskRetrievePartitionsFromDisk 2 (diskOf mixedDisk)) (fun r =>
      match r with
      | .ok layout => layout.partitions.map (·.offsetInDisk) == [0, 41] &&
          !layout.partitions.isPerm (expected (recordAt mixedDisk 0) (ebrsAt mixedDisk [40]))
      | .error _ => false) = true := by decide
  obtain ⟨r, hr, htest⟩ := returns_iff.mp hrun
  cases r with
  | error st => cases htest
  | ok layout =>
    rw [Bool.and_eq_true, beq_iff_eq] at htest
    refine ⟨layout, diskRetrieve_mono hfuel hr, htest.1, fun hp => ?_⟩
    rw [← isPerm_iff] at hp
    simp [hp] at htest

end HAL9000.Disk
