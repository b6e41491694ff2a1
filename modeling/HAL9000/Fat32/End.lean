import HAL9000.Fat32.Files

/-!
# FAT32: reading up to the end of a file

`FatReadFile` stops at the end of the chain of a file and returns the number of sectors that it has read. At the
end `NextSectorInClusterChain` returns sector 0. The loop that reads looks at it (`readSectors_eq`), but the loop
that goes to the cluster of the offset does not (`skipClusters_eq`), and then there is an assertion that it is not
0.
-/

namespace HAL9000.Fat32
open Lib Prog

variable {fd : FatData} {v : Volume} {disk buffer : Mem} {cs : List Nat} {c d fuel i k n : Nat}

def sectorAt (fd : FatData) (cs : List Nat) (k : Nat) : Nat := (cs[k]?.map (sectorOf fd)).getD 0

lemma sectorAt_lt (hk : k < cs.length) : sectorAt fd cs k = sectorOf fd (cs.getD k 0) := by
  simp [sectorAt, hk]

lemma sectorAt_length : sectorAt fd cs cs.length = 0 := by
  simp [sectorAt]

lemma Chain.successor_eq (h : Chain fd disk cs) (hk : k < cs.length) :
    successor fd disk (cs.getD k 0) = cs[k + 1]? := by
  by_cases hlast : k + 1 < cs.length
  · rw [h.linked k hlast, List.getD_eq_getElem _ _ hlast, List.getElem?_eq_getElem hlast]
  · rw [List.getElem?_eq_none (by omega)]
    refine h.ends _ ?_
    rw [List.getLast?_eq_getElem?, show cs.length - 1 = k by omega, List.getD_eq_getElem _ _ hk]
    exact List.getElem?_eq_getElem hk

/-- The chains and the data are those of the disk at the start. -/
def SameData (fd : FatData) (disk : Mem) (v : Volume) : Prop :=
  successor fd v.disk = successor fd disk ∧ ∀ d, clusterBytes fd v.disk d = clusterBytes fd disk d

/-- A repair of the table does not change the data. -/
lemma clusterBytes_repaired (g : Geometry fd) (hc : IsData fd c) :
    clusterBytes fd (repaired fd disk c) d = clusterBytes fd disk d := by
  funext y
  rw [repaired]
  split
  · exact setEntry_of_data g hc (dataRegion_cluster fd d y)
  · rfl

/-- A repair of the table changes neither the chains nor the data. -/
lemma SameData.repaired (g : Geometry fd) (h : SameData fd disk v) (hc : IsData fd c) (n : Nat) :
    SameData fd disk ⟨Fat32.repaired fd v.disk c, n⟩ :=
  ⟨successor_repaired.trans h.1, fun d => (clusterBytes_repaired g hc).trans (h.2 d)⟩

lemma SameData.fileSector (h : SameData fd disk v) (cs : List Nat) (i : Nat) :
    (fun x => v.disk (fileSector fd cs i * fd.bytesPerSector + x)) =
      fun x => disk (Fat32.fileSector fd cs i * fd.bytesPerSector + x) := by
  funext x
  rw [Fat32.fileSector, Nat.add_mul, Nat.add_assoc]
  exact congrFun (h.2 _) _

lemma Chain.nextSector_eq (g : Geometry fd) (hr : Reliable fd) (h : Chain fd disk cs) (hsame : SameData fd disk v)
    (hk : k < cs.length) (hi : i < fd.sectorsPerCluster) :
    ∃ v', SameData fd disk v' ∧ nextSectorInClusterChain fd (sectorOf fd (cs.getD k 0) + i) false v =
      .ok (.ok (sectorAt fd cs (k + 1)), v') := by
  have hc := h.isData hk
  have hs := h.successor_eq hk
  rw [← hsame.1] at hs
  refine ⟨_, hsame.repaired g hc (v.reads + 1), ?_⟩
  rw [nextSectorInClusterChain_eq g hr hc hi, hs, sectorAt]
  exact fun d hd => h.data d (List.mem_of_getElem? (hs.symm.trans hd))

lemma skipClusters_eq (fuel : Nat) (g : Geometry fd) (hr : Reliable fd) (h : Chain fd disk cs)
    (hsame : SameData fd disk v) (hk : k ≤ cs.length) (hkn : k ≤ n / fd.sectorsPerCluster)
    (hfuel : n / fd.sectorsPerCluster - k < fuel) :
    ∃ v', SameData fd disk v' ∧ skipClusters fd n false fuel (k * fd.sectorsPerCluster) (sectorAt fd cs k) v =
      .ok (if n / fd.sectorsPerCluster ≤ cs.length then .ok (sectorAt fd cs (n / fd.sectorsPerCluster))
        else .error .deviceClusterInvalid, v') := by
  induction fuel generalizing v k with
  | zero => omega
  | succ fuel ih =>
    have hq := Nat.le_div_iff_mul_le (x := k + 1) (y := n) g.sectorsPerCluster_pos
    rw [skipClusters, ← Nat.succ_mul]
    by_cases hle : (k + 1) * fd.sectorsPerCluster ≤ n
    · have hnext := hq.mpr hle
      rw [if_pos hle, assert_pos ((Nat.le_mul_of_pos_left _ k.succ_pos).trans hle), pure_bind]
      obtain hlt | rfl := Nat.lt_or_eq_of_le hk
      · obtain ⟨v', hsame', hsec⟩ := h.nextSector_eq g hr hsame hlt g.sectorsPerCluster_pos
        rw [Nat.add_zero] at hsec
        rw [sectorAt_lt hlt, bind_of_ok hsec]
        exact ih hsame' hlt hnext (by omega)
      · refine ⟨v, hsame, ?_⟩
        rw [sectorAt_length, nextSectorInClusterChain, clusterOfSector_zero g, if_neg (by omega)]
        rfl
    · have hkn : n / fd.sectorsPerCluster = k := by
        by_contra hne
        exact hle (hq.mp (by omega))
      rw [if_neg hle, hkn, if_pos hk]
      exact ⟨v, hsame, rfl⟩

lemma readSectors_eq (buffer : Mem) (p : Nat) (g : Geometry fd) (hr : Reliable fd) (h : Chain fd disk cs)
    (hsame : SameData fd disk v) (hn : 0 < n) (hi : i < cs.length * fd.sectorsPerCluster) (hfuel : n ≤ fuel) :
    ∃ v' buffer', SameData fd disk v' ∧ readSectors fd fuel (fileSector fd cs i) n
        (min n (fd.sectorsPerCluster - i % fd.sectorsPerCluster)) buffer p v =
      .ok (.ok (n - min n (cs.length * fd.sectorsPerCluster - i), buffer'), v') ∧
      Loaded fd cs i (min n (cs.length * fd.sectorsPerCluster - i)) p disk buffer buffer' := by
  have hq := g.sectorsPerCluster_pos
  induction fuel generalizing v i n p buffer with
  | zero => omega
  | succ fuel ih =>
    have hlt := Nat.mod_lt i hq
    have hk := (Nat.div_lt_iff_lt_mul hq).mpr hi
    obtain ⟨hdiv, hmod⟩ := next_cluster g i
    have hend := Nat.div_add_mod' (i + (fd.sectorsPerCluster - i % fd.sectorsPerCluster)) fd.sectorsPerCluster
    rw [hdiv, hmod] at hend
    have hle := Nat.mul_le_mul_right fd.sectorsPerCluster hk
    rw [Nat.succ_eq_add_one] at hle
    have hfirst := loaded_copyTo g cs disk buffer p (i := i)
      (n := min n (fd.sectorsPerCluster - i % fd.sectorsPerCluster)) (by omega)
    rw [readSectors, bind_of_ok (ioReadDevice_reliable hr ..), hsame.fileSector]
    by_cases hdone : n ≤ fd.sectorsPerCluster - i % fd.sectorsPerCluster
    · rw [Nat.min_eq_left hdone] at hfirst ⊢
      rw [if_pos (Nat.sub_self n).symm, Nat.min_eq_left (by omega), Nat.sub_self]
      exact ⟨⟨v.disk, v.reads + 1⟩, _, hsame, rfl, hfirst⟩
    · rw [Nat.min_eq_right (Nat.le_of_not_le hdone)] at hfirst ⊢
      obtain ⟨v', hsame', hsec⟩ := h.nextSector_eq g hr
        (v := ⟨v.disk, v.reads + 1⟩) (i := i % fd.sectorsPerCluster) hsame hk hlt
      rw [if_neg (by omega), Fat32.fileSector, bind_of_ok hsec]
      by_cases hlast : i / fd.sectorsPerCluster + 1 < cs.length
      · -- there is another cluster
        have hmore := (Nat.mul_lt_mul_right hq).mpr hlast
        rw [sectorAt_lt hlast, if_neg (sectorOf_pos g _).ne, Nat.min_comm]
        obtain ⟨v2, b2, hsame2, hrun, hrest⟩ := ih (n := n - (fd.sectorsPerCluster - i % fd.sectorsPerCluster))
          (i := i + (fd.sectorsPerCluster - i % fd.sectorsPerCluster)) _ _ hsame' (by omega) (by omega) (by omega)
        rw [Fat32.fileSector, hdiv, hmod, Nat.add_zero, Nat.sub_zero] at hrun
        refine ⟨v2, b2, hsame2, hrun.trans ?_, ?_⟩
        · congr 4
          omega
        · have happ := hfirst.append hrest
          convert happ using 1
          omega
      · have hall : i / fd.sectorsPerCluster + 1 = cs.length := by omega
        rw [hall] at hend ⊢
        rw [sectorAt_length, if_pos rfl, Nat.min_eq_right (by omega),
          show cs.length * fd.sectorsPerCluster - i = fd.sectorsPerCluster - i % fd.sectorsPerCluster by omega]
        exact ⟨v', _, hsame', rfl, hfirst⟩

/-- No assertion is tripped. The sectors of the file from `i` on are read, up to `n` of them, and none if `i` is not
    before the end. -/
def ReadsToEnd (fd : FatData) (cs : List Nat) (i n : Nat) (disk buffer : Mem)
    (result : Exec (Except Status (Nat × Mem) × Volume)) : Prop :=
  ∃ r v', result = .ok (r, v') ∧
    (i < cs.length * fd.sectorsPerCluster →
      ∃ buffer', r = .ok (min n (cs.length * fd.sectorsPerCluster - i), buffer') ∧
      Loaded fd cs i (min n (cs.length * fd.sectorsPerCluster - i)) 0 disk buffer buffer') ∧
    (cs.length * fd.sectorsPerCluster ≤ i → ∀ m buffer', r = .ok (m, buffer') → m = 0)

lemma getDirEntryFromSector_eq (g : Geometry fd) (hr : Reliable fd) (hc : IsData fd c) {index : Nat}
    (hfind : findDirEntry (clusterBytes fd v.disk d) c (bytesPerCluster fd / sizeofDirEntry) 0 = some index) :
    ∃ e, getDirEntryFromSector fd (sectorOf fd d) (sectorOf fd c) v =
      .ok (.ok (index, e), ⟨v.disk, v.reads + 1⟩) := by
  unfold clusterBytes at hfind
  rw [getDirEntryFromSector, bind_of_ok (ioReadDevice_reliable hr ..), clusterOfSector_sectorOf g hc,
    ofExcept_ok_bind, hfind]
  exact ⟨_, rfl⟩

/-- The sectors up to the end are read if and only if the first sector is aligned and the offset is not in the
    cluster right behind the last one. -/
theorem fatReadFile_to_end_iff (g : Geometry fd) (hr : Reliable fd) (now : DateTime) {index : Nat}
    (h : Chain fd v.disk (c :: cs))
    (hentry : findDirEntry (clusterBytes fd v.disk d) c (bytesPerCluster fd / sizeofDirEntry) 0 = some index) :
    ReadsToEnd fd (c :: cs) i n v.disk buffer (fatReadFile fd now (sectorOf fd c) i (sectorOf fd d) buffer n v) ↔
      isAddressAligned (sectorOf fd c) fd.sectorsPerCluster = true ∧
        (n = 0 ∨ i / fd.sectorsPerCluster ≠ (c :: cs).length) := by
  rw [fatReadFile]
  by_cases halign : isAddressAligned (sectorOf fd c) fd.sectorsPerCluster = true
  · rw [assert_pos halign, pure_bind]
    obtain rfl | hn := Nat.eq_zero_or_pos n
    · rw [if_pos rfl]
      refine iff_of_true ⟨_, _, rfl, fun _ => ⟨buffer, by rw [Nat.zero_min], ?_⟩, ?_⟩ ⟨halign, .inl rfl⟩
      · rw [Nat.zero_min]
        exact ⟨fun j t hj => absurd hj (Nat.not_lt_zero j), fun _ _ => rfl⟩
      · rintro - m buffer' ⟨⟩
        rfl
    · obtain ⟨v1, hsame, hskip⟩ := skipClusters_eq (i + 1) g hr h ⟨rfl, fun _ => rfl⟩ (Nat.zero_le _)
        (Nat.zero_le (i / fd.sectorsPerCluster)) (Nat.lt_succ_of_le ((Nat.sub_le ..).trans (Nat.div_le_self ..)))
      rw [Nat.zero_mul, show sectorAt fd (c :: cs) 0 = sectorOf fd c from rfl] at hskip
      have hin := Nat.div_lt_iff_lt_mul (x := i) (y := (c :: cs).length) g.sectorsPerCluster_pos
      rw [if_neg hn.ne]
      obtain hlt | heq | hgt := Nat.lt_trichotomy (i / fd.sectorsPerCluster) (c :: cs).length
      · rw [if_pos hlt.le, sectorAt_lt hlt] at hskip
        obtain ⟨v2, buffer', hsame2, hread, hload⟩ :=
          readSectors_eq buffer 0 g hr h hsame hn (hin.mp hlt) (Nat.le_succ n)
        rw [Fat32.fileSector] at hread
        rw [← hsame2.2] at hentry
        obtain ⟨e, hget⟩ := getDirEntryFromSector_eq g hr (h.data c (List.mem_cons_self ..)) hentry
        rw [bind_of_ok hskip, assert_pos (sectorOf_pos g _).ne, pure_bind, bind_of_ok hread]
        dsimp only
        rw [bind_of_ok hget]
        dsimp only
        rw [bind_of_ok (writeDirEntryToSector_eq hr (entry_le (findDirEntry_some hentry).1))]
        refine iff_of_true ⟨_, _, rfl, fun _ => ⟨buffer', ?_, hload⟩, fun hge => ?_⟩ ⟨halign, .inr hlt.ne⟩
        · rw [Nat.sub_sub_self (Nat.min_le_left ..)]
        · exact absurd (hin.mp hlt) hge.not_gt
      · rw [if_pos heq.le, heq, sectorAt_length] at hskip
        rw [bind_of_ok hskip, assert_neg (not_not.mpr rfl)]
        refine iff_of_false ?_ fun hcond => hcond.2.elim hn.ne' fun hne => hne heq
        rintro ⟨r, v', hrun, -⟩
        cases hrun
      · rw [if_neg hgt.not_ge] at hskip
        rw [bind_of_fail hskip]
        refine iff_of_true ⟨_, _, rfl, fun hlt => ?_, ?_⟩ ⟨halign, .inr hgt.ne'⟩
        · exact absurd (hin.mpr hlt) hgt.not_gt
        · rintro - m buffer' ⟨⟩
  · rw [assert_neg halign]
    refine iff_of_false ?_ fun hcond => halign hcond.1
    rintro ⟨r, v', hrun, -⟩
    cases hrun

/-- Two sectors of the file in `oneFile`, which has one. -/
theorem fatReadFile_to_end_oneFile : ReadsToEnd sampleData [3] 0 2 oneFile (fun _ => 0)
    (fatReadFile sampleData ⟨1, 1, 2000, 0, 0, 0⟩ (sectorOf sampleData 3) 0 (sectorOf sampleData 2) (fun _ => 0) 2
      ⟨oneFile, 0⟩) :=
  (fatReadFile_to_end_iff sampleData_geometry sampleData_reliable ⟨1, 1, 2000, 0, 0, 0⟩ (v := ⟨oneFile, 0⟩)
    oneFile_chain (show _ = some 0 by decide)).mpr (by decide)

/-- The sector right behind the end of this file. -/
theorem fatReadFile_behind_end :
    Chain sampleData oneFile [3] ∧ isAddressAligned (sectorOf sampleData 3) sampleData.sectorsPerCluster = true ∧
      findDirEntry (clusterBytes sampleData oneFile 2) 3 (bytesPerCluster sampleData / sizeofDirEntry) 0 = some 0 ∧
      fatReadFile sampleData ⟨1, 1, 2000, 0, 0, 0⟩ (sectorOf sampleData 3) 1 (sectorOf sampleData 2) (fun _ => 0) 1
        ⟨oneFile, 0⟩ = .error .check :=
  ⟨oneFile_chain, by decide, by decide, rfl⟩

end HAL9000.Fat32
