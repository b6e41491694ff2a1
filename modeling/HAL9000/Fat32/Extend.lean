import HAL9000.Fat32.Table

/-!
# FAT32: extending a chain

`_AddNewClusterToChain` takes a free cluster, makes it the end of the chain and writes the information
sector back. That last write decides the status, so where no cluster was found the caller is told that
all went well; and the search neither goes back to the clusters before the hint nor reaches the end of
the table. `extends_iff` says when the chain is extended as it should.
-/

namespace HAL9000.Fat32
open Lib Prog

variable {fd : FatData} {v : Volume} {disk disk' : Mem} {c d n x : Nat}

def freeCount (fd : FatData) (disk : Mem) : Nat := readLE disk (fd.bytesPerSector + 488) 4

def nxtFree (fd : FatData) (disk : Mem) : Nat := readLE disk (fd.bytesPerSector + 492) 4

lemma fsiFreeCount_sector : fsiFreeCount (fun i => disk (1 * fd.bytesPerSector + i)) = freeCount fd disk := by
  rw [fsiFreeCount, readLE_shift, Nat.one_mul, freeCount]

lemma fsiNxtFree_sector : fsiNxtFree (fun i => disk (1 * fd.bytesPerSector + i)) = nxtFree fd disk := by
  rw [fsiNxtFree, readLE_shift, Nat.one_mul, nxtFree]

lemma freeCount_lt (fd : FatData) (disk : Mem) : freeCount fd disk < 2 ^ 32 := readLE_lt ..

lemma fsiFreeCount_set (info : Mem) (hx : x < 2 ^ 32) : fsiFreeCount (setFsiFreeCount info x) = x :=
  readLE_writeLE info 488 hx

lemma fsiNxtFree_set (info : Mem) (hx : x < 2 ^ 32) : fsiNxtFree (setFsiNxtFree info x) = x :=
  readLE_writeLE info 492 hx

@[simp] lemma fsiNxtFree_setFsiFreeCount (info : Mem) (x : Nat) :
    fsiNxtFree (setFsiFreeCount info x) = fsiNxtFree info :=
  writeLE_within.readLE fun y hy hw => by unfold Span at *; omega

@[simp] lemma fsiFreeCount_setFsiNxtFree (info : Mem) (x : Nat) :
    fsiFreeCount (setFsiNxtFree info x) = fsiFreeCount info :=
  writeLE_within.readLE fun y hy hw => by unfold Span at *; omega

lemma tableEntry_of_info (g : Geometry fd)
    (h : Within (Span fd.bytesPerSector fd.bytesPerSector) disk disk') (c : Nat) :
    tableEntry fd disk' c = tableEntry fd disk c := by
  refine tableEntry_congr fun x hx => h x fun hi => ?_
  have := Nat.mul_le_mul_right fd.bytesPerSector g.reserved
  unfold Span fatAddr at *
  omega

lemma linkCluster_eq (g : Geometry fd) (hr : Reliable fd) (c n : Nat) :
    linkCluster fd c n v = .ok (.ok (), ⟨setEntry fd v.disk c n, v.reads + 1⟩) := by
  rw [linkCluster, bind_of_ok (ioReadDevice_reliable hr ..), ioWriteDevice_reliable hr, copyTo_setFatEntryAt g]

lemma countFreeClusters_returns (g : Geometry fd) (hr : Reliable fd) {a k : Nat} (ha : 2 ≤ a)
    (hfuel : fd.countOfClusters + 2 ≤ n + a) (hpos : 0 < n) :
    ∃ m r, countFreeClusters fd n a k v = .ok (.ok m, ⟨v.disk, r⟩) := by
  induction n generalizing a k v with
  | zero => omega
  | succ n ih =>
    rw [countFreeClusters]
    rcases firstFree_or_none g v.disk (a + 1) with ⟨c, hf, hs⟩ | hnone
    · obtain ⟨r, h⟩ := firstFreeCluster_some g hr (b := false) hf hs
      have hle := hf.1
      have hlt := hs.lt g
      rw [if_pos (by omega)] at h
      rw [bind_of_ok (attempt_of_ok h)]
      dsimp only
      rw [if_neg (by omega)]
      exact ih (v := ⟨v.disk, r⟩) (by omega) (by omega) (by omega)
    · obtain ⟨st, r, h, hst⟩ := firstFreeCluster_none g hr (b := false) hnone
      rw [bind_of_ok (attempt_of_ok h)]
      rcases hst with rfl | rfl
      · exact ⟨k, r, rfl⟩
      · exact ⟨k, r, rfl⟩

section Outcomes

/-- There is a cluster for `_AddNewClusterToChain` to find: the sectors are as long as the information
    sector, the count is not 0, and the first free entry from the hint on is a cluster and is in the part
    of the table that is searched. -/
def Extendable (fd : FatData) (disk : Mem) (n : Nat) : Prop :=
  fd.bytesPerSector = sizeofFsInfo ∧ freeCount fd disk ≠ 0 ∧ 2 ≤ n ∧
    FirstFree fd disk (nxtFree fd disk) n ∧ Searched fd n

/-- The information sector after cluster `n` has been taken: the hint is this cluster, and the count is
    one less, if it was known. -/
structure InfoTaken (fd : FatData) (disk : Mem) (n : Nat) (info : Mem) : Prop where
  nxtFree : fsiNxtFree info = n
  freeCount : freeCount fd disk ≠ unknown → fsiFreeCount info = freeCount fd disk - 1

lemma addNewClusterGuarded_ok (g : Geometry fd) (hr : Reliable fd) (h : Extendable fd v.disk n) (c : Nat) :
    ∃ info r, addNewClusterGuarded fd c v =
      .ok (.ok (n, info), ⟨setEntry fd (setEntry fd v.disk n eocMark) c n, r⟩) ∧
      InfoTaken fd v.disk n info := by
  obtain ⟨hbps, hcount, h2, hf, hs⟩ := h
  have hlt := hs.lt g
  have hclus := g.clusters
  have hn : n < 2 ^ 32 := by
    unfold badCluster at hclus
    omega
  obtain ⟨r, hfirst⟩ := firstFreeCluster_some g hr (v := ⟨v.disk, v.reads + 1⟩) (b := true) hf hs
  rw [if_pos h2, if_pos rfl] at hfirst
  rw [addNewClusterGuarded, bind_of_ok (attempt_of_ok (ioReadDevice_reliable hr ..))]
  dsimp only
  rw [assert_pos hbps.symm, Prog.pure_bind, fsiFreeCount_sector, fsiNxtFree_sector,
    if_neg (Ne.symm hcount), bind_of_ok (attempt_of_ok hfirst)]
  dsimp only
  rw [if_neg (by omega), bind_of_ok (attempt_of_ok (linkCluster_eq g hr c n))]
  dsimp only
  by_cases hun : unknown = freeCount fd v.disk
  · rw [if_pos hun]
    obtain ⟨m, r', hm⟩ := countFreeClusters_returns g hr (n := fd.countOfClusters + 3) (k := 0)
      (v := ⟨setEntry fd (setEntry fd v.disk n eocMark) c n, r + 1⟩) h2 (by omega) (by omega)
    rw [bind_of_ok hm]
    refine ⟨_, r', rfl, ?_, fun h => absurd hun.symm h⟩
    rw [fsiNxtFree_setFsiFreeCount, fsiNxtFree_set _ hn]
  · rw [if_neg hun]
    have hcount' := freeCount_lt fd v.disk
    refine ⟨_, r + 1, rfl, ?_, fun _ => ?_⟩
    · rw [fsiNxtFree_setFsiFreeCount, fsiNxtFree_set _ hn]
    · rw [fsiFreeCount_set _ (wsub_lt ..), wsub_eq hcount' (by omega)]

lemma addNewClusterGuarded_none (g : Geometry fd) (hr : Reliable fd) (h : ¬ ∃ n, Extendable fd v.disk n) (c : Nat) :
    addNewClusterGuarded fd c v = .error .check ∨ fd.bytesPerSector = sizeofFsInfo ∧
      ∃ info r, addNewClusterGuarded fd c v = .ok (.ok (0, info), ⟨v.disk, r⟩) := by
  rw [addNewClusterGuarded, bind_of_ok (attempt_of_ok (ioReadDevice_reliable hr ..))]
  dsimp only
  by_cases hbps : fd.bytesPerSector = sizeofFsInfo
  swap
  · rw [assert_neg (Ne.symm hbps)]
    exact .inl rfl
  rw [assert_pos hbps.symm, Prog.pure_bind, fsiFreeCount_sector, fsiNxtFree_sector]
  by_cases hcount : freeCount fd v.disk = 0
  · rw [if_pos hcount.symm]
    exact .inr ⟨hbps, _, _, rfl⟩
  rw [if_neg (Ne.symm hcount)]
  rcases firstFree_or_none g v.disk (nxtFree fd v.disk) with ⟨n, hf, hs⟩ | hnone
  · -- an entry that is no cluster
    have h2 : ¬ 2 ≤ n := fun h2 => h ⟨n, hbps, hcount, h2, hf, hs⟩
    obtain ⟨r, hfirst⟩ := firstFreeCluster_some g hr (v := ⟨v.disk, v.reads + 1⟩) (b := true) hf hs
    rw [if_neg h2] at hfirst
    rw [bind_of_fault (attempt_of_fault hfirst)]
    exact .inl rfl
  · obtain ⟨st, r, hfirst, hst⟩ :=
      firstFreeCluster_none g hr (v := ⟨v.disk, v.reads + 1⟩) (b := true) hnone
    rw [bind_of_ok (attempt_of_ok hfirst)]
    rcases hst with rfl | rfl
    · dsimp only
      rw [if_pos rfl]
      by_cases hun : unknown = freeCount fd v.disk
      · rw [assert_pos hun]
        exact .inr ⟨hbps, _, _, rfl⟩
      · rw [assert_neg hun]
        exact .inl rfl
    · exact .inr ⟨hbps, _, _, rfl⟩

lemma IsData.not_isEoc (g : Geometry fd) (hc : IsData fd c) : isEoc c = false := by
  have hclus := g.clusters
  have hlt := hc.2
  simp only [isEoc, decide_eq_false_iff_not]
  omega

variable (g : Geometry fd) (hr : Reliable fd) (hc : IsData fd c)
include g hr hc

lemma addNewClusterToChain_of_guarded (hbps : fd.bytesPerSector = sizeofFsInfo) {info : Mem} {v' : Volume}
    (h : addNewClusterGuarded fd c v = .ok (.ok (n, info), v')) :
    addNewClusterToChain fd c v =
      .ok (.ok n, ⟨copyTo v'.disk fd.bytesPerSector fd.bytesPerSector info, v'.reads⟩) := by
  rw [addNewClusterToChain, assert_pos (hc.not_isEoc g), Prog.pure_bind, bind_of_ok h]
  dsimp only
  rw [bind_of_ok (attempt_of_ok (ioWriteDevice_reliable hr ..)), assert_pos hbps.symm,
    Prog.pure_bind, ← hbps, Nat.one_mul]
  rfl

lemma addNewClusterToChain_ok (h : Extendable fd v.disk n) :
    ∃ info r, addNewClusterToChain fd c v =
      .ok (.ok n, ⟨copyTo (setEntry fd (setEntry fd v.disk n eocMark) c n) fd.bytesPerSector
        fd.bytesPerSector info, r⟩) ∧ InfoTaken fd v.disk n info := by
  obtain ⟨info, r, hg, hi⟩ := addNewClusterGuarded_ok g hr h c
  exact ⟨info, r, addNewClusterToChain_of_guarded g hr hc h.1 hg, hi⟩

lemma addNewClusterToChain_none (h : ¬ ∃ n, Extendable fd v.disk n) :
    addNewClusterToChain fd c v = .error .check ∨
      ∃ info r, addNewClusterToChain fd c v =
        .ok (.ok 0, ⟨copyTo v.disk fd.bytesPerSector fd.bytesPerSector info, r⟩) := by
  rcases addNewClusterGuarded_none g hr h c with hg | ⟨hbps, info, r, hg⟩
  · rw [addNewClusterToChain, assert_pos (hc.not_isEoc g), Prog.pure_bind, bind_of_fault hg]
    exact .inl rfl
  · exact .inr ⟨info, r, addNewClusterToChain_of_guarded g hr hc hbps hg⟩

end Outcomes

/-- Cluster `n` was free, and has become the end of the chain behind `c`; no other entry has changed. -/
structure Linked (fd : FatData) (disk disk' : Mem) (c n : Nat) : Prop where
  data : IsData fd n
  free : IsFree fd disk n
  last : tableEntry fd disk' c = n
  ends : isEoc (tableEntry fd disk' n) = true
  others : ∀ d, d ≠ c → d ≠ n → tableEntry fd disk' d = tableEntry fd disk d

def Full (fd : FatData) (disk : Mem) : Prop := ∀ d, IsData fd d → ¬ IsFree fd disk d

/-- What extending the chain that ends in `c` is to do. It returns; success means that a cluster has
    been linked; and it fails only if the count is 0 or no cluster is free, and in this last case with
    `STATUS_DISK_FULL` and the table as it was. -/
def Extends (fd : FatData) (c : Nat) (v : Volume) : Prop :=
  match addNewClusterToChain fd c v with
  | .error _ => False
  | .ok (.ok n, v') => Linked fd v.disk v'.disk c n
  | .ok (.error status, v') =>
    (freeCount fd v.disk = 0 ∨ Full fd v.disk) ∧
      (Full fd v.disk → status = .diskFull ∧ ∀ d, tableEntry fd v'.disk d = tableEntry fd v.disk d)

lemma linked_of_setEntry (g : Geometry fd) (hn : IsData fd n) (hfree : IsFree fd disk n) (hne : c ≠ n)
    (h : Within (Span fd.bytesPerSector fd.bytesPerSector)
      (setEntry fd (setEntry fd disk n eocMark) c n) disk') : Linked fd disk disk' c n := by
  have hlt : n < 2 ^ 28 := by
    have := g.clusters
    have := hn.2
    unfold badCluster at *
    omega
  refine ⟨hn, hfree, ?_, ?_, fun d hc hd => ?_⟩
  · rw [tableEntry_of_info g h, tableEntry_setEntry_self hlt]
  · rw [tableEntry_of_info g h, tableEntry_setEntry_of_ne hne.symm, tableEntry_setEntry_self (by decide)]
    rfl
  · rw [tableEntry_of_info g h, tableEntry_setEntry_of_ne hc, tableEntry_setEntry_of_ne hd]

lemma not_extends (g : Geometry fd) (hr : Reliable fd) (hc : IsData fd c)
    (h : ¬ ∃ n, Extendable fd v.disk n) : ¬ Extends fd c v := by
  intro hext
  rcases addNewClusterToChain_none g hr hc h with he | ⟨info, r, he⟩
  · rw [Extends, he] at hext
    exact hext
  · rw [Extends, he] at hext
    exact absurd hext.data.1 (by decide)

/-- A chain is extended as it should be just if there is a cluster for the search to find. -/
theorem extends_iff (g : Geometry fd) (hr : Reliable fd) (hc : IsData fd c)
    (hend : isEoc (tableEntry fd v.disk c) = true) :
    Extends fd c v ↔ ∃ n, Extendable fd v.disk n := by
  constructor
  · intro h
    by_contra hnone
    exact not_extends g hr hc hnone h
  · rintro ⟨n, hext⟩
    obtain ⟨info, r, he, -⟩ := addNewClusterToChain_ok g hr hc hext
    have hfree := hext.2.2.2.1.2.1
    have hne : c ≠ n := by
      rintro rfl
      rw [hfree] at hend
      exact absurd hend (by decide)
    rw [Extends, he]
    exact linked_of_setEntry g ⟨hext.2.2.1, hext.2.2.2.2.lt g⟩ hfree hne copyTo_within

def allTaken (count hint : Nat) : Mem := writeLE (writeLE (fun _ => 0xFF) 1000 4 count) 1004 4 hint

def oneFree (count hint free : Nat) : Mem := setEntry sampleData (allTaken count hint) free 0

lemma tableEntry_allTaken (count hint d : Nat) : tableEntry sampleData (allTaken count hint) d = eocMark := by
  rw [← tableEntry_ones sampleData d]
  refine tableEntry_congr fun x hx => ?_
  have hge : 16384 ≤ x := le_trans (Nat.le_add_right _ _) hx.1
  rw [allTaken, writeLE, if_neg (by omega), writeLE, if_neg (by omega)]

lemma allTaken_not_free (count hint d : Nat) : ¬ IsFree sampleData (allTaken count hint) d := by
  rw [IsFree, tableEntry_allTaken]
  decide

/-- With the free cluster at the hint, the chain of cluster 2 is extended by it. -/
theorem extends_oneFree : Extends sampleData 2 ⟨oneFree 1 3 3, 0⟩ :=
  (extends_iff sampleData_geometry sampleData_reliable (by decide) (by decide)).mpr
    ⟨3, rfl, by decide, by decide, ⟨by decide, by decide, fun d h h' => by
      have h3 : nxtFree sampleData (oneFree 1 3 3) = 3 := by decide
      rw [h3] at h
      omega⟩, by decide⟩

/-- On a full volume the extension succeeds, with cluster 0. With one free cluster, which is known to
    the count but lies before the hint, the extension does not take it. -/
theorem extension_lost : Full sampleData (allTaken 0 2) ∧
      (∃ v, addNewClusterToChain sampleData 2 ⟨allTaken 0 2, 0⟩ = .ok (.ok 0, v)) ∧
      ¬ Extends sampleData 2 ⟨allTaken 0 2, 0⟩ ∧
      IsFree sampleData (oneFree 1 4 3) 3 ∧ freeCount sampleData (oneFree 1 4 3) = 1 ∧
      ¬ Extends sampleData 2 ⟨oneFree 1 4 3, 0⟩ := by
  have hzero : freeCount sampleData (allTaken 0 2) = 0 := by decide
  have hhint : nxtFree sampleData (oneFree 1 4 3) = 4 := by decide
  refine ⟨fun d _ => allTaken_not_free 0 2 d, ⟨_, rfl⟩, ?_, by decide, by decide, ?_⟩
  · refine not_extends sampleData_geometry sampleData_reliable (by decide) ?_
    rintro ⟨n, -, hcount, -⟩
    exact hcount hzero
  · refine not_extends sampleData_geometry sampleData_reliable (by decide) ?_
    rintro ⟨n, -, -, -, hf, -⟩
    have hle := hf.1
    rw [hhint] at hle
    have hfree := hf.2.1
    rw [IsFree, oneFree, tableEntry_setEntry_of_ne (by omega)] at hfree
    exact allTaken_not_free 1 4 n hfree

end HAL9000.Fat32
