import HAL9000.Fat32.Walk

/-!
# FAT32: the contents of a file

`FatWriteFile` and `FatReadFile` go along the chain of a file with two loops, one to the cluster of the
offset and one over the sectors. In terms of the list of its clusters, sector `i` of a file is
`fileSector fd cs i` on the volume. The first loop finds it (`skipClusters_runs`); the second one stores
the buffer in these sectors (`writeSectors_runs`), or loads them into it (`readSectors_runs`). What is
written is read again, and apart from the sectors addressed only dates, times and the size in the entry
of the file change (`write_then_read`).
-/

namespace HAL9000.Fat32
open Lib Prog

variable {fd : FatData} {v : Volume} {disk disk' : Mem} {bad : Fault → Prop} {cs : List Nat}
  {c d fuel i k n r : Nat}

/-- The clusters of a file, from the first to the last. No cluster occurs twice. -/
structure Chain (fd : FatData) (disk : Mem) (cs : List Nat) : Prop where
  data : ∀ c ∈ cs, IsData fd c
  linked : ∀ k, k + 1 < cs.length → successor fd disk (cs.getD k 0) = some (cs.getD (k + 1) 0)
  ends : ∀ c ∈ cs.getLast?, successor fd disk c = none
  nodup : cs.Nodup

/-- Where sector `i` of a file is on the volume. -/
def fileSector (fd : FatData) (cs : List Nat) (i : Nat) : Nat :=
  sectorOf fd (cs.getD (i / fd.sectorsPerCluster) 0) + i % fd.sectorsPerCluster

def DataRegion (fd : FatData) (x : Nat) : Prop := fd.firstDataSector * fd.bytesPerSector ≤ x

lemma tableEntry_of_data (g : Geometry fd) (h : Within (DataRegion fd) disk disk')
    (hc : c < fd.countOfClusters + 2) : tableEntry fd disk' c = tableEntry fd disk c := by
  refine tableEntry_congr fun x hx => h x fun hd => ?_
  have := g.tables
  unfold Span DataRegion fatAddr at *
  omega

lemma successor_of_data (g : Geometry fd) (h : Within (DataRegion fd) disk disk')
    (hc : IsData fd c) : successor fd disk' c = successor fd disk c := by
  rw [successor, successor, tableEntry_of_data g h hc.2]

lemma Chain.isData (h : Chain fd disk cs) (hk : k < cs.length) : IsData fd (cs.getD k 0) := by
  rw [List.getD_eq_getElem _ _ hk]
  exact h.data _ (List.getElem_mem hk)

section

variable (g : Geometry fd) {j : Nat}
include g

lemma Chain.of_data (h : Chain fd disk cs) (hw : Within (DataRegion fd) disk disk') :
    Chain fd disk' cs where
  data := h.data
  linked := fun k hk => by
    rw [successor_of_data g hw (h.isData (by omega)), h.linked k hk]
  ends := fun c hc => by
    rw [successor_of_data g hw (h.data c (List.mem_of_getLast? hc)), h.ends c hc]
  nodup := h.nodup

lemma sectorOf_inj (hc : IsData fd c) (hd : IsData fd d) (hi : i < fd.sectorsPerCluster)
    (hj : j < fd.sectorsPerCluster) (h : sectorOf fd c + i = sectorOf fd d + j) : c = d ∧ i = j := by
  have hcl := clusterOfSector_ok g hc hi
  rw [h, clusterOfSector_ok g hd hj] at hcl
  cases hcl
  exact ⟨rfl, by omega⟩

lemma fileSector_inj (h : Chain fd disk cs) (hi : i < cs.length * fd.sectorsPerCluster)
    (hj : j < cs.length * fd.sectorsPerCluster) (heq : fileSector fd cs i = fileSector fd cs j) : i = j := by
  have hq := g.sectorsPerCluster_pos
  have hi' := (Nat.div_lt_iff_lt_mul hq).mpr hi
  have hj' := (Nat.div_lt_iff_lt_mul hq).mpr hj
  obtain ⟨hc, hmod⟩ := sectorOf_inj g (h.isData hi') (h.isData hj') (Nat.mod_lt i hq)
    (Nat.mod_lt j hq) heq
  rw [List.getD_eq_getElem _ _ hi', List.getD_eq_getElem _ _ hj'] at hc
  have hdiv := (h.nodup.getElem_inj_iff).mp hc
  rw [← Nat.div_add_mod i fd.sectorsPerCluster, ← Nat.div_add_mod j fd.sectorsPerCluster, hdiv, hmod]

lemma fileSector_add (hj : i % fd.sectorsPerCluster + j < fd.sectorsPerCluster) :
    fileSector fd cs (i + j) = fileSector fd cs i + j := by
  have hq := g.sectorsPerCluster_pos
  have hdm := Nat.div_add_mod i fd.sectorsPerCluster
  have hsum : i + j = fd.sectorsPerCluster * (i / fd.sectorsPerCluster) + (i % fd.sectorsPerCluster + j) := by
    omega
  have hdiv : (i + j) / fd.sectorsPerCluster = i / fd.sectorsPerCluster := by
    rw [hsum, Nat.mul_add_div hq, Nat.div_eq_of_lt hj, Nat.add_zero]
  have hmod : (i + j) % fd.sectorsPerCluster = i % fd.sectorsPerCluster + j := by
    rw [hsum, Nat.mul_add_mod, Nat.mod_eq_of_lt hj]
  rw [fileSector, fileSector, hdiv, hmod, Nat.add_assoc]

lemma Geometry.firstDataSector_pos : 0 < fd.firstDataSector := by
  have := g.tables
  unfold fatAddr at this
  by_contra h0
  rw [Nat.eq_zero_of_not_pos h0] at this
  omega

end

lemma firstDataSector_le_sectorOf (fd : FatData) (c : Nat) : fd.firstDataSector ≤ sectorOf fd c :=
  Nat.le_add_left ..

lemma sectorOf_pos (g : Geometry fd) (c : Nat) : 0 < sectorOf fd c :=
  g.firstDataSector_pos.trans_le (firstDataSector_le_sectorOf fd c)

lemma firstDataSector_le_fileSector (fd : FatData) (cs : List Nat) (i : Nat) :
    fd.firstDataSector ≤ fileSector fd cs i :=
  (firstDataSector_le_sectorOf ..).trans (Nat.le_add_right ..)

lemma nextSectorInClusterChain_of_successor (g : Geometry fd) {ext : Bool} (hc : IsData fd c)
    (hi : i < fd.sectorsPerCluster) (hs : successor fd v.disk c = some d) (hd : IsData fd d) :
    Runs bad (nextSectorInClusterChain fd (sectorOf fd c + i) ext) v fun r v' =>
      v'.disk = v.disk ∧ ∀ s, r = .ok s → s = sectorOf fd d := by
  have hne : tableEntry fd v.disk c ≠ 0 := by
    intro h0
    rw [successor, h0] at hs
    cases hs
  rw [nextSectorInClusterChain, clusterOfSector_ok g hc hi, ofExcept_ok_bind]
  refine (nextClusterInChain_runs g).seq ?_ fun st v' h => ⟨eq_of_repaired hne h.2.1, by simp⟩
  rintro e v' ⟨-, hv, he⟩
  cases he e rfl
  rw [successor] at hs
  split at hs
  · cases hs
  · next hend =>
    rw [if_neg hend]
    cases hs
    rw [firstSectorOfCluster_ok g hd]
    exact .ofExcept ⟨eq_of_repaired hne hv, fun s h => by cases h; rfl⟩

lemma nextSector_of_chain (g : Geometry fd) (h : Chain fd v.disk cs) {ext : Bool} (hk : k + 1 < cs.length)
    (hi : i < fd.sectorsPerCluster) :
    Runs bad (nextSectorInClusterChain fd (sectorOf fd (cs.getD k 0) + i) ext) v fun r v' =>
      v'.disk = v.disk ∧ ∀ s, r = .ok s → s = sectorOf fd (cs.getD (k + 1) 0) :=
  nextSectorInClusterChain_of_successor g (h.isData (by omega)) hi (h.linked k hk) (h.isData hk)

lemma skipClusters_runs (g : Geometry fd) (h : Chain fd v.disk cs) {b : Bool} {m : Nat}
    (hk : k ≤ n / fd.sectorsPerCluster) (hn : n / fd.sectorsPerCluster < cs.length) :
    Runs (fun _ => False)
      (skipClusters fd n b m (k * fd.sectorsPerCluster) (sectorOf fd (cs.getD k 0))) v fun r v' =>
      v'.disk = v.disk ∧ ∀ s, r = .ok s → s = sectorOf fd (cs.getD (n / fd.sectorsPerCluster) 0) := by
  induction m generalizing v k with
  | zero => exact .fault id
  | succ m ih =>
    have hq := Nat.le_div_iff_mul_le (x := k + 1) (y := n) g.sectorsPerCluster_pos
    rw [skipClusters, ← Nat.succ_mul]
    refine .ite (fun hle => ?_) fun hlt => ?_
    · refine .assert_bind nofun fun _ => ?_
      have hle' := hq.mpr hle
      refine (nextSector_of_chain (i := 0) g h (by omega) g.sectorsPerCluster_pos).seq ?_
        fun st v' h => ⟨h.1, nofun⟩
      rintro next v1 ⟨hv1, hnext⟩
      rw [hnext next rfl]
      refine (ih (by rwa [hv1]) hle').mono ?_
      rintro r v2 ⟨hv2, hr⟩
      exact ⟨hv2.trans hv1, hr⟩
    · have hkn : k = n / fd.sectorsPerCluster := by
        by_contra hne
        exact hlt (hq.mp (by omega))
      exact .pure ⟨rfl, fun s hs => by cases hs; rw [hkn]⟩

lemma skipClusters_start (g : Geometry fd) (h : Chain fd v.disk (c :: cs)) (ext : Bool) (fuel : Nat)
    (hn : n < (c :: cs).length * fd.sectorsPerCluster) :
    Runs (fun _ => False) (skipClusters fd n ext fuel 0 (sectorOf fd c)) v fun r v' =>
      v'.disk = v.disk ∧ ∀ s, r = .ok s →
        s + n % fd.sectorsPerCluster = fileSector fd (c :: cs) n := by
  have hskip := skipClusters_runs g h (Nat.zero_le _)
    ((Nat.div_lt_iff_lt_mul g.sectorsPerCluster_pos).mpr hn) (m := fuel) (b := ext)
  rw [Nat.zero_mul] at hskip
  refine hskip.mono ?_
  rintro r v' ⟨hv, hr⟩
  exact ⟨hv, fun s hs => by rw [hr s hs, fileSector]⟩

/-- Sectors `i` to `i + n` of the file hold the bytes of `src`, and no other byte has changed. -/
structure Stored (fd : FatData) (cs : List Nat) (i n : Nat) (src disk disk' : Mem) : Prop where
  bytes : ∀ j t, j < n → t < fd.bytesPerSector →
    disk' (fileSector fd cs (i + j) * fd.bytesPerSector + t) = src (j * fd.bytesPerSector + t)
  others : Within (fun x => ∃ j < n, Span (fileSector fd cs (i + j) * fd.bytesPerSector) fd.bytesPerSector x)
    disk disk'

lemma sector_disjoint {a b x : Nat} (ha : Span (a * n) n x) (hb : Span (b * n) n x) : a = b := by
  obtain ⟨h1, h2⟩ := ha
  obtain ⟨h3, h4⟩ := hb
  rcases Nat.lt_trichotomy a b with hlt | heq | hlt
  · have := Nat.mul_le_mul_right n hlt
    rw [Nat.succ_mul] at this
    omega
  · exact heq
  · have := Nat.mul_le_mul_right n hlt
    rw [Nat.succ_mul] at this
    omega

lemma stored_copyTo (g : Geometry fd) (cs : List Nat) (disk src : Mem)
    (hn : i % fd.sectorsPerCluster + n ≤ fd.sectorsPerCluster) :
    Stored fd cs i n src disk
      (copyTo disk (fileSector fd cs i * fd.bytesPerSector) (n * fd.bytesPerSector) src) := by
  have hsec : ∀ j < n, fileSector fd cs (i + j) * fd.bytesPerSector =
      fileSector fd cs i * fd.bytesPerSector + j * fd.bytesPerSector := by
    intro j hj
    rw [fileSector_add g (by omega), Nat.add_mul]
  constructor
  · intro j t hj ht
    have hle := Nat.mul_le_mul_right fd.bytesPerSector hj
    rw [Nat.succ_mul] at hle
    rw [copyTo, hsec j hj, if_pos (by omega)]
    congr 1
    omega
  · refine copyTo_within.mono fun x hx => ?_
    -- the byte is in the sector given by its distance from the start
    have hb := g.bytesPerSector_pos
    obtain ⟨h1, h2⟩ := hx
    have hj : (x - fileSector fd cs i * fd.bytesPerSector) / fd.bytesPerSector < n :=
      (Nat.div_lt_iff_lt_mul hb).mpr (by omega)
    refine ⟨_, hj, ?_⟩
    have hdm := Nat.div_add_mod' (x - fileSector fd cs i * fd.bytesPerSector) fd.bytesPerSector
    have hlt := Nat.mod_lt (x - fileSector fd cs i * fd.bytesPerSector) hb
    rw [hsec _ hj]
    unfold Span
    omega

lemma Stored.dataRegion {src : Mem} (h : Stored fd cs i n src disk disk') : Within (DataRegion fd) disk disk' := by
  refine h.others.mono ?_
  rintro x ⟨j, -, hx⟩
  exact (Nat.mul_le_mul_right _ (firstDataSector_le_fileSector ..)).trans hx.1

lemma Stored.append (g : Geometry fd) (hch : Chain fd disk cs) {m : Nat} {src mid : Mem}
    (hin : i + (m + n) ≤ cs.length * fd.sectorsPerCluster) (h1 : Stored fd cs i m src disk mid)
    (h2 : Stored fd cs (i + m) n (fun x => src (m * fd.bytesPerSector + x)) mid disk') :
    Stored fd cs i (m + n) src disk disk' := by
  constructor
  · intro j t hj ht
    by_cases hjm : j < m
    · -- the second transfer has not touched the sector
      rw [h2.others, h1.bytes j t hjm ht]
      rintro ⟨j', hj', hspan⟩
      have := fileSector_inj g hch (by omega) (by omega)
        (sector_disjoint ⟨Nat.le_add_right .., Nat.add_lt_add_left ht _⟩ hspan)
      omega
    · have hb := h2.bytes (j - m) t (by omega) ht
      rw [Nat.add_assoc, Nat.add_sub_cancel' (by omega), Nat.sub_mul, ← Nat.add_assoc,
        Nat.add_sub_cancel' (Nat.mul_le_mul_right _ (by omega))] at hb
      exact hb
  · intro x hx
    rw [h2.others x, h1.others x]
    · rintro ⟨j, hj, hspan⟩
      exact hx ⟨j, by omega, hspan⟩
    · rintro ⟨j, hj, hspan⟩
      exact hx ⟨m + j, by omega, by rwa [← Nat.add_assoc]⟩

lemma ioWriteDevice_stores {buffer : Mem} {length offset : Nat} :
    Runs bad (ioWriteDevice fd.volumeDevice buffer length offset) v fun r v' =>
      ∀ u, r = .ok u → v'.disk = copyTo v.disk offset length buffer := by
  rw [Runs, ioWriteDevice]
  cases fd.volumeDevice.writeFailure offset length with
  | some st => simp
  | none => exact fun _ _ => rfl

lemma next_cluster (g : Geometry fd) (i : Nat) :
    (i + (fd.sectorsPerCluster - i % fd.sectorsPerCluster)) / fd.sectorsPerCluster =
        i / fd.sectorsPerCluster + 1 ∧
      (i + (fd.sectorsPerCluster - i % fd.sectorsPerCluster)) % fd.sectorsPerCluster = 0 := by
  have hq := g.sectorsPerCluster_pos
  have hdm := Nat.div_add_mod i fd.sectorsPerCluster
  have hlt := Nat.mod_lt i hq
  have hsum : i + (fd.sectorsPerCluster - i % fd.sectorsPerCluster) =
      fd.sectorsPerCluster * (i / fd.sectorsPerCluster + 1) := by
    rw [Nat.mul_add, Nat.mul_one]
    omega
  rw [hsum, Nat.mul_div_cancel_left _ hq, Nat.mul_mod_right]
  exact ⟨rfl, rfl⟩

lemma nextSector_of_fileSector (g : Geometry fd) (h : Chain fd v.disk cs) {ext : Bool}
    (hin : i + (fd.sectorsPerCluster - i % fd.sectorsPerCluster) < cs.length * fd.sectorsPerCluster) :
    Runs bad (nextSectorInClusterChain fd (fileSector fd cs i) ext) v fun r v' =>
      v'.disk = v.disk ∧ ∀ s, r = .ok s →
        s = fileSector fd cs (i + (fd.sectorsPerCluster - i % fd.sectorsPerCluster)) := by
  obtain ⟨hdiv, hmod⟩ := next_cluster g i
  have hq := g.sectorsPerCluster_pos
  have hk := (Nat.div_lt_iff_lt_mul hq).mpr hin
  rw [hdiv] at hk
  rw [fileSector, fileSector, hdiv, hmod]
  exact nextSector_of_chain g h hk (Nat.mod_lt i hq)

lemma writeSectors_runs (g : Geometry fd) (h : Chain fd v.disk cs) {buffer : Mem} {p : Nat} (hn : 0 < n)
    (hin : i + n ≤ cs.length * fd.sectorsPerCluster) :
    Runs (fun _ => False) (writeSectors fd buffer fuel (fileSector fd cs i) n
      (min n (fd.sectorsPerCluster - i % fd.sectorsPerCluster)) p) v fun r v' =>
      ∀ u, r = .ok u → Stored fd cs i n (fun x => buffer (p + x)) v.disk v'.disk := by
  have hq := g.sectorsPerCluster_pos
  induction fuel generalizing v i n p with
  | zero => exact .fault id
  | succ fuel ih =>
    have hlt := Nat.mod_lt i hq
    rw [writeSectors]
    refine ioWriteDevice_stores.seq ?_ fun st v' _ => nofun
    intro _ v1 hv1
    have hfirst := stored_copyTo g cs v.disk (fun x => buffer (p + x)) (i := i)
      (n := min n (fd.sectorsPerCluster - i % fd.sectorsPerCluster)) (by omega)
    rw [← hv1 () rfl] at hfirst
    refine .ite (fun hdone => .pure fun _ _ => ?_) fun hmore => ?_
    · rwa [show n = min n (fd.sectorsPerCluster - i % fd.sectorsPerCluster) by omega]
    · -- the whole rest of the cluster has been written
      have hmin : min n (fd.sectorsPerCluster - i % fd.sectorsPerCluster) =
          fd.sectorsPerCluster - i % fd.sectorsPerCluster := by omega
      have hch := h.of_data g hfirst.dataRegion
      rw [hmin] at hfirst hmore ⊢
      refine (nextSector_of_fileSector g hch (by omega)).seq ?_ fun st v' _ => nofun
      rintro next v2 ⟨hv2, hnext⟩
      rw [hnext next rfl, Nat.min_comm]
      have hstep := ih (v := v2) (i := i + (fd.sectorsPerCluster - i % fd.sectorsPerCluster))
        (n := n - (fd.sectorsPerCluster - i % fd.sectorsPerCluster))
        (p := p + (fd.sectorsPerCluster - i % fd.sectorsPerCluster) * fd.bytesPerSector)
        (by rwa [hv2]) (by omega) (by omega)
      rw [(next_cluster g i).2, Nat.sub_zero] at hstep
      refine hstep.mono fun r v3 hr u hu => ?_
      have hrest := hr u hu
      rw [hv2] at hrest
      simp only [Nat.add_assoc] at hrest
      have happ := Stored.append g h (by omega) hfirst hrest
      rwa [Nat.add_sub_cancel' (by omega)] at happ

/-- The `n` sectors of the file from `i` on are in the buffer at `p`, which is as before up to there. -/
structure Loaded (fd : FatData) (cs : List Nat) (i n p : Nat) (disk buffer buffer' : Mem) : Prop where
  bytes : ∀ j t, j < n → t < fd.bytesPerSector → buffer' (p + (j * fd.bytesPerSector + t)) =
    disk (fileSector fd cs (i + j) * fd.bytesPerSector + t)
  before : ∀ x < p, buffer' x = buffer x

lemma loaded_copyTo (g : Geometry fd) (cs : List Nat) (disk buffer : Mem) (p : Nat)
    (hn : i % fd.sectorsPerCluster + n ≤ fd.sectorsPerCluster) :
    Loaded fd cs i n p disk buffer (copyTo buffer p (n * fd.bytesPerSector)
      fun x => disk (fileSector fd cs i * fd.bytesPerSector + x)) := by
  constructor
  · intro j t hj ht
    have hle := Nat.mul_le_mul_right fd.bytesPerSector hj
    rw [Nat.succ_mul] at hle
    rw [copyTo, if_pos (by omega), Nat.add_sub_cancel_left, fileSector_add g (by omega), Nat.add_mul, Nat.add_assoc]
  · intro x hx
    rw [copyTo, if_neg (by omega)]

lemma Loaded.append {m p : Nat} {buffer mid buffer' : Mem} (h1 : Loaded fd cs i m p disk buffer mid)
    (h2 : Loaded fd cs (i + m) n (p + m * fd.bytesPerSector) disk mid buffer') :
    Loaded fd cs i (m + n) p disk buffer buffer' := by
  constructor
  · intro j t hj ht
    by_cases hjm : j < m
    · have hle := Nat.mul_le_mul_right fd.bytesPerSector hjm
      rw [Nat.succ_mul] at hle
      rw [h2.before _ (by omega), h1.bytes j t hjm ht]
    · have hb := h2.bytes (j - m) t (by omega) ht
      rw [Nat.add_assoc i, Nat.add_sub_cancel' (by omega), Nat.sub_mul] at hb
      have hle := Nat.mul_le_mul_right fd.bytesPerSector (Nat.le_of_not_lt hjm)
      rw [← hb]
      congr 1
      omega
  · intro x hx
    rw [h2.before x (by omega), h1.before x hx]

lemma readSectors_runs (g : Geometry fd) (h : Chain fd v.disk cs) {b : Mem} {p : Nat} (hn : 0 < n)
    (hin : i + n ≤ cs.length * fd.sectorsPerCluster) :
    Runs (fun _ => False) (readSectors fd fuel (fileSector fd cs i) n
      (min n (fd.sectorsPerCluster - i % fd.sectorsPerCluster)) b p) v fun r v' =>
      v'.disk = v.disk ∧ ∀ left b', r = .ok (left, b') →
        left = 0 ∧ Loaded fd cs i n p v.disk b b' := by
  have hq := g.sectorsPerCluster_pos
  induction fuel generalizing v i n p b with
  | zero => exact .fault id
  | succ fuel ih =>
    have hlt := Nat.mod_lt i hq
    rw [readSectors]
    refine ioReadDevice_runs.seq ?_ fun st v' h => ⟨by rw [h.1], nofun⟩
    rintro data v1 ⟨rfl, hdata⟩
    rw [hdata data rfl]
    have hfirst := loaded_copyTo g cs v.disk b p (i := i)
      (n := min n (fd.sectorsPerCluster - i % fd.sectorsPerCluster)) (by omega)
    refine .ite (fun hdone => .pure ⟨rfl, fun left b' hr => ?_⟩) fun hmore => ?_
    · cases hr
      rw [← show n = min n (fd.sectorsPerCluster - i % fd.sectorsPerCluster) by omega] at hfirst ⊢
      exact ⟨rfl, hfirst⟩
    · have hmin : min n (fd.sectorsPerCluster - i % fd.sectorsPerCluster) =
          fd.sectorsPerCluster - i % fd.sectorsPerCluster := by omega
      rw [hmin] at hfirst hmore ⊢
      refine (nextSector_of_fileSector g (v := ⟨v.disk, v.reads + 1⟩) (i := i) h (by omega)).seq ?_
        fun st v' h => ⟨h.1, nofun⟩
      rintro next v2 ⟨hv2, hnext⟩
      rw [hnext next rfl, Nat.min_comm]
      refine .ite (fun h0 => ?_) fun _ => ?_
      · exact absurd h0 ((sectorOf_pos g _).trans_le (Nat.le_add_right ..)).ne
      have hstep := ih (v := v2) (i := i + (fd.sectorsPerCluster - i % fd.sectorsPerCluster))
        (n := n - (fd.sectorsPerCluster - i % fd.sectorsPerCluster))
        (p := p + (fd.sectorsPerCluster - i % fd.sectorsPerCluster) * fd.bytesPerSector)
        (b := copyTo b p ((fd.sectorsPerCluster - i % fd.sectorsPerCluster) * fd.bytesPerSector)
          fun x => v.disk (fileSector fd cs i * fd.bytesPerSector + x))
        (by rwa [hv2]) (by omega) (by omega)
      rw [(next_cluster g i).2, Nat.sub_zero] at hstep
      refine hstep.mono ?_
      rintro r v3 ⟨hv3, hr⟩
      refine ⟨hv3.trans hv2, fun left b' hres => ?_⟩
      obtain ⟨hleft, hrest⟩ := hr left b' hres
      rw [hv2] at hrest
      have happ := hfirst.append hrest
      rw [Nat.add_sub_cancel' (by omega)] at happ
      exact ⟨hleft, happ⟩

def clusterBytes (fd : FatData) (disk : Mem) (c : Nat) : Mem :=
  fun i => disk (sectorOf fd c * fd.bytesPerSector + i)

def entryAddr (fd : FatData) (d index : Nat) : Nat := sectorOf fd d * fd.bytesPerSector + sizeofDirEntry * index

/-- The entry is in use, is no part of a long name, and belongs to the file that starts with `c`. -/
structure EntryOf (fd : FatData) (disk : Mem) (d index c : Nat) : Prop where
  lt : sizeofDirEntry * index + sizeofDirEntry ≤ bytesPerCluster fd
  used : isFree (clusterBytes fd disk d) (sizeofDirEntry * index) = false
  short : isLong (clusterBytes fd disk d) (sizeofDirEntry * index) = false
  cluster : dirCluster (clusterBytes fd disk d) (sizeofDirEntry * index) = c

lemma findDirEntry_some {entries : Mem} {j : Nat} (h : findDirEntry entries c n i = some j) :
    j < i + n ∧ isFree entries (sizeofDirEntry * j) = false ∧
      isLong entries (sizeofDirEntry * j) = false ∧ dirCluster entries (sizeofDirEntry * j) = c := by
  induction n generalizing i with
  | zero => cases h
  | succ n ih =>
    have hrec : findDirEntry entries c n (i + 1) = some j → _ := fun h =>
      (ih h).imp_left fun hlt => (show j < i + (n + 1) by omega)
    rw [findDirEntry] at h
    split at h
    · exact hrec h
    · next hskip =>
      split at h
      · next hc =>
        cases h
        rw [Bool.or_eq_true, not_or, Bool.not_eq_true, Bool.not_eq_true] at hskip
        exact ⟨by omega, hskip.1, hskip.2, hc.symm⟩
      · exact hrec h

lemma entry_le {index : Nat} (h : index < 0 + bytesPerCluster fd / sizeofDirEntry) :
    sizeofDirEntry * index + sizeofDirEntry ≤ bytesPerCluster fd := by
  have := Nat.mul_le_mul_left sizeofDirEntry (show index + 1 ≤ bytesPerCluster fd / sizeofDirEntry by omega)
  exact this.trans (Nat.mul_div_le ..)

lemma getDirEntryFromSector_runs (g : Geometry fd) (hc : IsData fd c) :
    Runs bad (getDirEntryFromSector fd (sectorOf fd d) (sectorOf fd c)) v fun r v' =>
      v'.disk = v.disk ∧ ∀ index e, r = .ok (index, e) →
        findDirEntry (clusterBytes fd v.disk d) c (bytesPerCluster fd / sizeofDirEntry) 0 = some index ∧
          e = fun i => v.disk (entryAddr fd d index + i) := by
  rw [getDirEntryFromSector]
  refine ioReadDevice_runs.seq ?_ fun st v' h => ⟨by rw [h.1], nofun⟩
  rintro entries v1 ⟨rfl, he⟩
  rw [he entries rfl, clusterOfSector_sectorOf g hc, ofExcept_ok_bind]
  split
  · next index hf =>
    refine .pure ⟨rfl, fun i e h => ?_⟩
    cases h
    refine ⟨hf, funext fun x => ?_⟩
    rw [entryAddr, Nat.add_assoc]
  · exact .fail ⟨rfl, nofun⟩

lemma writeDirEntryToSector_runs {index : Nat} {e : Mem}
    (hlt : sizeofDirEntry * index + sizeofDirEntry ≤ bytesPerCluster fd) :
    Runs bad (writeDirEntryToSector fd (sectorOf fd d) index e) v fun r v' =>
      ∀ u, r = .ok u → v'.disk = copyTo v.disk (entryAddr fd d index) sizeofDirEntry e := by
  rw [writeDirEntryToSector]
  refine ioReadDevice_runs.seq ?_ fun st v' _ => nofun
  rintro entries v1 ⟨rfl, he⟩
  rw [he entries rfl]
  refine ioWriteDevice_stores.mono fun r v' h u hu => ?_
  rw [h u hu, copyTo_copyTo hlt, entryAddr]

/-- The bytes of an entry that hold the date of the last access, the time and date of the last change,
    and the size. -/
def StampBytes (t : Nat) : Prop := Span 0x12 2 t ∨ Span 0x16 4 t ∨ Span 0x1C 4 t

lemma copyTo_stamps {a : Nat} {e : Mem} (h : Within StampBytes (fun i => disk (a + i)) e) :
    Within (fun x => ∃ t, StampBytes t ∧ x = a + t) disk (copyTo disk a sizeofDirEntry e) := by
  intro x hx
  rw [copyTo]
  split
  · next hin =>
    rw [h (x - a) fun ht => hx ⟨x - a, ht, by omega⟩]
    exact congrArg disk (Nat.add_sub_cancel' hin.1)
  · rfl

lemma writtenEntry_stamps (now : DateTime) (n : Nat) (e : Mem) : Within StampBytes e (writtenEntry now n e) := by
  have hsize : Within StampBytes e
      (if n > dirFileSize e 0 then writeLE e 0x1C 4 n else e) := by
    split
    · exact writeLE_within.mono fun x hx => .inr (.inr hx)
    · exact .refl _ _
  have hchange : ∀ a, 0x16 ≤ a → a + 2 ≤ 0x1A → ∀ x, Span a 2 x → StampBytes x :=
    fun a h1 h2 x hx => .inr (.inl (hx.mono h1 (by omega)))
  exact ((hsize.write fun x hx => .inl hx).write (hchange 0x18 (by decide) (by decide))).write
    (hchange 0x16 (by decide) (by decide))

lemma findDirEntry_stamps {entries entries' : Mem} (h : ∀ k t, k < i + n → t < sizeofDirEntry → ¬ StampBytes t →
      entries' (sizeofDirEntry * k + t) = entries (sizeofDirEntry * k + t)) :
    findDirEntry entries' c n i = findDirEntry entries c n i := by
  induction n generalizing i with
  | zero => rfl
  | succ n ih =>
    have hbyte : ∀ t, t < sizeofDirEntry → ¬ StampBytes t →
        entries' (sizeofDirEntry * i + t) = entries (sizeofDirEntry * i + t) := fun t => h i t (by omega)
    have hnot : ∀ t, t < 0x12 ∨ t = 0x14 ∨ t = 0x15 ∨ t = 0x1A ∨ t = 0x1B → ¬ StampBytes t := by
      intro t ht hs
      unfold StampBytes Span at hs
      omega
    have hfree : isFree entries' (sizeofDirEntry * i) = isFree entries (sizeofDirEntry * i) := by
      rw [isFree, isFree, ← Nat.add_zero (sizeofDirEntry * i), hbyte 0 (by decide) (hnot 0 (by decide))]
    have hlong : isLong entries' (sizeofDirEntry * i) = isLong entries (sizeofDirEntry * i) := by
      rw [isLong, isLong, dirAttr, dirAttr, hbyte 0xB (by decide) (hnot _ (by decide))]
    have hcluster : dirCluster entries' (sizeofDirEntry * i) = dirCluster entries (sizeofDirEntry * i) := by
      have hword : ∀ t, t = 0x14 ∨ t = 0x1A → readLE entries' (sizeofDirEntry * i + t) 2 =
          readLE entries (sizeofDirEntry * i + t) 2 := by
        intro t ht
        refine readLE_congr fun x hx => ?_
        obtain ⟨u, rfl⟩ := Nat.exists_eq_add_of_le hx.1
        have hu := hx.2
        rw [Nat.add_assoc]
        refine hbyte _ ?_ (hnot _ (by omega))
        unfold sizeofDirEntry
        omega
      rw [dirCluster, dirCluster, hword _ (.inl rfl), hword _ (.inr rfl)]
    rw [findDirEntry, findDirEntry, hfree, hlong, hcluster, ih fun k t hk => h k t (by omega)]

lemma Chain.not_span (g : Geometry fd) (h : Chain fd disk cs) (hd : IsData fd d) (hnot : d ∉ cs)
    (hi : i < cs.length * fd.sectorsPerCluster) {y : Nat} (hy : y < bytesPerCluster fd) :
    ¬ Span (fileSector fd cs i * fd.bytesPerSector) fd.bytesPerSector
      (sectorOf fd d * fd.bytesPerSector + y) := by
  intro hspan
  have hb := g.bytesPerSector_pos
  have hq := g.sectorsPerCluster_pos
  have hdm := Nat.div_add_mod' y fd.bytesPerSector
  have hlt := Nat.mod_lt y hb
  have hspan' : Span ((sectorOf fd d + y / fd.bytesPerSector) * fd.bytesPerSector) fd.bytesPerSector
      (sectorOf fd d * fd.bytesPerSector + y) := by
    rw [Nat.add_mul]
    unfold Span
    omega
  have hk := (Nat.div_lt_iff_lt_mul hq).mpr hi
  have hyq : y / fd.bytesPerSector < fd.sectorsPerCluster := by
    rw [bytesPerCluster, Nat.mul_comm] at hy
    exact (Nat.div_lt_iff_lt_mul hb).mpr hy
  obtain ⟨heq, -⟩ := sectorOf_inj g (h.isData hk) hd (Nat.mod_lt i hq) hyq (sector_disjoint hspan hspan')
  rw [List.getD_eq_getElem _ _ hk] at heq
  exact hnot (heq ▸ List.getElem_mem hk)

section Calls

variable {now : DateTime} {buffer : Mem} {index : Nat}

section

variable (g : Geometry fd) (h : Chain fd v.disk (c :: cs)) (hn : 0 < n)
  (hin : i + n ≤ (c :: cs).length * fd.sectorsPerCluster)
include g h hn hin

lemma fatWriteFile_runs :
    Runs (fun _ => False) (fatWriteFile fd now (sectorOf fd c) i (sectorOf fd d) buffer n) v fun r v' =>
      ∀ m, r = .ok m → m = n ∧ ∃ disk index e, Stored fd (c :: cs) i n buffer v.disk disk ∧
        findDirEntry (clusterBytes fd disk d) c (bytesPerCluster fd / sizeofDirEntry) 0 = some index ∧
        Within StampBytes (fun x => disk (entryAddr fd d index + x)) e ∧
        v'.disk = copyTo disk (entryAddr fd d index) sizeofDirEntry e := by
  rw [fatWriteFile]
  refine .assert_bind nofun fun _ => ?_
  refine .ite (fun h0 => by omega) fun _ => ?_
  refine (skipClusters_start g h true (i + 1) (by omega)).seq ?_ fun _ _ _ => nofun
  rintro s v1 ⟨hv1, hs⟩
  refine .assert_bind nofun fun _ => ?_
  rw [← hv1] at h
  dsimp only
  rw [hs s rfl]
  refine (writeSectors_runs g h hn hin).seq ?_ fun _ _ _ => nofun
  intro _ v2 hst
  refine (getDirEntryFromSector_runs g (h.data c (List.mem_cons_self ..))).seq ?_ fun _ _ _ => nofun
  rintro ⟨index, e⟩ v3 ⟨hv3, he⟩
  obtain ⟨hfind, rfl⟩ := he index e rfl
  have hlt := entry_le (findDirEntry_some hfind).1
  refine (writeDirEntryToSector_runs hlt).seq ?_ fun _ _ _ => nofun
  intro _ v4 hv4
  refine .pure fun m hm => ?_
  cases hm
  have hstored := hst () rfl
  simp only [Nat.zero_add] at hstored
  rw [hv1] at hstored
  exact ⟨rfl, v2.disk, index, _, hstored, hfind, writtenEntry_stamps _ _ _, by rw [hv4 () rfl, hv3]⟩

lemma fatReadFile_runs :
    Runs (fun _ => False) (fatReadFile fd now (sectorOf fd c) i (sectorOf fd d) buffer n) v fun r v' =>
      ∀ m buffer', r = .ok (m, buffer') → m = n ∧ Loaded fd (c :: cs) i n 0 v.disk buffer buffer' ∧
        ∃ index e, findDirEntry (clusterBytes fd v.disk d) c (bytesPerCluster fd / sizeofDirEntry) 0 =
          some index ∧ Within StampBytes (fun x => v.disk (entryAddr fd d index + x)) e ∧
        v'.disk = copyTo v.disk (entryAddr fd d index) sizeofDirEntry e := by
  rw [fatReadFile]
  refine .assert_bind nofun fun _ => ?_
  refine .ite (fun h0 => by omega) fun _ => ?_
  refine (skipClusters_start g h false (i + 1) (by omega)).seq ?_ fun _ _ _ => nofun
  rintro s v1 ⟨hv1, hs⟩
  refine .assert_bind nofun fun _ => ?_
  rw [← hv1] at h ⊢
  dsimp only
  rw [hs s rfl]
  refine (readSectors_runs g h hn hin).seq ?_ fun _ _ _ => nofun
  rintro ⟨left, b⟩ v2 ⟨hv2, hres⟩
  obtain ⟨rfl, hload⟩ := hres left b rfl
  refine (getDirEntryFromSector_runs g (h.data c (List.mem_cons_self ..))).seq ?_ fun _ _ _ => nofun
  rintro ⟨index, e⟩ v3 ⟨hv3, he⟩
  obtain ⟨hfind, rfl⟩ := he index e rfl
  refine (writeDirEntryToSector_runs (entry_le (findDirEntry_some hfind).1)).seq ?_ fun _ _ _ => nofun
  intro _ v4 hv4
  refine .pure fun m buffer' hm => ?_
  cases hm
  rw [hv2] at hfind
  refine ⟨Nat.sub_zero n, hload, index, _, hfind, ?_, by rw [hv4 () rfl, hv3, hv2]⟩
  exact writeLE_within.mono fun x hx => .inl hx

end

/-- The bytes that a transfer of `n` sectors of a file may change: those sectors, and the stamps in the
    entry at `a`. -/
def FileBytes (fd : FatData) (cs : List Nat) (i n a : Nat) (x : Nat) : Prop :=
  (∃ j < n, Span (fileSector fd cs (i + j) * fd.bytesPerSector) fd.bytesPerSector x) ∨
    ∃ t, StampBytes t ∧ x = a + t

lemma stampBytes_lt {t : Nat} (h : StampBytes t) : t < sizeofDirEntry := by
  unfold StampBytes Span at h
  unfold sizeofDirEntry
  omega

lemma FileBytes.dataRegion {x : Nat} (h : FileBytes fd cs i n (entryAddr fd d index) x) : DataRegion fd x := by
  rcases h with ⟨j, -, hx⟩ | ⟨t, -, rfl⟩
  · exact (Nat.mul_le_mul_right _ (firstDataSector_le_fileSector ..)).trans hx.1
  · have := Nat.mul_le_mul_right fd.bytesPerSector (firstDataSector_le_sectorOf fd d)
    unfold DataRegion entryAddr
    omega

lemma findDirEntry_of_fileBytes (g : Geometry fd) (h : Chain fd disk cs) (hd : IsData fd d) (hnot : d ∉ cs)
    (hin : i + n ≤ cs.length * fd.sectorsPerCluster)
    (hw : Within (FileBytes fd cs i n (entryAddr fd d index)) disk disk') :
    findDirEntry (clusterBytes fd disk' d) c (bytesPerCluster fd / sizeofDirEntry) 0 =
      findDirEntry (clusterBytes fd disk d) c (bytesPerCluster fd / sizeofDirEntry) 0 := by
  refine findDirEntry_stamps fun k t hk ht hstamp => hw _ ?_
  have hle := entry_le hk
  rintro (⟨j, hj, hspan⟩ | ⟨u, hu, heq⟩)
  · exact h.not_span g hd hnot (by omega) (by omega) hspan
  · -- a stamp of another entry is not in this one
    have hu32 := stampBytes_lt hu
    have : t = u := by
      unfold entryAddr sizeofDirEntry at *
      omega
    exact hstamp (this ▸ hu)

/-- What is written to a file is read again. Apart from the sectors addressed, writing and reading
    change dates, times and the size in the entry of the file only. -/
theorem write_then_read (g : Geometry fd) {now' : DateTime} {target target' : Mem} {m k : Nat}
    {v1 v2 : Volume} (hch : Chain fd v.disk (c :: cs)) (hd : IsData fd d) (hnot : d ∉ c :: cs)
    (hn : 1 ≤ n) (hin : i + n ≤ (c :: cs).length * fd.sectorsPerCluster)
    (hw : fatWriteFile fd now (sectorOf fd c) i (sectorOf fd d) buffer n v = .ok (.ok m, v1))
    (hr : fatReadFile fd now' (sectorOf fd c) i (sectorOf fd d) target n v1 = .ok (.ok (k, target'), v2)) :
    m = n ∧ k = n ∧ (∀ x < n * fd.bytesPerSector, target' x = buffer x) ∧
      ∃ index, EntryOf fd v.disk d index c ∧
        Within (FileBytes fd (c :: cs) i n (entryAddr fd d index)) v.disk v2.disk := by
  obtain ⟨hm, mid, index, e, hst, hfind, he, hv1⟩ := (fatWriteFile_runs g hch hn hin).apply hw m rfl
  -- the write: sectors, then stamps
  have hmid : Within (FileBytes fd (c :: cs) i n (entryAddr fd d index)) v.disk mid :=
    hst.others.mono fun x hx => .inl hx
  have hstamp : Within (FileBytes fd (c :: cs) i n (entryAddr fd d index)) mid v1.disk := by
    rw [hv1]
    exact (copyTo_stamps he).mono fun x hx => .inr hx
  have hwritten := hmid.trans hstamp
  have hsame := findDirEntry_of_fileBytes (c := c) g hch hd hnot hin hmid
  rw [hfind] at hsame
  -- the read finds the same chain and the same entry
  have hregion := hwritten.mono fun x hx => hx.dataRegion
  obtain ⟨hk, hload, index', e', hfind', he', hv2⟩ :=
    (fatReadFile_runs g (hch.of_data g hregion) hn hin).apply hr k target' rfl
  rw [findDirEntry_of_fileBytes g hch hd hnot hin hwritten, ← hsame] at hfind'
  cases hfind'
  refine ⟨hm, hk, ?_, index, ?_, ?_⟩
  · intro x hx
    have hb := g.bytesPerSector_pos
    have hj := (Nat.div_lt_iff_lt_mul hb).mpr hx
    have hbyte := hload.bytes _ _ hj (Nat.mod_lt x hb)
    rw [Nat.zero_add, Nat.div_add_mod'] at hbyte
    rw [hbyte, hv1, copyTo_stamps he, hst.bytes _ _ hj (Nat.mod_lt x hb), Nat.div_add_mod']
    -- the entry is not in a sector of the file
    rintro ⟨t, ht, heq⟩
    have hle := entry_le (findDirEntry_some hfind).1
    have hlt := stampBytes_lt ht
    refine hch.not_span g hd hnot (i := i + x / fd.bytesPerSector) (by omega)
      (y := sizeofDirEntry * index + t) (by omega) ?_
    rw [← Nat.add_assoc, ← entryAddr, ← heq]
    exact ⟨Nat.le_add_right .., Nat.add_lt_add_left (Nat.mod_lt x hb) _⟩
  · obtain ⟨hlt, hused, hshort, hcluster⟩ := findDirEntry_some hsame.symm
    exact ⟨entry_le hlt, hused, hshort, hcluster⟩
  · refine hwritten.trans ?_
    rw [hv2]
    exact (copyTo_stamps he').mono fun x hx => .inr hx

def oneFile : Mem := fun x =>
  if x < 545 * 512 ∨ 546 * 512 ≤ x then 0xFF
  else if x = 545 * 512 then 65 else if x = 545 * 512 + 0x1A then 3 else 0

lemma oneFile_chain : Chain sampleData oneFile [3] where
  data := by simp; decide
  linked := fun k hk => by simp at hk
  ends := by
    rintro c ⟨⟩
    decide
  nodup := List.nodup_singleton 3

/-- A volume with two sectors in a cluster. -/
def pairData : FatData := { sampleData with
  rootDirectoryStartSector := 546, firstDataSector := 546, sectorsPerCluster := 2, allocationSize := 1024 }

lemma pairData_geometry : Geometry pairData := by constructor <;> decide

/-- A file in the clusters 3, 5 and 4. -/
def pairFile : Mem := setEntry pairData (setEntry pairData (fun x =>
  if x < 546 * 512 ∨ 548 * 512 ≤ x then 0xFF
  else if x = 546 * 512 then 65 else if x = 546 * 512 + 0x1A then 3 else 0) 3 5) 5 4

lemma pairFile_chain : Chain pairData pairFile [3, 5, 4] where
  data := by simp; decide
  linked := fun k hk => (by decide : ∀ k < 2, successor pairData pairFile ([3, 5, 4].getD k 0) =
    some ([3, 5, 4].getD (k + 1) 0)) k (Nat.lt_of_succ_lt_succ hk)
  ends := by
    rintro c ⟨⟩
    decide
  nodup := by decide

/-- Four sectors written to this file from its second one on are read again. -/
theorem write_then_read_pairFile : ∃ m k v1 v2 target,
      fatWriteFile pairData ⟨1, 1, 2000, 0, 0, 0⟩ (sectorOf pairData 3) 1 (sectorOf pairData 2)
        (fun x => UInt8.ofNat x) 4 ⟨pairFile, 0⟩ = .ok (.ok m, v1) ∧
      fatReadFile pairData ⟨1, 1, 2000, 0, 0, 0⟩ (sectorOf pairData 3) 1 (sectorOf pairData 2)
        (fun _ => 0) 4 v1 = .ok (.ok (k, target), v2) ∧
      m = 4 ∧ k = 4 ∧ ∀ x < 4 * pairData.bytesPerSector, target x = UInt8.ofNat x := by
  obtain ⟨⟨k, target⟩, v2, hrun, -⟩ : ∃ p v2, (do
      let _ ← fatWriteFile pairData ⟨1, 1, 2000, 0, 0, 0⟩ (sectorOf pairData 3) 1
        (sectorOf pairData 2) (fun x => UInt8.ofNat x) 4
      fatReadFile pairData ⟨1, 1, 2000, 0, 0, 0⟩ (sectorOf pairData 3) 1 (sectorOf pairData 2)
        (fun _ => 0) 4) ⟨pairFile, 0⟩ = .ok (.ok p, v2) ∧ true = true := exists_of_any (by decide)
  obtain ⟨m, v1, hw, hr⟩ := bind_eq_ok.mp hrun
  obtain ⟨hm, hk, hbytes, -⟩ := write_then_read pairData_geometry pairFile_chain (by decide) (by decide)
    (by decide) (by decide) hw hr
  exact ⟨m, k, v1, v2, target, hw, hr, hm, hk, hbytes⟩

end Calls

end HAL9000.Fat32
