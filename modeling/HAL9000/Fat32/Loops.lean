import Mathlib.Order.Interval.Finset.Nat
import HAL9000.Lib.Fuel
import HAL9000.Fat32.Directory

/-!
# FAT32: how long the loops over a chain go on

`FatSearch`, `FatQueryDirectory` and `FatCreateDirectoryEntry` follow a chain to the mark at its end, and
nothing else stops them. A call comes to an end just if its walks over the directories do, and, for a new entry,
the chain of the parent; if no chain of the table goes round, this takes a number of reads that depends on the
number of clusters and the length of the path (`walks_end`).
-/

namespace HAL9000.Fat32
open Lib Prog

variable {fd : FatData} {v : Volume} {disk : Mem} {past : Nat → Option UInt8} {c d fuel k n type size : Nat}
  {name rest : List UInt8} {info : Bool}

section Fuel

variable {ρ β : Type} {visit : Visitor ρ β}

/-- More fuel does not change what the loop over a directory does. -/
lemma scanDirectory_fueled (s : Scan ρ) : Fueled (scanDirectory fd past visit · s) := by
  intro n
  induction n generalizing s with
  | zero => exact fun v h => absurd rfl h
  | succ n ih =>
    dsimp only
    rw [scanDirectory, scanDirectory]
    refine (Approx.refl _).bind fun r => ?_
    rcases r with _ | ⟨s', m⟩
    · exact .refl _
    · refine (Approx.refl _).bind fun visited => ?_
      cases visited with
      | leave b => exact .refl _
      | next acc name => exact (Approx.refl _).bind fun b => .ite (.refl _) (ih _)

/-- More fuel does not change a search. -/
lemma fatSearchDirectoryEntry_fueled (sector : Nat) :
    Fueled (fatSearchDirectoryEntry fd past · sector name type info) :=
  fun n => (scanDirectory_fueled _ n).bind fun _ => .refl _

/-- More fuel does not change the search for a path. -/
lemma searchPath_fueled (k sector : Nat) (rest : List UInt8) :
    Fueled (searchPath fd past · type info k sector rest) := by
  intro n
  induction k generalizing sector rest with
  | zero => exact .refl _
  | succ k ih =>
    dsimp only
    rw [searchPath, searchPath]
    exact .ite (.refl _) ((fatSearchDirectoryEntry_fueled _ n).bind fun _ => .ite (.refl _) (ih _ _))

/-- More fuel does not change `FatSearch`. -/
lemma fatSearch_fueled (name : List UInt8) : Fueled (fatSearch fd past · name type info) := by
  intro n
  cases name with
  | nil => exact .refl _
  | cons b rest =>
    dsimp only
    rw [fatSearch, fatSearch]
    exact .ite (.refl _) (.ite (.refl _) (searchPath_fueled _ _ _ n))

/-- More fuel does not change the loop to the last cluster. -/
lemma lastClusterInChain_fueled (c : Nat) : Fueled (lastClusterInChain fd · c) := by
  intro n
  induction n generalizing c with
  | zero => exact fun v h => absurd rfl h
  | succ n ih =>
    dsimp only
    rw [lastClusterInChain, lastClusterInChain]
    exact (Approx.refl _).bind fun e => .ite (.refl _) (ih e)

/-- More fuel does not change the creation of an entry. -/
lemma createIn_fueled {now : DateTime} {sector attr : Nat} : Fueled (createIn fd · now sector name attr) := by
  intro n
  dsimp only
  rw [createIn, createIn]
  exact (Approx.refl _).bind fun c => (lastClusterInChain_fueled c n).bind fun _ => .refl _

end Fuel

section Directories

variable (g : Geometry fd) (hr : Reliable fd)
include g hr

/-- The search of a directory comes to an end just if its walk does. -/
lemma search_halts_iff (hc : IsData fd c) :
    Halts (fatSearchDirectoryEntry fd past · (sectorOf fd c) name type info) v ↔
      Ends (nextPlace fd past v.disk (searchVisit fd name type info)) (firstPlace c v.reads ()) :=
  (exists_congr fun _ => not_congr fatSearchDirectoryEntry_fault).trans
    (scanStart_ends_iff g searchVisit_steady hc hr fun _ _ _ _ _ _ => searchVisit_runs (by simp))

/-- The listing of a directory comes to an end just if its walk does. -/
lemma query_halts_iff (hc : IsData fd c) : Halts (fatQueryDirectory fd past · (sectorOf fd c) size) v ↔
    Ends (nextPlace fd past v.disk (queryVisit fd size)) (firstPlace c v.reads ⟨0, []⟩) :=
  (exists_congr fun _ => not_congr fatQueryDirectory_fault).trans
    (scanStart_ends_iff g queryVisit_steady hc hr fun _ _ _ _ _ _ => queryVisit_runs (by simp))

/-- The loop to the last cluster goes on with the next one. -/
lemma lastClusterInChain_succ (h : successor fd v.disk c = some d) :
    lastClusterInChain fd (fuel + 1) c v = lastClusterInChain fd fuel d ⟨v.disk, v.reads + 1⟩ := by
  rw [lastClusterInChain, bind_of_ok (nextClusterInChain_eq g.clustered hr c), repaired_of_successor h]
  rw [successor] at h
  split at h
  · cases h
  · next hend =>
    cases h
    rw [if_neg hend]

/-- The loop to the last cluster comes to an end just if the chain does. -/
lemma lastClusterInChain_halts_iff : Halts (lastClusterInChain fd · c) v ↔ Ends (successor fd v.disk) c := by
  constructor
  · rintro ⟨n, hn⟩
    by_contra h
    refine hn ?_
    dsimp only
    clear hn
    induction n generalizing c v with
    | zero => rfl
    | succ n ih =>
      obtain ⟨d, hd⟩ := Option.ne_none_iff_exists'.mp fun hn => h (ends_of_none hn)
      rw [lastClusterInChain_succ g hr hd]
      exact ih (mt (ends_succ_iff hd).mpr h)
  · rintro ⟨n, hn⟩
    refine ⟨n, ?_⟩
    dsimp only
    induction n generalizing c v with
    | zero => cases hn
    | succ n ih =>
      cases hs : successor fd v.disk c with
      | none =>
        rw [lastClusterInChain, bind_of_ok (nextClusterInChain_eq g.clustered hr c), if_pos]
        · simp
        · by_contra hend
          rw [successor, if_neg hend] at hs
          cases hs
      | some d =>
        rw [lastClusterInChain_succ g hr hs]
        exact ih (by rwa [follow_succ hs] at hn)

end Directories

section Reads

variable {α β : Type} {x : Fs α} {f : α → Fs β} {m n length offset : Nat}

/-- The program comes to an end, after no more than `n` reads. -/
def EndsWithin (x : Fs α) (v : Volume) (n : Nat) : Prop := Runs (· = .fuel) x v fun _ v' => v'.reads ≤ v.reads + n

/-- The bounds of the parts of a sequence add up. -/
lemma EndsWithin.seq (hx : EndsWithin x v m) (hf : ∀ a v', EndsWithin (f a) v' n) :
    EndsWithin (x >>= f) v (m + n) := by
  refine Runs.seq hx (fun a v' h => Runs.mono (hf a v') fun _ v'' h' => ?_) fun st v' h => ?_
  · omega
  · omega

/-- A read is one read. -/
lemma EndsWithin.read : EndsWithin (ioReadDevice fd.volumeDevice length offset) v 1 :=
  ioReadDevice_runs.mono fun _ v' h => by rw [h.1]

/-- A write is no read. -/
lemma EndsWithin.write {buffer : Mem} : EndsWithin (ioWriteDevice fd.volumeDevice buffer length offset) v 0 :=
  ioWriteDevice_runs.mono fun _ v' h => by rcases h with rfl | rfl <;> exact le_rfl

/-- A computation reads nothing. -/
lemma EndsWithin.ofExcept {y : Except Status α} : EndsWithin (ofExcept y) v 0 := le_refl v.reads

/-- A failure reads nothing. -/
lemma EndsWithin.fail {st : Status} : EndsWithin (fail st : Fs α) v n := Nat.le_add_right ..

/-- A program that comes to an end does so within some number of reads. -/
lemma EndsWithin.of_ne (h : x v ≠ .error .fuel) : ∃ n, EndsWithin x v n := by
  rcases hx : x v with e | ⟨r, v'⟩
  · exact ⟨0, .of_fault hx fun he => h (by rw [hx, he])⟩
  · exact ⟨v'.reads, .of_eq hx (Nat.le_add_left _ _)⟩

/-- A new entry takes three reads once the last cluster of the directory is known. -/
lemma createIn_ends {now : DateTime} {sector attr : Nat} (h : ∀ c, clusterOfSector fd sector = .ok c →
      EndsWithin (lastClusterInChain fd fuel c) v k) :
    EndsWithin (createIn fd fuel now sector name attr) v (k + 3) := by
  rw [createIn]
  cases hs : clusterOfSector fd sector with
  | error st => exact .fail
  | ok parent =>
    rw [ofExcept_ok_bind]
    refine EndsWithin.seq (h parent hs) fun last v => ?_
    refine EndsWithin.seq (m := 0) (n := 3) .ofExcept fun finalSector v => ?_
    refine EndsWithin.seq (m := 1) (n := 2) .read fun entries v => ?_
    dsimp only
    split
    · exact .fail
    refine EndsWithin.seq (m := 1) (n := 1) .read fun fsInfo v => .ite (fun _ => EndsWithin.fail) fun _ => ?_
    refine EndsWithin.seq (m := 0) (n := 1) .write fun _ v => ?_
    refine EndsWithin.seq (m := 0) (n := 1) .write fun _ v => ?_
    refine EndsWithin.seq (m := 0) (n := 1) .ofExcept fun sectorAllocated v => ?_
    refine EndsWithin.seq (m := 0) (n := 1) .write fun _ v => ?_
    exact EndsWithin.seq (m := 1) (n := 0) .read fun fat v => .write

end Reads

section Paths

/-- The directories that the search for a path goes through have walks that end: the one of the first component,
    and those of the rest in the directory that has been found. -/
def PathEnds (fd : FatData) (past : Nat → Option UInt8) (type : Nat) (info : Bool) :
    Nat → Volume → Nat → List UInt8 → Prop
  | 0, _, _, _ => True
  | n + 1, v, c, rest =>
    let length := if clStrchr rest fatDelimiter = 0 then rest.length else clStrchr rest fatDelimiter
    let searched := if clStrchr rest fatDelimiter = 0 then type else attrDirectory
    (length ≥ longNameMaxChars ∨ length = 0) ∨
      Ends (nextPlace fd past v.disk (searchVisit fd (rest.take length) searched info)) (firstPlace c v.reads ()) ∧
      (clStrchr rest fatDelimiter ≠ 0 → ∀ fuel found v' d,
        fatSearchDirectoryEntry fd past fuel (sectorOf fd c) (rest.take length) searched info v =
          .ok (.ok found, v') → IsData fd d → found.sector = sectorOf fd d →
        PathEnds fd past type info n v' d (rest.drop (length + 1)))

/-- The same for a path from the root directory. A path that is not absolute is not looked for. -/
def SearchEnds (fd : FatData) (past : Nat → Option UInt8) (v : Volume) (name : List UInt8) (type : Nat)
    (info : Bool) : Prop :=
  ∀ rest, name = fatDelimiter :: rest → rest ≠ [] → PathEnds fd past type info name.length v (rootCluster fd) rest

/-- What a search finds starts with a cluster. -/
lemma fatSearchDirectoryEntry_found (g : Geometry fd) (hc : IsData fd c) :
    Runs (fun _ => False) (fatSearchDirectoryEntry fd past fuel (sectorOf fd c) name type info) v fun r _ =>
      ∀ found, r = .ok found → ∃ d, IsData fd d ∧ found.sector = sectorOf fd d := by
  refine (fatSearchDirectoryEntry_place g hc).mono ?_
  rintro r v' ⟨q, -, -, h⟩ found hf
  exact ⟨_, (h found hf).2.2.2⟩

variable (g : Geometry fd) (hr : Reliable fd)
include g hr

/-- The search for a path comes to an end just if the walks of its directories do. -/
lemma searchPath_halts_iff (hc : IsData fd c) (hn : rest.length < n) :
    Halts (searchPath fd past · type info n (sectorOf fd c) rest) v ↔ PathEnds fd past type info n v c rest := by
  induction n generalizing v c rest with
  | zero => omega
  | succ n ih =>
    simp only [searchPath, PathEnds]
    have hdrop : clStrchr rest fatDelimiter ≠ 0 → (rest.drop (clStrchr rest fatDelimiter + 1)).length < n := by
      intro hlast
      have := clStrchr_lt hlast
      rw [List.length_drop]
      omega
    generalize hlen : (if clStrchr rest fatDelimiter = 0 then rest.length else clStrchr rest fatDelimiter) = length
    by_cases hbad : length ≥ longNameMaxChars ∨ length = 0
    · simp only [if_pos hbad]
      exact iff_of_true (halts_const (by simp)) (.inl hbad)
    simp only [if_neg hbad]
    refine (halts_bind (f := fun k found => if clStrchr rest fatDelimiter = 0 then pure found
      else searchPath fd past k type info n found.sector (rest.drop (length + 1)))
      (fatSearchDirectoryEntry_fueled _) fun found k => .ite (.refl _) (searchPath_fueled _ _ _ k)).trans ?_
    rw [search_halts_iff g hr hc, or_iff_right hbad]
    refine and_congr_right fun _ => ?_
    by_cases hlast : clStrchr rest fatDelimiter = 0
    · simp only [if_pos hlast]
      exact iff_of_true (fun _ _ _ _ => halts_const (by simp)) fun h => absurd hlast h
    · rw [if_neg hlast] at hlen
      subst hlen
      simp only [if_neg hlast]
      constructor
      · rintro h - fuel found v' d hfound hd hsec
        rw [← ih hd (hdrop hlast), ← hsec]
        exact h fuel found v' hfound
      · intro h fuel found v' hfound
        obtain ⟨d, hd, hsec⟩ := (fatSearchDirectoryEntry_found g hc).apply hfound found rfl
        rw [hsec, ih hd (hdrop hlast)]
        exact h hlast fuel found v' d hfound hd hsec

/-- Creating an entry in a directory comes to an end just if its chain does. -/
lemma createIn_halts_iff (now : DateTime) (name : List UInt8) (attr : Nat) {sector : Nat} :
    Halts (createIn fd · now sector name attr) v ↔
      ∀ c, clusterOfSector fd sector = .ok c → Ends (successor fd v.disk) c := by
  simp only [← lastClusterInChain_halts_iff g hr]
  constructor
  · rintro ⟨n, hn⟩ c hc
    refine ⟨n, fun hlast => hn ?_⟩
    dsimp only
    rw [createIn, hc, ofExcept_ok_bind]
    exact bind_of_fault hlast
  · intro h
    cases hs : clusterOfSector fd sector with
    | error st => exact ⟨0, (createIn_ends (k := 0) fun c hc => by cases hs.symm.trans hc).ne rfl⟩
    | ok c =>
      obtain ⟨n, hn⟩ := h c hs
      obtain ⟨k, hk⟩ := EndsWithin.of_ne hn
      exact ⟨n, (createIn_ends fun c' hc' => by cases hs.symm.trans hc'; exact hk).ne rfl⟩

omit g in
/-- `FatSearch` comes to an end just if the walks of its directories do. -/
lemma fatSearch_halts_iff (m : Mounted fd) :
    Halts (fatSearch fd past · name type info) v ↔ SearchEnds fd past v name type info := by
  cases name with
  | nil => exact iff_of_true (halts_const (by simp)) fun rest h => by cases h
  | cons b rest =>
    simp only [fatSearch]
    by_cases hb : fatDelimiter = b
    · subst hb
      simp only [ne_eq, not_true_eq_false, if_false]
      by_cases hrest : rest = []
      · subst hrest
        refine iff_of_true ⟨0, ?_⟩ fun rest h hne => absurd (List.cons.inj h).2.symm hne
        by_cases ht : type &&& attrDirectory = attrDirectory
        · simp [ht]
        · simp [ht]
      · have hlen : ¬ 1 = (fatDelimiter :: rest).length := fun h => hrest (List.eq_nil_of_length_eq_zero
          (Nat.succ.inj h).symm)
        simp only [if_neg hlen, m.rootSector]
        refine (searchPath_halts_iff m.toGeometry hr m.root (Nat.lt_succ_self rest.length)).trans ?_
        constructor
        · rintro h rest' heq -
          cases heq
          exact h
        · exact fun h => h rest rfl hrest
    · simp only [ne_eq, hb, not_false_eq_true, if_true]
      exact iff_of_true (halts_const (by simp)) fun rest h => absurd (List.cons.inj h).1.symm hb

/-- What a new entry needs: the walks of the search for its parent end, then those of the search for the entry, and
    if there is no such entry, the chain of the parent ends. -/
def CreateEnds (fd : FatData) (past : Nat → Option UInt8) (v : Volume) (name : List UInt8) : Prop :=
  let last := clStrrchr name fatDelimiter
  let parent := if 0 = last then [fatDelimiter] else name.take last
  ¬ (last = 0 ∧ name.head? ≠ some fatDelimiter) →
    ¬ (last ≥ maxPath ∨ (name.drop (last + 1)).length > shortNameChars) →
    SearchEnds fd past v parent attrDirectory false ∧
      ∀ fuel found v1, fatSearch fd past fuel parent attrDirectory false v = .ok (.ok found, v1) →
        SearchEnds fd past v1 name attrNormal false ∧
          ∀ fuel st v2, fatSearch fd past fuel name attrNormal false v1 = .ok (.error st, v2) →
            st ≠ .fileTypeInvalid → ∀ c, clusterOfSector fd found.sector = .ok c → Ends (successor fd v2.disk) c

omit g in
/-- `FatCreateDirectoryEntry` comes to an end just if its walks and the chain of the parent do. -/
lemma fatCreateDirectoryEntry_halts_iff (m : Mounted fd) {now : DateTime} {attr : Nat} :
    Halts (fatCreateDirectoryEntry fd past · now name attr) v ↔ CreateEnds fd past v name := by
  simp only [fatCreateDirectoryEntry, CreateEnds]
  generalize hlast : clStrrchr name fatDelimiter = last
  by_cases hname : last = 0 ∧ name.head? ≠ some fatDelimiter
  · simp only [if_pos hname]
    exact iff_of_true (halts_const (by simp)) fun h => absurd hname h
  by_cases hlong : last ≥ maxPath ∨ (name.drop (last + 1)).length > shortNameChars
  · simp only [if_neg hname, if_pos hlong]
    exact iff_of_true (halts_const (by simp [fault])) fun _ h => absurd hlong h
  simp only [if_neg hname, if_neg hlong]
  rw [imp_iff_right hname, imp_iff_right hlong]
  refine Iff.trans (halts_bind (fatSearch_fueled _) fun found k => ?_) ?_
  · refine (fatSearch_fueled _ k).attempt.bind fun r => ?_
    split
    · exact .refl _
    · exact .refl _
    · exact createIn_fueled k
  refine and_congr (fatSearch_halts_iff hr m) (forall_congr' fun _ => forall₂_congr fun found v1 =>
    imp_congr_right fun _ => ?_)
  refine Iff.trans (halts_bind (fun k => (fatSearch_fueled _ k).attempt) fun r k => ?_) ?_
  · split
    · exact .refl _
    · exact .refl _
    · exact createIn_fueled k
  refine and_congr (halts_attempt.trans (fatSearch_halts_iff hr m)) ?_
  simp only [← createIn_halts_iff m.toGeometry hr now (name.drop (last + 1)) attr]
  constructor
  · intro h fuel st v2 hst hne
    obtain ⟨n, hn⟩ := h fuel (.error st) v2 (attempt_of_ok hst)
    refine ⟨n, ?_⟩
    cases st <;> first | exact absurd rfl hne | exact hn
  · intro h n r v2 hrun
    rcases hx : fatSearch fd past n name attrNormal false v1 with e | ⟨r', v2'⟩
    · cases (attempt_of_fault hx).symm.trans hrun
    cases (attempt_of_ok hx).symm.trans hrun
    rcases r with st | f
    · by_cases hst : st = .fileTypeInvalid
      · subst hst
        exact halts_const (by simp)
      · obtain ⟨k, hk⟩ := h n st v2 hx hst
        refine ⟨k, ?_⟩
        cases st <;> first | exact absurd rfl hst | exact hk
    · exact halts_const (by simp)

end Paths

section Chains

/-- All chains of the data region stay in it and do not go round. -/
def ChainsEnd (fd : FatData) (disk : Mem) : Prop :=
  ∀ c, IsData fd c → (∀ d, successor fd disk c = some d → IsData fd d) ∧ NoRepeat (successor fd disk) c

/-- A chain stays in the data region. -/
lemma ChainsEnd.isData (h : ChainsEnd fd disk) (hc : IsData fd c) {n : Nat}
    (hd : follow (successor fd disk) n c = some d) : IsData fd d :=
  follow_invariant (fun a b ha hb => (h a ha).1 b hb) hc hd

/-- A chain has no more clusters than there are. -/
lemma ChainsEnd.follow_eq_none (h : ChainsEnd fd disk) (hc : IsData fd c) :
    follow (successor fd disk) fd.countOfClusters c = none := by
  have hshort := (h c hc).2.follow_eq_none (S := Finset.Ico 2 (fd.countOfClusters + 2)) fun n x hx =>
    Finset.mem_Ico.mpr (h.isData hc hx)
  rwa [Nat.card_Ico, Nat.add_sub_cancel] at hshort

/-- The same chains on another disk. -/
lemma ChainsEnd.congr {disk' : Mem} (h : ChainsEnd fd disk)
    (hs : successor fd disk' = successor fd disk) : ChainsEnd fd disk' := by
  rw [ChainsEnd, hs]
  exact h

variable {ρ β : Type} {visit : Visitor ρ β} {acc : ρ}

/-- A walk goes along the chain: two reads for every cluster, and as many places as a cluster has entries. -/
lemma follow_chain {q q' : Place ρ} (g : Geometry fd) (hq : q.Inside fd)
    (h : follow (nextPlace fd past disk visit) n q = some q') :
    ∃ t, follow (successor fd disk) t q.cluster = some q'.cluster ∧ q'.reads = q.reads + 2 * t ∧
      q'.index + t * entriesPerCluster fd = q.index + n := by
  induction n generalizing q with
  | zero =>
    cases h
    exact ⟨0, rfl, rfl, by omega⟩
  | succ n ih =>
    rw [follow] at h
    obtain ⟨p, hp, h⟩ := Option.bind_eq_some_iff.mp h
    obtain ⟨t, ht, hreads, hindex⟩ := ih (hq.next g hp) h
    obtain ⟨acc, m, -, ⟨-, -, rfl⟩ | ⟨hend, -, d, hs, -, rfl⟩⟩ := nextPlace_cases hp
    · exact ⟨t, ht, hreads, by dsimp only at hindex; omega⟩
    · refine ⟨t + 1, by rwa [follow_succ hs], by dsimp only at hreads; omega, ?_⟩
      have hin := hq.index
      dsimp only at hindex
      rw [Nat.succ_mul]
      omega

def scanReads (countOfClusters : Nat) : Nat := 2 * countOfClusters + 1

def scanFuel (fd : FatData) : Nat := fd.countOfClusters * entriesPerCluster fd + 1

/-- The loop over a directory makes two reads for every cluster at most. -/
lemma scanStart_bounded (g : Geometry fd) (h : ChainsEnd fd v.disk) (hc : IsData fd c)
    (hv : ∀ sector m a name acc, Steady (visit sector m a name acc))
    (hends : ∀ v sector m a name acc, Runs (· = .fuel) (visit sector m a name acc) v fun _ v' => v' = v)
    (hfuel : scanFuel fd ≤ fuel) :
    Runs (· = .fuel) (scanDirectory fd past visit fuel (scanStart (sectorOf fd c) acc)) v fun _ v' =>
      v'.reads ≤ v.reads + scanReads fd.countOfClusters ∧ successor fd v'.disk = successor fd v.disk := by
  have hfirst : (firstPlace c v.reads acc).Inside fd := ⟨hc, entriesPerCluster_pos g⟩
  have hplace : ∀ n q, follow (nextPlace fd past v.disk visit) n (firstPlace c v.reads acc) = some q →
      q.reads + 1 ≤ v.reads + 2 * fd.countOfClusters ∧ n < fd.countOfClusters * entriesPerCluster fd := by
    intro n q hq
    obtain ⟨t, ht, hreads, hindex⟩ := follow_chain g hfirst hq
    dsimp only [firstPlace] at ht hreads hindex
    have hlt : t < fd.countOfClusters := by
      by_contra hle
      rw [follow_none_mono (h.follow_eq_none hc) (Nat.le_of_not_lt hle)] at ht
      cases ht
    have hin := (hfirst.follow g hq).index
    have hmul := Nat.mul_le_mul_right (entriesPerCluster fd) (Nat.succ_le_of_lt hlt)
    rw [Nat.succ_mul] at hmul
    omega
  obtain ⟨f, rfl⟩ : ∃ f, fuel = f + 1 := ⟨fuel - 1, by unfold scanFuel at hfuel; omega⟩
  have hnone : follow (nextPlace fd past v.disk visit) f (firstPlace c v.reads acc) = none := by
    cases hf : follow (nextPlace fd past v.disk visit) f (firstPlace c v.reads acc) with
    | none => rfl
    | some q =>
      have := (hplace f q hf).2
      unfold scanFuel at hfuel
      omega
  refine (scanStart_walks g hv hc (· = .fuel) ?_ fun _ => hnone).mono ?_
  · rintro k q - e hf rfl
    exact Place.not_faults_fuel hv hends hf
  · rintro r v' ⟨k, q, hq, hfew, hvolume, -⟩
    have := (hplace k q hq).1
    refine ⟨by unfold scanReads; omega, ?_⟩
    rcases hvolume with h | h
    · rw [h]
    · rw [h, successor_repaired]

end Chains

section Bounds

variable (g : Geometry fd) (hc : ChainsEnd fd v.disk) (hfuel : scanFuel fd ≤ fuel)
include g hc hfuel

/-- The search of a directory is bounded by the number of clusters. -/
lemma fatSearchDirectoryEntry_bounded (hd : IsData fd d) :
    Runs (· = .fuel) (fatSearchDirectoryEntry fd past fuel (sectorOf fd d) name type info) v fun r v' =>
      (v'.reads ≤ v.reads + scanReads fd.countOfClusters ∧ successor fd v'.disk = successor fd v.disk) ∧
        ∀ found, r = .ok found → ∃ e, IsData fd e ∧ found.sector = sectorOf fd e := by
  refine Runs.and ?_ (fatSearchDirectoryEntry_found g hd)
  rw [fatSearchDirectoryEntry]
  refine (scanStart_bounded g hc hd searchVisit_steady (fun _ _ _ _ _ _ => searchVisit_runs (by simp))
    hfuel).seq ?_ fun _ _ h => h
  rintro (u | found) v' h
  · exact .fail h
  · exact .pure h

/-- The search for a path goes through no more directories than it has characters. -/
lemma searchPath_bounded (hd : IsData fd d) (hn : rest.length < n) :
    Runs (· = .fuel) (searchPath fd past fuel type info n (sectorOf fd d) rest) v fun _ v' =>
      v'.reads ≤ v.reads + n * scanReads fd.countOfClusters ∧
        successor fd v'.disk = successor fd v.disk := by
  induction n generalizing v d rest with
  | zero => omega
  | succ n ih =>
    rw [searchPath, Nat.add_mul, Nat.one_mul]
    refine .ite (fun _ => .fail ⟨by omega, rfl⟩) fun hlen => ?_
    refine (fatSearchDirectoryEntry_bounded g hc hfuel hd).seq ?_ fun _ v' h => ⟨by omega, h.1.2⟩
    rintro found v' ⟨⟨hreads, hsucc⟩, hfound⟩
    refine .ite (fun _ => .pure ⟨by omega, hsucc⟩) fun hlast => ?_
    obtain ⟨e, he, hsec⟩ := hfound found rfl
    rw [if_neg hlast, hsec]
    have hrest : (rest.drop (clStrchr rest fatDelimiter + 1)).length < n := by
      have := clStrchr_lt hlast
      rw [List.length_drop]
      omega
    refine (ih (hc.congr hsucc) he hrest).mono ?_
    rintro r v'' ⟨hr, hs⟩
    exact ⟨by omega, hs.trans hsucc⟩

omit g in
/-- `FatSearch` is bounded by the number of clusters and the length of the path. -/
lemma fatSearch_bounded (m : Mounted fd) (name : List UInt8) (type : Nat) (info : Bool) :
    Runs (· = .fuel) (fatSearch fd past fuel name type info) v fun _ v' =>
      v'.reads ≤ v.reads + name.length * scanReads fd.countOfClusters ∧
        successor fd v'.disk = successor fd v.disk := by
  cases name with
  | nil => exact .fail ⟨Nat.le_add_right .., rfl⟩
  | cons b rest =>
    rw [fatSearch, m.rootSector]
    refine .ite (fun _ => .fail ⟨Nat.le_add_right .., rfl⟩) fun _ => ?_
    refine .ite (fun _ => ?_) fun _ => searchPath_bounded m.toGeometry hc hfuel m.root (Nat.lt_succ_self _)
    refine .ite (fun _ => .fail ⟨Nat.le_add_right .., rfl⟩) fun _ => ?_
    exact .pure ⟨Nat.le_add_right .., rfl⟩

omit hc hfuel in
/-- The loop to the last cluster makes one read for every cluster. -/
lemma lastClusterInChain_bounded (hk : follow (successor fd v.disk) k c = none) (hfuel : k ≤ fuel) :
    Runs (· = .fuel) (lastClusterInChain fd fuel c) v fun _ v' => v'.reads ≤ v.reads + k := by
  induction fuel generalizing v c k with
  | zero =>
    cases Nat.le_zero.mp hfuel
    cases hk
  | succ fuel ih =>
    obtain ⟨k, rfl⟩ : ∃ j, k = j + 1 := by
      cases k with
      | zero => cases hk
      | succ j => exact ⟨j, rfl⟩
    rw [lastClusterInChain]
    refine (nextClusterInChain_runs g).seq ?_ fun _ v' h => by omega
    rintro e v' ⟨hreads, hdisk, he⟩
    cases he e rfl
    refine .ite (fun _ => .pure (by omega)) fun hend => ?_
    have hsucc : successor fd v'.disk = successor fd v.disk := by
      rcases hdisk with h | h
      · rw [h]
      · rw [h, successor_repaired]
    rw [follow_succ (by rw [successor, if_neg hend])] at hk
    refine (ih (k := k) (by rwa [hsucc]) (by omega)).mono fun _ v'' h => by omega

def readBound (countOfClusters length : Nat) : Nat := 2 * length * scanReads countOfClusters + countOfClusters + 3

omit g in
/-- `FatCreateDirectoryEntry` is bounded by the number of clusters and the length of the path. -/
lemma fatCreateDirectoryEntry_bounded (m : Mounted fd) (now : DateTime) (name : List UInt8) (attr : Nat) :
    EndsWithin (fatCreateDirectoryEntry fd past fuel now name attr) v
      (readBound fd.countOfClusters name.length) := by
  rw [fatCreateDirectoryEntry, readBound, Nat.mul_assoc, Nat.two_mul]
  refine .ite (fun _ => EndsWithin.fail) fun hname => .ite (fun _ => .fault nofun) fun _ => ?_
  have hpath : (if 0 = clStrrchr name fatDelimiter then [fatDelimiter]
      else name.take (clStrrchr name fatDelimiter)).length ≤ name.length := by
    cases name with
    | nil => exact absurd ⟨rfl, nofun⟩ hname
    | cons b rest =>
      split
      · exact Nat.succ_le_succ (Nat.zero_le _)
      · exact List.length_take_le' ..
  have hmul := Nat.mul_le_mul_right (scanReads fd.countOfClusters) hpath
  refine (fatSearch_bounded hc hfuel m _ attrDirectory false).seq ?_ fun _ v' h => by omega
  rintro parent v1 ⟨h1, hs1⟩
  refine Runs.seq (Q := fun _ v' => v'.reads ≤ v1.reads + name.length * scanReads fd.countOfClusters ∧
    successor fd v'.disk = successor fd v1.disk)
    (.attempt (fatSearch_bounded (hc.congr hs1) hfuel m name attrNormal false)) ?_ fun _ v' h => by omega
  rintro r v2 ⟨h2, hs2⟩
  split
  · exact .fail (by omega)
  · exact .fail (by omega)
  · have hcount : fd.countOfClusters ≤ fuel := by
      have := Nat.le_mul_of_pos_right fd.countOfClusters (entriesPerCluster_pos m.toGeometry)
      unfold scanFuel at hfuel
      omega
    have hlast := hc.congr (hs2.trans hs1)
    refine Runs.mono (createIn_ends (k := fd.countOfClusters) fun c hs => ?_) fun _ v' h => by omega
    exact lastClusterInChain_bounded m.toGeometry
      (hlast.follow_eq_none (isData_of_clusterOfSector m.toGeometry hs)) hcount

end Bounds

/-- The root directory is one cluster with a file, and a cluster that no directory leads to follows itself. -/
def orphanedLoop : Mem :=
  setEntry sampleData (fun i => if i = 545 * 512 then 65 else if 545 * 512 < i ∧ i < 545 * 512 + 11 then 32
    else if i = 545 * 512 + 0x1A then 4 else 0) 3 3

/-- The root directory is a cluster that follows itself. -/
def loopingRoot : Mem := setEntry sampleData (fun _ => 0) 2 2

end HAL9000.Fat32
