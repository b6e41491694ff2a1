import HAL9000.Fat32.Contents

/-!
# FAT32: the entries a call gets to

The loop of `FatSearchDirectoryEntry` and `FatQueryDirectory` is a walk over places: an entry of a cluster,
with the long name put together so far and what has been found out. `nextPlace` is the next one, if the loop
goes on. The walk depends on the bytes of the directory, on the chain of its clusters and on the bytes `past`
behind the buffers; transfers that fail only make the loop stop earlier.

The loop comes to an end just if the walk does (`scanStart_ends_iff`), and it is stopped by a fault just if the
walk gets to a place where this happens (`search_stops`, `query_stops`).
-/

namespace HAL9000.Fat32
open Lib Prog

variable {ρ β : Type} {fd : FatData} {past : Nat → Option UInt8} {disk : Mem} {v : Volume}
  {visit : Visitor ρ β} {c d fuel k : Nat} {bad : Fault → Prop}

section Walk

/-- A place of the loop: an entry of a cluster, the number of reads made so far, the long name put together so
    far, and what has been found out. -/
structure Place (ρ : Type) where
  cluster : Nat
  index : Nat
  reads : Nat
  longName : Mem
  acc : ρ

/-- The buffer with the entries of the cluster. -/
abbrev Place.entries (fd : FatData) (disk : Mem) (q : Place ρ) : Mem := clusterBytes fd disk q.cluster

/-- Where the entry is in the buffer. -/
abbrev Place.offset (q : Place ρ) : Nat := sizeofDirEntry * q.index

/-- The variables of the loop at a place. -/
def Place.scan (fd : FatData) (disk : Mem) (q : Place ρ) : Scan ρ :=
  ⟨sectorOf fd q.cluster, some (clusterBytes fd disk q.cluster), q.index, q.longName, q.acc⟩

/-- The variables of the loop behind the entry, before it has been found out where it goes on. -/
def Place.advance (fd : FatData) (disk : Mem) (q : Place ρ) (acc : ρ) (longName : Mem) : Scan ρ :=
  ⟨sectorOf fd q.cluster, some (clusterBytes fd disk q.cluster), q.index + 1, longName, acc⟩

/-- What the loop does at the entry. -/
def Place.look (fd : FatData) (disk : Mem) (visit : Visitor ρ β)
    (q : Place ρ) : Exec (Except Status (Visit ρ β)) :=
  (scanEntry visit (q.scan fd disk) (clusterBytes fd disk q.cluster) ⟨disk, q.reads⟩).map Prod.fst

/-- Behind a short entry the long name is given up: its first byte is set to zero. -/
def Visit.close : Visit ρ β → Visit ρ β
  | .leave b => .leave b
  | .next acc longName => .next acc (Function.update longName 0 0)

/-- Where the loop goes on behind an entry: inside of a cluster at the next entry unless it is an end mark, and
    behind the last entry in the next cluster, if the byte behind the buffer is not zero. -/
def Place.behind (fd : FatData) (past : Nat → Option UInt8) (disk : Mem) (q : Place ρ) (acc : ρ)
    (longName : Mem) : Option (Place ρ) :=
  if q.index + 1 < entriesPerCluster fd then
    if clusterBytes fd disk q.cluster (sizeofDirEntry * (q.index + 1)) = freeAll then none
    else some ⟨q.cluster, q.index + 1, q.reads, longName, acc⟩
  else if (past q.reads).getD freeAll = freeAll then none
  else ((successor fd disk q.cluster).filter (IsData fd ·)).map fun d => ⟨d, 0, q.reads + 2, longName, acc⟩

/-- The loop goes on behind the entry, unless there is an end mark. -/
def Place.goesOn (fd : FatData) (disk : Mem) (visit : Visitor ρ β) (q : Place ρ) : Bool :=
  match q.look fd disk visit with
  | .ok (.ok (.next _ _)) => true
  | _ => false

/-- The next place, if the loop goes on. -/
def nextPlace (fd : FatData) (past : Nat → Option UInt8) (disk : Mem)
    (visit : Visitor ρ β) (q : Place ρ) : Option (Place ρ) :=
  match q.look fd disk visit with
  | .ok (.ok (.next acc longName)) => q.behind fd past disk acc longName
  | _ => none

/-- The first entry of a directory, after its first cluster has been read. -/
def firstPlace (c reads : Nat) (acc : ρ) : Place ρ := ⟨c, 0, reads + 1, fun _ => 0, acc⟩

/-- The fault that stops the loop at a place: one at the entry, or at the byte behind the buffer. -/
def Place.Faults (fd : FatData) (past : Nat → Option UInt8) (disk : Mem)
    (visit : Visitor ρ β) (q : Place ρ) (e : Fault) : Prop :=
  q.look fd disk visit = .error e ∨
    e = .wild ∧ q.goesOn fd disk visit = true ∧ q.index + 1 = entriesPerCluster fd ∧ past q.reads = none

/-- How the loop stops at a place: with two more reads at most, a volume that is as before or repaired, and what
    looking at the entry says. -/
structure Place.Stops (fd : FatData) (disk : Mem) (visit : Visitor ρ β)
    (q : Place ρ) (r : Except Status (ρ ⊕ β)) (v : Volume) : Prop where
  few : v.reads ≤ q.reads + 2
  volume : v.disk = disk ∨ v.disk = repaired fd disk q.cluster
  leave : ∀ b, r = .ok (.inr b) → q.look fd disk visit = .ok (.ok (.leave b))

/-- The place is an entry of a cluster. -/
structure Place.Inside (fd : FatData) (q : Place ρ) : Prop where
  data : IsData fd q.cluster
  index : q.index < entriesPerCluster fd

/-- The loop from a place on. -/
def scanFrom (fd : FatData) (past : Nat → Option UInt8) (disk : Mem)
    (visit : Visitor ρ β) (fuel : Nat) (q : Place ρ) : Fs (ρ ⊕ β) := do
  let visited ← scanEntry visit (q.scan fd disk) (clusterBytes fd disk q.cluster)
  nextEntry fd past (scanDirectory fd past visit fuel) (q.scan fd disk) (clusterBytes fd disk q.cluster) visited

variable {q q' : Place ρ} {acc : ρ} {m : Mem}

/-- Looking at an entry does not depend on the volume if the visit of a short entry does not. -/
lemma scanEntry_steady (hv : ∀ sector m a name acc, Steady (visit sector m a name acc)) (s : Scan ρ)
    (entries : Mem) : Steady (scanEntry visit s entries) := by
  rw [scanEntry]
  refine .ite (.pure _) (.ite ?_ ?_)
  · exact (Steady.ofExec _).bind fun p => (Steady.assert _).bind fun _ => .pure _
  · refine (hv ..).bind fun visited => ?_
    cases visited with
    | leave b => exact .pure _
    | next acc name => exact .pure _

/-- What `FatSearchDirectoryEntry` does at a short entry does not depend on the volume. -/
lemma searchVisit_steady {name : List UInt8} {type : Nat} {info : Bool} (sector : Nat) (m : Mem) (a : Nat)
    (longName : Mem) (acc : Unit) : Steady (searchVisit fd name type info sector m a longName acc) := by
  rw [searchVisit]
  split
  · exact .fault _
  · refine .ite (.ite (.fail _) ?_) (.pure _)
    refine (Steady.ofExcept _).bind fun _ => .ite ?_ (.pure _)
    exact (Steady.ofExec _).bind fun _ => .pure _

/-- What `FatQueryDirectory` does at a short entry does not depend on the volume. -/
lemma queryVisit_steady {size : Nat} (sector : Nat) (m : Mem) (a : Nat) (longName : Mem) (acc : Listing) :
    Steady (queryVisit fd size sector m a longName acc) := by
  rw [queryVisit]
  split
  · exact .fault _
  · refine (Steady.assert _).bind fun _ => .ite ?_ (.pure _)
    exact (Steady.ofExec _).bind fun _ => .pure _

/-- The loop goes on where looking at the entry says so. -/
lemma Place.goesOn_iff : q.goesOn fd disk visit = true ↔
    ∃ acc m, q.look fd disk visit = .ok (.ok (.next acc m)) := by
  rw [Place.goesOn]
  split
  · next acc m h => exact iff_of_true rfl ⟨acc, m, h⟩
  · next h => exact iff_of_false (by simp) fun ⟨acc, m, hl⟩ => h acc m hl

/-- A free entry is passed over. -/
lemma Place.look_free (h : isFree (q.entries fd disk) q.offset = true) :
    q.look fd disk visit = .ok (.ok (.next q.acc q.longName)) := by
  have hentry : scanEntry visit (q.scan fd disk) (q.entries fd disk) = pure (.next q.acc q.longName) := if_pos h
  rw [Place.look, hentry]
  rfl

/-- The characters of a piece of a long name are put in their place. -/
lemma Place.look_long (hf : isFree (q.entries fd disk) q.offset = false)
    (hl : isLong (q.entries fd disk) q.offset = true) : q.look fd disk visit =
      (writePartialLongFatNameToName (q.entries fd disk) q.offset (longNameMaxChars + 1) q.longName).bind
        fun p => if p.1 = .success then .ok (.ok (.next q.acc p.2)) else .error .check := by
  have hentry : scanEntry visit (q.scan fd disk) (q.entries fd disk) = (do
      let p ← Prog.ofExec (writePartialLongFatNameToName (q.entries fd disk) q.offset (longNameMaxChars + 1)
        q.longName)
      Prog.assert (p.1 = .success)
      pure (.next q.acc p.2)) := (if_neg (Bool.eq_false_iff.mp hf)).trans (if_pos hl)
  rw [Place.look, hentry]
  cases hw : writePartialLongFatNameToName (q.entries fd disk) q.offset (longNameMaxChars + 1) q.longName with
  | error e => rfl
  | ok p =>
    rw [bind_of_ok (show ofExec (.ok p) (Volume.mk disk q.reads) = .ok (.ok p, _) from rfl)]
    by_cases hp : p.1 = .success
    · rw [assert_pos hp]
      exact (if_pos hp).symm
    · rw [assert_neg hp]
      exact (if_neg hp).symm

/-- At a short entry the loop does what the visit says. -/
lemma Place.look_short (hf : isFree (q.entries fd disk) q.offset = false)
    (hl : isLong (q.entries fd disk) q.offset = false) : q.look fd disk visit =
      (visit (sectorOf fd q.cluster) (q.entries fd disk) q.offset q.longName q.acc ⟨disk, q.reads⟩).map
        fun r => r.1.map Visit.close := by
  have hentry : scanEntry visit (q.scan fd disk) (q.entries fd disk) = (do
      let visited ← visit (sectorOf fd q.cluster) (q.entries fd disk) q.offset q.longName q.acc
      match visited with
      | .leave b => pure (.leave b)
      | .next acc longName => pure (.next acc (Function.update longName 0 0))) :=
    (if_neg (Bool.eq_false_iff.mp hf)).trans (if_neg (Bool.eq_false_iff.mp hl))
  rw [Place.look, hentry]
  rcases h : visit (sectorOf fd q.cluster) (q.entries fd disk) q.offset q.longName q.acc ⟨disk, q.reads⟩ with
    e | ⟨st | ⟨acc, m⟩ | b, v'⟩
  · rw [bind_of_fault h]
    rfl
  · rw [bind_of_fail h]
    rfl
  · rw [bind_of_ok h]
    rfl
  · rw [bind_of_ok h]
    rfl

/-- The loop is left at a short entry only. -/
lemma Place.look_leave {b : β} (h : q.look fd disk visit = .ok (.ok (.leave b))) :
    isFree (q.entries fd disk) q.offset = false ∧ isLong (q.entries fd disk) q.offset = false ∧ ∃ v',
      visit (sectorOf fd q.cluster) (q.entries fd disk) q.offset q.longName q.acc ⟨disk, q.reads⟩ =
        .ok (.ok (.leave b), v') := by
  cases hf : isFree (q.entries fd disk) q.offset with
  | true =>
    rw [Place.look_free hf] at h
    cases h
  | false =>
    cases hl : isLong (q.entries fd disk) q.offset with
    | true =>
      rw [Place.look_long hf hl] at h
      rcases hw : writePartialLongFatNameToName (q.entries fd disk) q.offset (longNameMaxChars + 1) q.longName with
        e | p
      · rw [hw] at h
        cases h
      · rw [hw] at h
        change (if p.1 = .success then _ else _) = _ at h
        split at h
        · cases h
        · cases h
    | false =>
      rw [Place.look_short hf hl] at h
      refine ⟨rfl, rfl, ?_⟩
      rcases hx : visit (sectorOf fd q.cluster) (q.entries fd disk) q.offset q.longName q.acc ⟨disk, q.reads⟩ with
        e | ⟨st | ⟨acc, m⟩ | b', v'⟩
      · rw [hx] at h
        cases h
      · rw [hx] at h
        cases h
      · rw [hx] at h
        cases h
      · rw [hx] at h
        cases h
        exact ⟨v', rfl⟩

/-- The next place is the next entry of the cluster, or the first one of the next cluster. -/
lemma nextPlace_cases (h : nextPlace fd past disk visit q = some q') : ∃ acc m,
    q.look fd disk visit = .ok (.ok (.next acc m)) ∧
      (q.index + 1 < entriesPerCluster fd ∧ q.entries fd disk (sizeofDirEntry * (q.index + 1)) ≠ freeAll ∧
        q' = ⟨q.cluster, q.index + 1, q.reads, m, acc⟩ ∨
      entriesPerCluster fd ≤ q.index + 1 ∧ (past q.reads).getD freeAll ≠ freeAll ∧
        ∃ d, successor fd disk q.cluster = some d ∧ IsData fd d ∧ q' = ⟨d, 0, q.reads + 2, m, acc⟩) := by
  rw [nextPlace] at h
  split at h
  · next acc m hl =>
    refine ⟨acc, m, hl, ?_⟩
    rw [Place.behind] at h
    split at h
    · next hin =>
      obtain ⟨hmark, h⟩ := Option.ite_none_left_eq_some.mp h
      exact .inl ⟨hin, hmark, (Option.some.inj h).symm⟩
    · next hin =>
      obtain ⟨hpast, h⟩ := Option.ite_none_left_eq_some.mp h
      obtain ⟨d, hd, rfl⟩ := Option.map_eq_some_iff.mp h
      obtain ⟨hs, hd⟩ := Option.filter_eq_some_iff.mp hd
      exact .inr ⟨Nat.le_of_not_lt hin, hpast, d, hs, of_decide_eq_true hd, rfl⟩
  · cases h

/-- The next place is a place of the directory. -/
lemma Place.Inside.next (g : Geometry fd) (hq : q.Inside fd) (h : nextPlace fd past disk visit q = some q') :
    q'.Inside fd := by
  obtain ⟨acc, m, -, ⟨hin, -, rfl⟩ | ⟨-, -, d, -, hd, rfl⟩⟩ := nextPlace_cases h
  · exact ⟨hq.data, hin⟩
  · exact ⟨hd, entriesPerCluster_pos g⟩

/-- All places of a walk are places of the directory. -/
lemma Place.Inside.follow (g : Geometry fd) (hq : q.Inside fd)
    (h : follow (nextPlace fd past disk visit) k q = some q') : q'.Inside fd :=
  follow_invariant (fun _ _ hp => hp.next g) hq h

end Walk

section Refill

variable {s : Scan ρ} {m : Mem}

/-- The body of the loop starts with the entries of the current cluster. -/
lemma scanDirectory_of_refill {s' : Scan ρ} {v' : Volume} (h : refill fd s v = .ok (.ok (some (s', m)), v')) :
    scanDirectory fd past visit (fuel + 1) s v =
      (do
        let visited ← scanEntry visit s' m
        nextEntry fd past (scanDirectory fd past visit fuel) s' m visited : Fs (ρ ⊕ β)) v' := by
  rw [scanDirectory]
  exact bind_of_ok h

/-- The first byte of an entry inside of the buffer. -/
lemma peek_inside (g : Geometry fd) {index : Nat} (h : index < entriesPerCluster fd) :
    peek fd past m index v = .ok (.ok (m (sizeofDirEntry * index)), v) := by
  refine if_pos ?_
  rw [← sizeofDirEntry_mul_entriesPerCluster g]
  exact (Nat.mul_lt_mul_left (by decide)).mpr h

/-- The byte behind the buffer. -/
lemma peek_behind (g : Geometry fd) {index : Nat} (h : index = entriesPerCluster fd) {b : UInt8}
    (hb : past v.reads = some b) : peek fd past m index v = .ok (.ok b, v) := by
  rw [peek, h, if_neg (by rw [sizeofDirEntry_mul_entriesPerCluster g]; exact Nat.lt_irrefl _), hb]

/-- The byte behind the buffer, if it must not be looked at. -/
lemma peek_wild (g : Geometry fd) {index : Nat} (h : index = entriesPerCluster fd) (hb : past v.reads = none) :
    peek fd past m index v = .error .wild := by
  rw [peek, h, if_neg (by rw [sizeofDirEntry_mul_entriesPerCluster g]; exact Nat.lt_irrefl _), hb]

/-- Inside of a cluster nothing is read. -/
lemma refill_inside (hi : s.index % entriesPerCluster fd ≠ 0) (he : s.entries = some m) :
    refill fd s v = .ok (.ok (some (s, m)), v) := by
  rw [refill, if_neg hi, he]
  rfl

/-- Behind an entry that is not the last one of its cluster nothing is read. -/
lemma refill_advance {q : Place ρ} {acc : ρ} (h : q.index + 1 < entriesPerCluster fd) :
    refill fd (q.advance fd disk acc m) v =
      .ok (.ok (some (q.advance fd disk acc m, clusterBytes fd disk q.cluster)), v) := by
  refine refill_inside ?_ rfl
  rw [Place.advance, Nat.mod_eq_of_lt h]
  exact Nat.succ_ne_zero _

/-- Behind the last entry of a cluster the next one of the chain is read. -/
lemma refill_behind (g : Geometry fd) (hr : Reliable fd) (hi : s.index % entriesPerCluster fd = 0)
    (he : s.entries = some m) (hsec : s.sectorToParse = sectorOf fd c) (hc : IsData fd c)
    (hs : successor fd v.disk c = some d) (hd : IsData fd d) :
    refill fd s v = .ok (.ok (some ({ s with
        sectorToParse := sectorOf fd d, entries := some (clusterBytes fd v.disk d), index := 0 },
      clusterBytes fd v.disk d)), ⟨v.disk, v.reads + 2⟩) := by
  have hnext := nextSectorInClusterChain_eq (v := v) g.clustered hr hc g.sectorsPerCluster_pos
    fun e he => Option.some.inj (hs.symm.trans he) ▸ hd
  rw [hs, repaired_of_successor hs, Nat.add_zero, ← hsec] at hnext
  rw [refill, if_pos hi, he]
  refine (bind_of_ok hnext).trans ?_
  refine (congrFun (if_neg fun h => (sectorOf_pos g d).ne' h.2) _).trans ?_
  exact (bind_of_ok (ioReadDevice_reliable hr ..)).trans rfl

/-- If transfers may fail, the next cluster is read or the loop stops. -/
lemma refill_behind_runs (g : Geometry fd) (hi : s.index % entriesPerCluster fd = 0) (he : s.entries = some m)
    (hsec : s.sectorToParse = sectorOf fd c) (hc : IsData fd c) :
    Runs bad (refill fd s) v fun r v' =>
      (v'.reads ≤ v.reads + 2 ∧ (v'.disk = v.disk ∨ v'.disk = repaired fd v.disk c)) ∧
      ∀ p, r = .ok (some p) → ∃ d, successor fd v.disk c = some d ∧
        IsData fd d ∧ v' = ⟨v.disk, v.reads + 2⟩ ∧ p = ({ s with
          sectorToParse := sectorOf fd d, entries := some (clusterBytes fd v.disk d), index := 0 },
        clusterBytes fd v.disk d) := by
  rw [refill, if_pos hi, he, hsec]
  refine (nextSectorInClusterChain_runs g hc).seq ?_ fun st v1 h => ⟨⟨by omega, h.2.1⟩, by simp⟩
  rintro next v1 ⟨hreads, hdisk, hnext⟩
  dsimp only
  refine .ite (fun _ => .pure ⟨⟨by omega, hdisk⟩, by simp⟩) fun hne => ?_
  refine ioReadDevice_runs.seq ?_ fun st v2 h => h.1 ▸ ⟨⟨by dsimp only; omega, hdisk⟩, by simp⟩
  rintro m v2 ⟨rfl, hm⟩
  refine .pure ⟨⟨by dsimp only; omega, hdisk⟩, fun p hp => ?_⟩
  cases hp
  obtain ⟨-, rfl⟩ | ⟨d, hd, hdd, rfl⟩ := hnext next rfl
  · exact absurd ⟨rfl, rfl⟩ hne
  · rw [repaired_of_successor hd, or_self] at hdisk
    rw [hm m rfl, hdisk, hreads]
    exact ⟨d, hd, hdd, rfl, rfl⟩

end Refill

section Steps

variable {q q' : Place ρ} {acc : ρ} (g : Geometry fd)
  (hv : ∀ sector m a name acc, Steady (visit sector m a name acc))

include hv in
/-- What the loop does at an entry, on any volume. -/
lemma scanEntry_look (fd : FatData) (disk : Mem) (q : Place ρ) (v : Volume) :
    scanEntry visit (q.scan fd disk) (clusterBytes fd disk q.cluster) v = (q.look fd disk visit).map (·, v) := by
  obtain ⟨r, hr⟩ := scanEntry_steady hv (q.scan fd disk) (clusterBytes fd disk q.cluster)
  rw [Place.look, hr, hr]
  cases r with
  | error e => rfl
  | ok r => rfl

include g hv

/-- If there is a next place, the condition of the loop holds. -/
lemma scanFrom_again (hq : q.Inside fd) (h : nextPlace fd past disk visit q = some q')
    (hl : q.look fd disk visit = .ok (.ok (.next acc m))) :
    scanFrom fd past disk visit fuel q ⟨disk, q.reads⟩ =
      scanDirectory fd past visit fuel (q.advance fd disk acc m) ⟨disk, q.reads⟩ := by
  have hentry := scanEntry_look hv fd disk q ⟨disk, q.reads⟩
  rw [hl] at hentry
  obtain ⟨b, hpeek, hb⟩ : ∃ b, peek fd past (clusterBytes fd disk q.cluster) (q.index + 1) ⟨disk, q.reads⟩ =
      .ok (.ok b, ⟨disk, q.reads⟩) ∧ b ≠ freeAll := by
    obtain ⟨_, _, -, ⟨hin, hmark, -⟩ | ⟨hend, hpast, -⟩⟩ := nextPlace_cases h
    · exact ⟨_, peek_inside g hin, hmark⟩
    · cases hp : past q.reads with
      | none =>
        rw [hp] at hpast
        exact absurd rfl hpast
      | some b =>
        rw [hp] at hpast
        exact ⟨b, peek_behind g (Nat.le_antisymm hq.index hend) hp, hpast⟩
  rw [scanFrom, bind_of_ok hentry, nextEntry]
  refine (bind_of_ok hpeek).trans ?_
  rw [if_neg hb]
  rfl

/-- One step of the loop, if no transfer fails. -/
lemma scanFrom_step (hr : Reliable fd) (hq : q.Inside fd) (h : nextPlace fd past disk visit q = some q') :
    scanFrom fd past disk visit (fuel + 1) q ⟨disk, q.reads⟩ =
      scanFrom fd past disk visit fuel q' ⟨disk, q'.reads⟩ := by
  obtain ⟨acc, m, hl, hcase⟩ := nextPlace_cases h
  refine (scanFrom_again g hv hq h hl).trans ?_
  rcases hcase with ⟨hin, -, rfl⟩ | ⟨hend, -, d, hs, hd, rfl⟩
  · exact scanDirectory_of_refill (refill_advance hin)
  · have hend : q.index + 1 = entriesPerCluster fd := Nat.le_antisymm hq.index hend
    exact scanDirectory_of_refill (refill_behind (v := ⟨disk, q.reads⟩) (s := q.advance fd disk acc m) g hr
      (by rw [Place.advance, hend, Nat.mod_self]) rfl rfl hq.data hs hd)

/-- A number of steps of the loop, if no transfer fails. -/
lemma scanFrom_follow (fuel : Nat) (hr : Reliable fd) (hq : q.Inside fd)
    (h : follow (nextPlace fd past disk visit) k q = some q') :
    scanFrom fd past disk visit (fuel + k) q ⟨disk, q.reads⟩ =
      scanFrom fd past disk visit fuel q' ⟨disk, q'.reads⟩ := by
  induction k generalizing q with
  | zero =>
    cases h
    rfl
  | succ k ih =>
    rw [follow] at h
    obtain ⟨p, hp, h⟩ := Option.bind_eq_some_iff.mp h
    rw [← ih (hq.next g hp) h]
    exact scanFrom_step g hv hr hq hp

/-- The fault of a place stops the loop there. -/
lemma scanFrom_fault {e : Fault} (h : q.Faults fd past disk visit e) :
    scanFrom fd past disk visit fuel q ⟨disk, q.reads⟩ = .error e := by
  have hentry := scanEntry_look hv fd disk q ⟨disk, q.reads⟩
  rw [scanFrom]
  rcases h with h | ⟨rfl, h, hend, hpast⟩
  · rw [h] at hentry
    exact bind_of_fault hentry
  · obtain ⟨acc, m, h⟩ := Place.goesOn_iff.mp h
    rw [h] at hentry
    rw [bind_of_ok hentry]
    exact bind_of_fault (peek_wild g hend hpast)

omit g in
/-- The loop is left where the visit of a short entry says so. -/
lemma scanFrom_leave {b : β} (h : q.look fd disk visit = .ok (.ok (.leave b))) :
    scanFrom fd past disk visit fuel q ⟨disk, q.reads⟩ = .ok (.ok (.inr b), ⟨disk, q.reads⟩) := by
  have hentry := scanEntry_look hv fd disk q ⟨disk, q.reads⟩
  rw [h] at hentry
  exact bind_of_ok hentry

/-- The loop stops at an end mark. -/
lemma scanFrom_mark {m : Mem} (h : q.look fd disk visit = .ok (.ok (.next acc m)))
    (hin : q.index + 1 < entriesPerCluster fd)
    (hmark : clusterBytes fd disk q.cluster (sizeofDirEntry * (q.index + 1)) = freeAll) :
    scanFrom fd past disk visit fuel q ⟨disk, q.reads⟩ = .ok (.ok (.inl acc), ⟨disk, q.reads⟩) := by
  have hentry := scanEntry_look hv fd disk q ⟨disk, q.reads⟩
  rw [h] at hentry
  rw [scanFrom, bind_of_ok hentry, nextEntry]
  refine (bind_of_ok (peek_inside g hin)).trans ?_
  rw [if_pos hmark]
  rfl

/-- The body of the loop: no fault of the place is bad, and the rest of the loop has been dealt with. -/
lemma scanBody_runs {again : Scan ρ → Fs (ρ ⊕ β)} {Q : Except Status (ρ ⊕ β) → Volume → Prop} (hq : q.Inside fd)
    (hbad : ∀ e, q.Faults fd past disk visit e → ¬ bad e)
    (hQ : ∀ r, q.Stops fd disk visit r ⟨disk, q.reads⟩ → Q r ⟨disk, q.reads⟩)
    (hagain : ∀ acc m, q.look fd disk visit = .ok (.ok (.next acc m)) →
      (q.index + 1 < entriesPerCluster fd →
        clusterBytes fd disk q.cluster (sizeofDirEntry * (q.index + 1)) ≠ freeAll) →
      (q.index + 1 = entriesPerCluster fd → (past q.reads).getD freeAll ≠ freeAll) →
      Runs bad (again (q.advance fd disk acc m)) ⟨disk, q.reads⟩ Q) :
    Runs bad (do
      let visited ← scanEntry visit (q.scan fd disk) (clusterBytes fd disk q.cluster)
      nextEntry fd past again (q.scan fd disk) (clusterBytes fd disk q.cluster) visited) ⟨disk, q.reads⟩ Q := by
  have hentry := scanEntry_look hv fd disk q ⟨disk, q.reads⟩
  have hstop : ∀ r, (∀ b, r = .ok (.inr b) → q.look fd disk visit = .ok (.ok (.leave b))) →
      Q r ⟨disk, q.reads⟩ := fun r h => hQ r ⟨Nat.le_add_right _ _, .inl rfl, h⟩
  rcases hl : q.look fd disk visit with e | st | ⟨acc, m⟩ | b
  · rw [hl] at hentry
    exact .of_fault (bind_of_fault hentry) (hbad e (.inl hl))
  · rw [hl] at hentry
    exact .of_eq (bind_of_fail hentry) (hstop _ (by simp))
  · rw [hl] at hentry
    refine .bind_of_ok hentry ?_
    rcases Nat.lt_or_eq_of_le (Nat.succ_le_of_lt hq.index) with hin | hend
    · refine .bind_of_ok (peek_inside g hin) (.ite (fun _ => .pure (hstop _ (by simp))) fun hmark => ?_)
      exact hagain acc m hl (fun _ => hmark) fun hend => absurd hend hin.ne
    · cases hp : past q.reads with
      | none =>
        have hgoes := Place.goesOn_iff.mpr ⟨acc, m, hl⟩
        exact .of_fault (bind_of_fault (peek_wild g hend hp)) (hbad .wild (.inr ⟨rfl, hgoes, hend, hp⟩))
      | some b =>
        refine .bind_of_ok (peek_behind g hend hp) (.ite (fun _ => .pure (hstop _ (by simp))) fun hb => ?_)
        exact hagain acc m hl (fun hin => absurd hend hin.ne) fun _ => by rwa [hp]
  · rw [hl] at hentry
    refine .bind_of_ok hentry (.pure (hstop _ fun b' h => ?_))
    cases h
    exact hl

/-- The loop is not stopped by a fault if the walk gets to no place with it, and stops at a place of the walk.
    Transfers may fail. -/
lemma scanFrom_runs (hq : q.Inside fd)
    (hbad : ∀ k q', follow (nextPlace fd past disk visit) k q = some q' →
      ∀ e, q'.Faults fd past disk visit e → ¬ bad e)
    (hfuel : bad .fuel → follow (nextPlace fd past disk visit) fuel q = none) :
    Runs bad (scanFrom fd past disk visit fuel q) ⟨disk, q.reads⟩ fun r v' =>
      ∃ k q', follow (nextPlace fd past disk visit) k q = some q' ∧ q'.Stops fd disk visit r v' := by
  induction fuel generalizing q with
  | zero =>
    exact scanBody_runs g hv hq (hbad 0 q rfl) (fun _ h => ⟨0, q, rfl, h⟩)
      fun _ _ _ _ _ => .fault fun h => by cases hfuel h
  | succ fuel ih =>
    refine scanBody_runs g hv hq (hbad 0 q rfl) (fun _ h => ⟨0, q, rfl, h⟩) fun acc m hl hmark hpast => ?_
    have hnext : ∀ q', q.behind fd past disk acc m = some q' →
        Runs bad (scanFrom fd past disk visit fuel q') ⟨disk, q'.reads⟩ fun r v' =>
          ∃ k p, follow (nextPlace fd past disk visit) k q = some p ∧ p.Stops fd disk visit r v' := by
      intro q' h
      have h : nextPlace fd past disk visit q = some q' := by
        rw [nextPlace, hl]
        exact h
      refine (ih (hq.next g h) (fun k p hp => hbad (k + 1) p (by rwa [follow_succ h])) fun hb => ?_).mono ?_
      · rw [← follow_succ h]
        exact hfuel hb
      · rintro _ v' ⟨k, p, hp, hstop⟩
        exact ⟨k + 1, p, by rwa [follow_succ h], hstop⟩
    rw [scanDirectory]
    rcases Nat.lt_or_eq_of_le (Nat.succ_le_of_lt hq.index) with hin | hend
    · refine .bind_of_ok (refill_advance hin) (hnext ⟨q.cluster, q.index + 1, q.reads, m, acc⟩ ?_)
      rw [Place.behind, if_pos hin, if_neg (hmark hin)]
    · have hmod : (q.advance fd disk acc m).index % entriesPerCluster fd = 0 := by
        rw [Place.advance, ← hend, Nat.mod_self]
      refine (refill_behind_runs (v := ⟨disk, q.reads⟩) g hmod rfl rfl hq.data).seq ?_ fun _ _ h =>
        ⟨0, q, rfl, h.1.1, h.1.2, by simp⟩
      rintro (_ | p) v' ⟨hv', h⟩
      · exact .pure ⟨0, q, rfl, hv'.1, hv'.2, by simp⟩
      · obtain ⟨d, hs, hd, rfl, rfl⟩ := h p rfl
        refine hnext ⟨d, 0, q.reads + 2, m, acc⟩ ?_
        rw [Place.behind, if_neg (by omega), if_neg (hpast hend), hs, Option.filter_some,
          if_pos (decide_eq_true hd)]
        rfl

/-- A walk that does not end uses up any fuel, if no transfer fails. -/
lemma scanFrom_fuel (hr : Reliable fd) (hq : q.Inside fd) (h : ¬ Ends (nextPlace fd past disk visit) q) :
    scanFrom fd past disk visit fuel q ⟨disk, q.reads⟩ = .error .fuel := by
  induction fuel generalizing q with
  | zero =>
    obtain ⟨q', hn⟩ := Option.ne_none_iff_exists'.mp fun hn => h (ends_of_none hn)
    obtain ⟨acc, m, hl, -⟩ := nextPlace_cases hn
    exact scanFrom_again g hv hq hn hl
  | succ fuel ih =>
    obtain ⟨q', hn⟩ := Option.ne_none_iff_exists'.mp fun hn => h (ends_of_none hn)
    rw [scanFrom_step g hv hr hq hn]
    exact ih (hq.next g hn) (mt (ends_succ_iff hn).mpr h)

end Steps

section Start

variable {acc : ρ} (g : Geometry fd) (hv : ∀ sector m a name acc, Steady (visit sector m a name acc))
  (hc : IsData fd c)

/-- The loop starts at the first place, if no transfer fails. -/
lemma scanDirectory_start (hr : Reliable fd) :
    scanDirectory fd past visit (fuel + 1) (scanStart (sectorOf fd c) acc) v =
      scanFrom fd past v.disk visit fuel (firstPlace c v.reads acc) ⟨v.disk, v.reads + 1⟩ := by
  refine scanDirectory_of_refill ?_
  rw [refill, scanStart, Nat.zero_mod, if_pos rfl]
  dsimp only
  rw [pure_bind, if_neg (by simp)]
  exact bind_of_ok (ioReadDevice_reliable hr ..)

include g hv hc

/-- The loop is not stopped by a fault if the walk gets to no place with it, and stops at a place of the walk.
    Transfers may fail. -/
lemma scanStart_walks (bad : Fault → Prop)
    (hbad : ∀ k q, follow (nextPlace fd past v.disk visit) k (firstPlace c v.reads acc) = some q →
      ∀ e, q.Faults fd past v.disk visit e → ¬ bad e)
    (hfuel : bad .fuel → follow (nextPlace fd past v.disk visit) fuel (firstPlace c v.reads acc) = none) :
    Runs bad (scanDirectory fd past visit (fuel + 1) (scanStart (sectorOf fd c) acc)) v fun r v' => ∃ k q,
      follow (nextPlace fd past v.disk visit) k (firstPlace c v.reads acc) = some q ∧
        q.Stops fd v.disk visit r v' := by
  rw [scanDirectory]
  refine refill_scanStart.seq ?_ fun st v' h => h.1 ▸ ⟨0, _, rfl, Nat.le_add_right _ _, .inl rfl, by simp⟩
  rintro p v' ⟨rfl, hp⟩
  obtain ⟨m, rfl, rfl⟩ := hp p rfl
  exact scanFrom_runs (q := firstPlace c v.reads acc) g hv ⟨hc, entriesPerCluster_pos g⟩ hbad hfuel

/-- The loop is not stopped by a fault if the walk gets to no place with it. -/
lemma scanStart_safe {e : Fault} (he : e ≠ .fuel)
    (h : ∀ k q, follow (nextPlace fd past v.disk visit) k (firstPlace c v.reads acc) = some q →
      ¬ q.Faults fd past v.disk visit e) (fuel : Nat) :
    scanDirectory fd past visit fuel (scanStart (sectorOf fd c) acc) v ≠ .error e := by
  cases fuel with
  | zero => exact fun h => he (Except.error.inj h).symm
  | succ fuel =>
    refine (scanStart_walks g hv hc (· = e) ?_ fun h => absurd h.symm he).ne rfl
    rintro k q hq e' he' rfl
    exact h k q hq he'

/-- The loop is stopped at a place with a fault, if no transfer fails. -/
lemma scanStart_fault (hr : Reliable fd) {e : Fault} {q : Place ρ}
    (hq : follow (nextPlace fd past v.disk visit) k (firstPlace c v.reads acc) = some q)
    (hf : q.Faults fd past v.disk visit e) :
    scanDirectory fd past visit (k + 1) (scanStart (sectorOf fd c) acc) v = .error e := by
  have hrun := scanFrom_follow g hv 0 hr ⟨hc, entriesPerCluster_pos g⟩ hq
  rw [Nat.zero_add] at hrun
  exact (scanDirectory_start hr).trans (hrun.trans (scanFrom_fault g hv hf))

omit g hc in
/-- No place runs out of fuel by itself. -/
lemma Place.not_faults_fuel {q : Place ρ}
    (hends : ∀ v sector m a name acc, Runs (· = .fuel) (visit sector m a name acc) v fun _ v' => v' = v) :
    ¬ q.Faults fd past disk visit .fuel := by
  rintro (h | ⟨h, -⟩)
  · have hlook := scanEntry_look hv fd disk q ⟨disk, q.reads⟩
    rw [h] at hlook
    exact (scanEntry_ends (hends _)).ne rfl hlook
  · cases h

/-- The loop comes to an end just if the walk does. -/
theorem scanStart_ends_iff (hr : Reliable fd)
    (hends : ∀ v sector m a name acc, Runs (· = .fuel) (visit sector m a name acc) v fun _ v' => v' = v) :
    (∃ fuel, scanDirectory fd past visit fuel (scanStart (sectorOf fd c) acc) v ≠ .error .fuel) ↔
      Ends (nextPlace fd past v.disk visit) (firstPlace c v.reads acc) := by
  constructor
  · rintro ⟨fuel, h⟩
    by_contra hno
    cases fuel with
    | zero => exact h rfl
    | succ fuel =>
      refine h ((scanDirectory_start hr).trans ?_)
      exact scanFrom_fuel (q := firstPlace c v.reads acc) g hv hr ⟨hc, entriesPerCluster_pos g⟩ hno
  · rintro ⟨n, hn⟩
    refine ⟨n + 1, (scanStart_walks g hv hc (· = .fuel) ?_ fun _ => hn).ne rfl⟩
    rintro k q - e hf rfl
    exact Place.not_faults_fuel hv hends hf

end Start

section Calls

variable {name : List UInt8} {type size sector : Nat} {info : Bool} {e : Fault}

/-- The search of a directory gets to the place. -/
def SearchGets (fd : FatData) (past : Nat → Option UInt8) (v : Volume) (c : Nat) (name : List UInt8)
    (type : Nat) (info : Bool) (q : Place Unit) : Prop :=
  ∃ k, follow (nextPlace fd past v.disk (searchVisit fd name type info)) k (firstPlace c v.reads ()) = some q

/-- The listing of a directory gets to the place. -/
def QueryGets (fd : FatData) (past : Nat → Option UInt8) (v : Volume) (c size : Nat) (q : Place Listing) : Prop :=
  ∃ k, follow (nextPlace fd past v.disk (queryVisit fd size)) k (firstPlace c v.reads ⟨0, []⟩) = some q

/-- Only the loop of a search can be stopped. -/
lemma fatSearchDirectoryEntry_fault : fatSearchDirectoryEntry fd past fuel sector name type info v = .error e ↔
    scanDirectory fd past (searchVisit fd name type info) fuel (scanStart sector ()) v = .error e := by
  rw [fatSearchDirectoryEntry]
  rcases h : scanDirectory fd past (searchVisit fd name type info) fuel (scanStart sector ()) v with
    e' | ⟨st | u | found, v'⟩
  · rw [bind_of_fault h]
    simp
  · rw [bind_of_fail h]
    simp
  · rw [bind_of_ok h]
    simp
  · rw [bind_of_ok h]
    simp

/-- Only the loop of a listing can be stopped. -/
lemma fatQueryDirectory_fault : fatQueryDirectory fd past fuel sector size v = .error e ↔
    scanDirectory fd past (queryVisit fd size) fuel (scanStart sector ⟨0, []⟩) v = .error e := by
  rw [fatQueryDirectory]
  rcases h : scanDirectory fd past (queryVisit fd size) fuel (scanStart sector ⟨0, []⟩) v with
    e' | ⟨st | acc | u, v'⟩
  · rw [bind_of_fault h]
    simp
  · rw [bind_of_fail h]
    simp
  · rw [bind_of_ok h]
    simp
  · cases u

/-- The condition decides whether a fault stops the call: if it holds, the call is not stopped, whatever
    transfers fail; if it does not hold and no transfer fails, it is. -/
def StopsUnless {α : Type} (fd : FatData) (x : Nat → Fs α) (v : Volume) (e : Fault) (cond : Prop) : Prop :=
  (cond → ∀ fuel, x fuel v ≠ .error e) ∧ (Reliable fd → ¬ cond → ∃ fuel, x fuel v = .error e)

variable (g : Geometry fd) (hc : IsData fd c) (he : e ≠ .fuel)
include g hc he

/-- A search is stopped by a fault just if it gets to a place with it. -/
lemma search_stops (past : Nat → Option UInt8) (v : Volume) (name : List UInt8) (type : Nat) (info : Bool) :
    StopsUnless fd (fatSearchDirectoryEntry fd past · (sectorOf fd c) name type info) v e
    (∀ q, SearchGets fd past v c name type info q →
      ¬ q.Faults fd past v.disk (searchVisit fd name type info) e) := by
  constructor
  · exact fun h fuel => mt fatSearchDirectoryEntry_fault.mp
      (scanStart_safe g searchVisit_steady hc he (fun k q hq => h q ⟨k, hq⟩) fuel)
  · intro hr h
    push Not at h
    obtain ⟨q, ⟨k, hk⟩, hf⟩ := h
    exact ⟨k + 1, fatSearchDirectoryEntry_fault.mpr (scanStart_fault g searchVisit_steady hc hr hk hf)⟩

/-- A listing is stopped by a fault just if it gets to a place with it. -/
lemma query_stops (past : Nat → Option UInt8) (v : Volume) (size : Nat) :
    StopsUnless fd (fatQueryDirectory fd past · (sectorOf fd c) size) v e
    (∀ q, QueryGets fd past v c size q → ¬ q.Faults fd past v.disk (queryVisit fd size) e) := by
  constructor
  · exact fun h fuel => mt fatQueryDirectory_fault.mp
      (scanStart_safe g queryVisit_steady hc he (fun k q hq => h q ⟨k, hq⟩) fuel)
  · intro hr h
    push Not at h
    obtain ⟨q, ⟨k, hk⟩, hf⟩ := h
    exact ⟨k + 1, fatQueryDirectory_fault.mpr (scanStart_fault g queryVisit_steady hc hr hk hf)⟩

end Calls

end HAL9000.Fat32
