import Mathlib.Order.Interval.Finset.Nat
import HAL9000.Lib.Reach
import HAL9000.Fat32.Files

/-!
# FAT32: the count of free clusters

The information sector holds the number of free clusters, or a mark that it is not known. Creating an
entry decrements the field in both cases; a recount after an extension covers a part of the table only;
and a chain that runs into a free cluster is ended there without a change of the count. Where the count
is known and the chains do not run into free clusters, it is kept by every call (`count_kept`).
-/

namespace HAL9000.Fat32
open Lib Prog

variable {fd : FatData} {v : Volume} {disk disk' : Mem} {c d n : Nat}

def freeClusters (fd : FatData) (disk : Mem) : Nat :=
  ((Finset.Ico 2 (fd.countOfClusters + 2)).filter (IsFree fd disk)).card

def CountKept (fd : FatData) (disk : Mem) : Prop :=
  freeCount fd disk = unknown ∨ freeCount fd disk = freeClusters fd disk

lemma freeClusters_le (fd : FatData) (disk : Mem) : freeClusters fd disk ≤ fd.countOfClusters :=
  (Finset.card_filter_le _ (IsFree fd disk)).trans (by rw [Nat.card_Ico, Nat.add_sub_cancel])

lemma freeClusters_congr (h : ∀ c, IsData fd c → tableEntry fd disk' c = tableEntry fd disk c) :
    freeClusters fd disk' = freeClusters fd disk := by
  refine congrArg Finset.card (Finset.filter_congr fun c hc => ?_)
  rw [IsFree, IsFree, h c (Finset.mem_Ico.mp hc)]

lemma freeClusters_take (hn : IsData fd n) (hfree : IsFree fd disk n) (htaken : ¬ IsFree fd disk' n)
    (h : ∀ c, IsData fd c → c ≠ n → (IsFree fd disk' c ↔ IsFree fd disk c)) :
    freeClusters fd disk' = freeClusters fd disk - 1 := by
  have hmem : n ∈ (Finset.Ico 2 (fd.countOfClusters + 2)).filter (IsFree fd disk) :=
    Finset.mem_filter.mpr ⟨Finset.mem_Ico.mpr hn, hfree⟩
  rw [freeClusters, freeClusters, ← Finset.card_erase_of_mem hmem]
  congr 1
  ext c
  rw [Finset.mem_erase, Finset.mem_filter, Finset.mem_filter, Finset.mem_Ico]
  by_cases hc : c = n
  · subst hc
    exact ⟨fun hc => absurd hc.2 htaken, fun hc => absurd rfl hc.1⟩
  · exact ⟨fun hx => ⟨hc, hx.1, (h c hx.1 hc).mp hx.2⟩, fun hx => ⟨hx.2.1, (h c hx.2.1 hc).mpr hx.2.2⟩⟩

lemma count_of_data (m : Mounted fd) (hw : Within (DataRegion fd) disk disk')
    (h : freeCount fd disk = freeClusters fd disk) : freeCount fd disk' = freeClusters fd disk' := by
  have hcount : freeCount fd disk' = freeCount fd disk :=
    info_of_data m.toGeometry m.info hw (by decide)
  rw [hcount, h, freeClusters_congr fun c hc => tableEntry_of_data m.toGeometry hw hc.2]

/-- A call takes a cluster only if it is free: the hint that a new entry is made with names a free
    cluster. -/
def TakesFree (fd : FatData) (disk : Mem) : Call → Prop
  | .create .. => IsData fd (nxtFree fd disk) ∧ IsFree fd disk (nxtFree fd disk)
  | _ => True

def OnFile (fd : FatData) (disk : Mem) (baseFileSector dirEntrySector : Nat) : Prop :=
  (∃ c, SoundChain fd disk c ∧ baseFileSector = sectorOf fd c) ∧
    ∃ e, IsData fd e ∧ dirEntrySector = sectorOf fd e

/-- Where the count is known before it may change, and the chains that the call follows do not run into a
    free cluster. -/
def CountSafe (fd : FatData) (disk : Mem) : Call → Prop
  | .create .. => freeCount fd disk ≠ unknown ∧ SoundDirectories fd disk
  | .write _ base _ entry _ _ => freeCount fd disk ≠ unknown ∧ OnFile fd disk base entry
  | .read _ base _ entry _ _ => OnFile fd disk base entry

lemma count_of_created (m : Mounted fd) {now : DateTime} {name : List UInt8} {attr p l index : Nat}
    (hc : CreatedIn fd now disk name attr p l index disk') (hfree : IsFree fd disk (nxtFree fd disk))
    (h : freeCount fd disk = freeClusters fd disk) : freeCount fd disk' = freeClusters fd disk' := by
  have hcount := hc.count
  have hlt := freeCount_lt fd disk
  have htable : ∀ c, IsData fd c → tableEntry fd disk' c =
      if c = nxtFree fd disk then eocMark else tableEntry fd disk c := by
    intro c hcd
    rw [hc.disk_eq, tableEntry_created m.toGeometry hcd.2]
  rw [freeClusters_take hc.hint hfree, ← h, hc.disk_eq, freeCount_created m.toGeometry m.info,
    wsub_eq hlt (by omega)]
  · rw [IsFree, htable _ hc.hint, if_pos rfl]
    decide
  · intro c hcd hne
    rw [IsFree, htable c hcd, if_neg hne, IsFree]

lemma count_of_extended (m : Mounted fd) {info : Mem} (htaken : tableEntry fd disk c ≠ 0)
    (hext : Extendable fd disk n) (hinfo : InfoTaken fd disk n info)
    (h : freeCount fd disk = freeClusters fd disk) :
    freeCount fd (extended fd disk c n info) = freeClusters fd (extended fd disk c n info) := by
  have g := m.toGeometry
  have hl := hext.linked g htaken info
  have hknown : freeCount fd disk ≠ unknown := by
    have := freeClusters_le fd disk
    have := g.clusters
    unfold badCluster at this
    unfold unknown
    omega
  have hcount : freeCount fd (extended fd disk c n info) = fsiFreeCount info :=
    info_copyTo m.info info (by decide)
  rw [freeClusters_take hl.data hl.free hl.end.1, hcount, hinfo.freeCount hknown, h]
  · intro d _ hdn
    by_cases hdc : d = c
    · subst hdc
      rw [IsFree, IsFree, hl.last]
      exact ⟨fun h0 => absurd (h0 ▸ hl.data.1) (by decide), fun h0 => absurd h0 htaken⟩
    · rw [IsFree, IsFree, hl.others d hdc hdn]

lemma countRule (m : Mounted fd) (e : Nat) :
    WriteRule fd e (fun disk c => freeCount fd disk = freeClusters fd disk ∧ SoundChain fd disk c)
      (fun disk => freeCount fd disk = freeClusters fd disk) fun _ => True where
  data := fun _ _ h => h.2.data
  taken := fun _ _ h => h.2.taken
  next := fun _ _ _ h hs _ => ⟨h.1, h.2.next hs⟩
  store := fun disk c disk' h hw => by
    have hd := cluster_within hw
    exact ⟨count_of_data m hd h.1, h.2.of_data m.toGeometry hd⟩
  extend := fun disk c n info h hs hext hinfo => by
    have hl := hext.linked m.toGeometry h.2.taken info
    exact ⟨count_of_extended m h.2.taken hext hinfo h.1, soundChain_of_end hl.data hl.end.1 hl.end.2⟩
  stamp := fun disk c index disk' h _ hw => count_of_data m (stamps_within hw) h.1
  fails := fun _ _ _ => trivial
  lost := fun _ _ _ _ _ => trivial

lemma count_step (m : Mounted fd) (hr : Reliable fd) {call : Call} {v' : Volume}
    (h : CountKept fd v.disk) (hfree : TakesFree fd v.disk call) (hsafe : CountSafe fd v.disk call)
    (hrun : call.run fd v = .ok (.ok (), v')) : CountKept fd v'.disk := by
  cases call with
  | create past fuel now name attr =>
    obtain ⟨hknown, hsound⟩ := hsafe
    obtain ⟨p, ⟨-, l, index, hc⟩ | ⟨⟨st, hst⟩, -⟩⟩ :=
      (fatCreateDirectoryEntry_runs m hr hsound hfree.1).apply hrun
    · exact .inr (count_of_created m hc hfree.2 (h.resolve_left hknown))
    · cases hst
  | write now base offset entry buffer n =>
    obtain ⟨hknown, ⟨c, hc, rfl⟩, e, -, rfl⟩ := hsafe
    obtain ⟨k, v1, hw, hv1⟩ := bind_eq_ok.mp hrun
    cases hv1
    have hcount := h.resolve_left hknown
    exact .inr (((fatWriteFile_rule (countRule m e) m.toGeometry hr hcount ⟨hcount, hc⟩).apply hw).1 k rfl)
  | read now base offset entry buffer n =>
    obtain ⟨⟨c, hc, rfl⟩, e, -, rfl⟩ := hsafe
    obtain ⟨k, v1, hread, hv1⟩ := bind_eq_ok.mp hrun
    cases hv1
    rcases (fatReadFile_sound m.toGeometry hr hc).apply hread with hsame | ⟨index, -, hw⟩
    · rwa [hsame]
    · have hd := stamps_within hw
      have hcount : freeCount fd v'.disk = freeCount fd v.disk :=
        info_of_data m.toGeometry m.info hd (by decide)
      exact h.imp (fun hu => hcount.trans hu) (count_of_data m hd)

/-- In every run of successful calls that take free clusters only, know the count before they change it
    and follow sound chains, the count in the information sector is right or a mark. -/
theorem count_kept (m : Mounted fd) (hr : Reliable fd)
    (h : Reach (fun v => CountKept fd v.disk) (fun v (call : Call) v' => call.run fd v = .ok (.ok (), v'))
      (fun v call => TakesFree fd v.disk call ∧ CountSafe fd v.disk call) v) :
    CountKept fd v.disk :=
  h.invariant (fun _ h0 => h0) fun _ _ _ hi hok hrun => count_step m hr hi hok.1 hok.2 hrun

def emptyRoot (count : Nat) : Mem := fun x =>
  if 545 * 512 ≤ x ∧ x < 546 * 512 then 0 else oneFree count 3 3 x

lemma tableEntry_emptyRoot (count : Nat) (hc : c < 65538) :
    tableEntry sampleData (emptyRoot count) c = if c = 3 then 0 else eocMark := by
  have htable : tableEntry sampleData (emptyRoot count) c = tableEntry sampleData (oneFree count 3 3) c := by
    refine tableEntry_congr fun x hx => if_neg fun hin => ?_
    have hlt : x < 32 * 512 + 4 * c + 4 := hx.2
    omega
  rw [htable, oneFree, tableEntry_setEntry (by decide), tableEntry_allTaken]

lemma emptyRoot_freeClusters (count : Nat) : freeClusters sampleData (emptyRoot count) = 1 := by
  rw [freeClusters, Finset.card_eq_one]
  refine ⟨3, ?_⟩
  ext c
  rw [Finset.mem_filter, Finset.mem_singleton, Finset.mem_Ico]
  constructor
  · rintro ⟨hc, hfree⟩
    rw [IsFree, tableEntry_emptyRoot count hc.2] at hfree
    split at hfree
    · assumption
    · cases hfree
  · rintro rfl
    exact ⟨by decide, tableEntry_emptyRoot count (by decide)⟩

lemma clusterBytes_emptyRoot (count : Nat) {y : Nat} (hy : y < 512) :
    clusterBytes sampleData (emptyRoot count) 2 y = 0 :=
  if_pos ⟨Nat.le_add_right (545 * 512) y, Nat.add_lt_add_left hy (545 * 512)⟩

lemma emptyRoot_directory (count : Nat) (h : Directory sampleData (emptyRoot count) c) : c = 2 := by
  induction h with
  | root => rfl
  | next _ _ hs ih =>
    subst ih
    rw [successor, tableEntry_emptyRoot count (by decide)] at hs
    cases hs
  | entry _ _ hlt _ htype ih =>
    subst ih
    have hepc : entriesPerCluster sampleData = 16 := rfl
    rw [entryType, dirAttr, clusterBytes_emptyRoot count (by unfold sizeofDirEntry; omega)] at htype
    cases htype

lemma emptyRoot_sound (count : Nat) : SoundDirectories sampleData (emptyRoot count) := by
  intro c hc _
  cases emptyRoot_directory count hc
  have hentry := tableEntry_emptyRoot count (c := 2) (by decide)
  refine ⟨by rw [hentry]; decide, fun d hd => ?_⟩
  rw [successor, hentry] at hd
  cases hd

def createA : Call := .create (fun _ => none) 10 ⟨1, 1, 2000, 0, 0, 0⟩ [92, 65] attrNormal

/-- With a count that is known, the count after the call is right. -/
theorem count_kept_emptyRoot : ∃ v, createA.run sampleData ⟨emptyRoot 1, 0⟩ = .ok (.ok (), v) ∧
    CountKept sampleData v.disk := by
  obtain ⟨v, hrun, -⟩ : ∃ v, createA.run sampleData ⟨emptyRoot 1, 0⟩ = .ok (.ok (), v) ∧ True :=
    exists_of_returns (by decide)
  have hcount : freeCount sampleData (emptyRoot 1) = 1 := by decide
  have hkept : CountKept sampleData (emptyRoot 1) := .inr (hcount.trans (emptyRoot_freeClusters 1).symm)
  have hfree : TakesFree sampleData (emptyRoot 1) createA := ⟨by decide, by decide⟩
  have hknown : freeCount sampleData (emptyRoot 1) ≠ unknown := by
    rw [hcount]
    decide
  refine ⟨v, hrun, count_kept sampleData_mounted sampleData_reliable
    (.step (e := createA) (.start (s := ⟨emptyRoot 1, 0⟩) ?_) ?_ ?_)⟩
  · exact hkept
  · exact ⟨hfree, hknown, emptyRoot_sound 1⟩
  · exact hrun

/-- With a count that is not known, the field is the mark less one after the call. -/
theorem unknown_count_decremented :
    CountKept sampleData (emptyRoot unknown) ∧ TakesFree sampleData (emptyRoot unknown) createA ∧
      ∃ v, createA.run sampleData ⟨emptyRoot unknown, 0⟩ = .ok (.ok (), v) ∧
        freeCount sampleData v.disk = 0xFFFFFFFE ∧ ¬ CountKept sampleData v.disk := by
  obtain ⟨v, hrun, hcount⟩ : ∃ v, createA.run sampleData ⟨emptyRoot unknown, 0⟩ = .ok (.ok (), v) ∧
      freeCount sampleData v.disk = 0xFFFFFFFE := exists_of_returns (by decide)
  refine ⟨.inl (by decide), ⟨by decide, by decide⟩, v, hrun, hcount, ?_⟩
  have hle := freeClusters_le sampleData v.disk
  have hclusters : sampleData.countOfClusters = 65536 := rfl
  rintro (h | h)
  · rw [hcount] at h
    cases h
  · rw [hcount] at h
    omega

end HAL9000.Fat32
