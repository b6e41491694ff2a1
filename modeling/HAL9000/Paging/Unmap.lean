import HAL9000.Paging.Refine

/-!
# Unmapping a range

Port of `MmuUnmapMemoryEx` (`HAL9000/src/mmu.c`). A range that starts or ends inside a page is widened to whole
pages. The size of the widened range is kept in 32 bits, although the range may have any size: of a range of 4 GB
or more, only what is left of its size is unmapped.
-/

namespace HAL9000.Paging
open Lib

/-- Unmap the pages of a range (C `MmuUnmapMemoryEx`). -/
def mmuUnmapMemoryEx (s : PagingState) (virtualAddress size : Nat) (releaseMemory : Bool) : Exec PagingState := do
  ensure (virtualAddress ≠ 0)
  ensure (size ≠ 0)
  let alignedVirtualAddress := alignAddressLower virtualAddress pageSize
  let alignmentDifferences := wsub 64 virtualAddress alignedVirtualAddress % 2 ^ 32
  let alignedSize := alignAddressUpper (wadd 64 size alignmentDifferences) pageSize % 2 ^ 32
  vmmUnmapMemoryEx s.data.basePhysicalAddress s alignedVirtualAddress alignedSize releaseMemory

def frameOf (s : PagingState) (va : Nat) : Option Nat := translate s.mem s.data.basePhysicalAddress va

def Overlaps (va size page : Nat) : Prop := ∃ i < size, pageOf (wadd 64 va i) = page

/-- What the function is for: the pages that overlap the range lose their frames, and all others keep them. -/
def Unmaps (s : PagingState) (va size : Nat) (release : Bool) : Prop :=
  ∃ s', mmuUnmapMemoryEx s va size release = .ok s' ∧ ∀ a,
    (Overlaps va size (pageOf a) → frameOf s' a = none) ∧
      (¬ Overlaps va size (pageOf a) → frameOf s' a = frameOf s a)

variable {s : PagingState} {f : PageMap} {va size page : Nat} {release : Bool}

/-- The pages that overlap a range are the first ones from its start on. -/
lemma overlaps_iff (hs : 0 < size) (hs' : size ≤ 2 ^ 47) (a : Nat) : Overlaps va size (pageOf a) ↔
      pageIndex (va / 4096 * 4096) (pageOf a) < pageCount va size := by
  unfold pageCount
  have hbyte : ∀ i < size, (pageOf (wadd 64 va i) = pageOf a ↔
      pageIndex (va / 4096 * 4096) (pageOf a) = (va % 4096 + i) / 4096) := by
    intro i hi
    rw [← pageOf_eq_iff (by omega) (by omega), eq_comm]
    have : pageOf (wadd 64 va i) = pageOf (wadd 64 (va / 4096 * 4096) ((va % 4096 + i) / 4096 * pageSize)) := by
      unfold pageOf wadd pageSize
      omega
    rw [this]
  constructor
  · rintro ⟨i, hi, h⟩
    rw [(hbyte i hi).mp h]
    omega
  · intro h
    refine ⟨4096 * pageIndex (va / 4096 * 4096) (pageOf a) - va % 4096, by omega, (hbyte _ (by omega)).mpr ?_⟩
    omega

/-- Past its two assertions the call unmaps whole pages, their number cut off at 32 bits (C `MmuUnmapMemoryEx`). -/
lemma mmuUnmapMemoryEx_eq (h0 : va ≠ 0) (hva : va < 2 ^ 64) (hs : 0 < size) (hs' : size ≤ 2 ^ 47) :
    mmuUnmapMemoryEx s va size release = vmmUnmapMemoryEx s.data.basePhysicalAddress s (va / 4096 * 4096)
      (pageCount va size % 2 ^ 20 * 4096) release := by
  have w : wadd 64 size (wsub 64 va (va / 4096 * 4096) % 2 ^ 32) = va % 4096 + size := by
    unfold wadd wsub
    omega
  have e : alignAddressUpper (va % 4096 + size) pageSize = pageCount va size * 4096 :=
    alignAddressUpper_eq (k := 12) (by omega)
  rw [mmuUnmapMemoryEx, ensure_pos h0, bind_okay, ensure_pos (Nat.ne_of_gt hs), bind_okay,
    alignAddressLower_page hva]
  simp only [w, e, show pageCount va size * 4096 % 2 ^ 32 = pageCount va size % 2 ^ 20 * 4096 by omega]

/-- Any page is mapped by some tables, the first one included. -/
lemma exists_mapped (va : Nat) : ∃ s f, Represents s f ∧ frameOf s va = some 0x200000 := by
  -- the address itself may be null, and another one of the same page is not
  obtain ⟨base, h0, hb, hlt, hpage⟩ : ∃ base, base ≠ 0 ∧ base % 4096 = 0 ∧ base < 2 ^ 64 ∧
    pageOf base = pageOf va := ⟨pageOf va * 4096 + 2 ^ 48, by omega, by omega, by have := pageOf_lt va; omega,
      by unfold pageOf pageSize; omega⟩
  have hrep : Represents smallPool fun _ => none :=
    Empty.represents ⟨fun _ => rfl, rfl, by decide, by decide, by decide, fun _ => rfl⟩
  have hal : (Request.map 0x200000 0x1000 base 1 true false).Aligned smallPool :=
    ⟨by decide, hb, by decide, hlt, by decide, by decide⟩
  have haf : (Request.map 0x200000 0x1000 base 1 true false).Affordable smallPool := by
    refine ⟨by decide, fun i hi => ?_, by decide⟩
    have : i = 0 := by simpa [pageSize] using hi
    subst this
    unfold wadd
    omega
  obtain ⟨s, h⟩ : ∃ s, vmmMapMemoryInternal ⟨0, 3⟩ smallPool 0x200000 0x1000 base 1 true false = .ok s :=
    hrep.map_ok hal haf
  refine ⟨s, _, (hrep.map hal h).1, ?_⟩
  obtain ⟨_, -, hf⟩ := (hrep.map hal h).1
  rw [frameOf, hf, ← hpage]
  simp [PageMap.insertRange, pageIndex, pageSize]

section Pages

variable {n : Nat} (hva : 4096 ≤ va) (hva' : va < 2 ^ 64) (hs' : size ≤ 2 ^ 47) (hn : n ≤ pageCount va size)
include hva hva' hs' hn

/-- The request to unmap the first pages of a range is one on whole pages. -/
lemma Represents.aligned_unmap (hrep : Represents s f) (release : Bool) :
    (Request.unmap s.data.basePhysicalAddress (va / 4096 * 4096) (n * 4096) release).Aligned s := by
  obtain ⟨path, tb, -⟩ := hrep
  unfold pageCount at hn
  exact ⟨by omega, by omega, by omega, by omega, by omega, tb.pml4Base_base⟩

/-- After the first pages of a range have been unmapped, they have no frames, and all others have theirs. -/
lemma Represents.frameOf_unmap (hrep : Represents s f) {s' : PagingState}
    (h : vmmUnmapMemoryEx s.data.basePhysicalAddress s (va / 4096 * 4096) (n * 4096) release = .ok s') (a : Nat) :
    frameOf s' a = if pageIndex (va / 4096 * 4096) (pageOf a) < n then none else frameOf s a := by
  obtain ⟨_, -, hf'⟩ := hrep.unmap (hrep.aligned_unmap hva hva' hs' hn release) h
  obtain ⟨_, -, hf⟩ := hrep
  rw [frameOf, frameOf, hf' a, hf a, PageMap.removeRange,
    show n * 4096 / pageSize = n from Nat.mul_div_cancel n (by decide)]

end Pages

/-- What has been unmapped does not contain the null page. -/
lemma vmmUnmapMemoryEx_ne_zero {cr3 n i : Nat} {s' : PagingState} (hva : 4096 ≤ va)
    (h : vmmUnmapMemoryEx cr3 s (va / 4096 * 4096) (n * 4096) release = .ok s') (hi : i < n) :
    wadd 64 (va / 4096 * 4096) (i * pageSize) ≠ 0 := by
  unfold vmmUnmapMemoryEx at h
  rw [if_neg (by rw [isAddressAligned_page]; omega), if_neg (by rw [isAddressAligned_page]; omega),
    vmWalkPagingTables, walk_count (by omega),
    show n * 4096 / pageSize = n from Nat.mul_div_cancel n (by decide)] at h
  refine foldlM_range (I := fun k _ => ∀ i < k, wadd 64 (va / 4096 * 4096) (i * pageSize) ≠ 0) ?_ (by simp) h i hi
  intro k t t' hk ih ht j hj
  rcases Nat.lt_succ_iff_lt_or_eq.mp hj with hj | rfl
  · exact ih j hj
  · exact unmapPage_ne_zero ht

/-- Whatever the tables map, a range of any size up to that of the kernel's half is unmapped if and only if it is
    not empty, starts behind the first page, ends before the end of the address space, and its size, widened to
    whole pages, fits into 32 bits. -/
theorem mmuUnmapMemoryEx_unmaps_iff (va size : Nat) (release : Bool) (hva : va < 2 ^ 64) (hs : size ≤ 2 ^ 47) :
    (∀ s f, Represents s f → Unmaps s va size release) ↔
      pageSize ≤ va ∧ 0 < size ∧ va + size ≤ 2 ^ 64 ∧ va % 4096 + size ≤ 2 ^ 32 - 4096 := by
  have hp : pageCount va size = (va % 4096 + size + 4095) / 4096 := rfl
  rw [pageSize]
  constructor
  · intro h
    -- the last page of the range is mapped
    obtain ⟨s, f, hrep, hf⟩ := exists_mapped (wadd 64 (va / 4096 * 4096) ((pageCount va size - 1) * pageSize))
    obtain ⟨s', hrun, hunmap⟩ := h s f hrep
    obtain ⟨_, hg1, hrest⟩ := bind_ok.mp hrun
    obtain ⟨_, hg2, -⟩ := bind_ok.mp hrest
    have h0 := ensure_ok.mp hg1
    have hpos := Nat.pos_of_ne_zero (ensure_ok.mp hg2)
    have hlast : pageIndex (va / 4096 * 4096)
        (pageOf (wadd 64 (va / 4096 * 4096) ((pageCount va size - 1) * pageSize))) = pageCount va size - 1 :=
      (pageOf_eq_iff (by omega) (by omega)).mp rfl
    have hnone := (hunmap _).1 ((overlaps_iff hpos hs _).mpr (by rw [hlast]; omega))
    rw [mmuUnmapMemoryEx_eq h0 hva hpos hs] at hrun
    by_cases hfirst : 4096 ≤ va
    · rw [hrep.frameOf_unmap hfirst hva hs (Nat.mod_le _ (2 ^ 20)) hrun, hlast] at hnone
      have hfits : pageCount va size - 1 < pageCount va size % 2 ^ 20 := by
        by_contra hover
        rw [if_neg hover, hf] at hnone
        cases hnone
      have hend : va + size ≤ 2 ^ 64 := by
        by_contra hover
        refine vmmUnmapMemoryEx_ne_zero (i := 2 ^ 52 - va / 4096) hfirst hrun (by omega) ?_
        unfold wadd pageSize
        omega
      omega
    · -- nothing is unmapped from the first page on
      rw [vmmUnmapMemoryEx, if_pos (.inl (by omega))] at hrun
      cases hrun
      rw [hf] at hnone
      cases hnone
  · rintro ⟨hfirst, hpos, hend, hfits⟩ s f hrep
    have hcount : pageCount va size % 2 ^ 20 = pageCount va size := Nat.mod_eq_of_lt (by omega)
    obtain ⟨s', h⟩ := hrep.unmap_ok (hrep.aligned_unmap hfirst hva hs (le_refl _) release)
      (fun i hi => by unfold wadd pageSize at *; omega)
    refine ⟨s', ?_, fun a => ?_⟩
    · rw [mmuUnmapMemoryEx_eq (by omega) hva hpos hs, hcount, h]
    · rw [hrep.frameOf_unmap hfirst hva hs (le_refl _) h, overlaps_iff hpos hs]
      exact ⟨fun h => if_pos h, fun h => if_neg h⟩

/-- Of a range of 4 GB nothing is unmapped. -/
theorem mmuUnmapMemoryEx_four_gigabytes : ∃ s f, Represents s f ∧ frameOf s 0x400000 = some 0x200000 ∧
    mmuUnmapMemoryEx s 0x400000 (2 ^ 32) true = .ok s := by
  obtain ⟨s, f, hrep, hf⟩ := exists_mapped 0x400000
  refine ⟨s, f, hrep, hf, ?_⟩
  rw [mmuUnmapMemoryEx_eq (by decide) (by decide) (by decide) (by decide)]
  rfl

/-- A range that starts and ends inside a page. -/
theorem mmuUnmapMemoryEx_unmaps_page : ∃ s f, Represents s f ∧ frameOf s 0x400000 = some 0x200000 ∧
    Unmaps s 0x400010 8 true := by
  obtain ⟨s, f, hrep, hf⟩ := exists_mapped 0x400000
  exact ⟨s, f, hrep, hf,
    (mmuUnmapMemoryEx_unmaps_iff 0x400010 8 true (by decide) (by decide)).mpr (by decide) s f hrep⟩

end HAL9000.Paging
