import HAL9000.Lib.Reach
import HAL9000.Paging.Walk

/-!
# Page tables: refinement to a map from pages to frames

The purpose of the tables is a finite map from page numbers to frames (`PageMap`). Every request the
code serves is an operation of that map (`Request.apply`); the main result is that along any sequence
of requests `VmmGetPhysicalAddressEx` reads exactly the map obtained by these operations.
-/

namespace HAL9000.Paging
open Lib

/-! ## The map -/

abbrev PageMap := Nat → Option Nat

/-- The number of the page a virtual address lies in: the 36 bits the tables translate. -/
def pageOf (va : Nat) : Nat := va / pageSize % 2 ^ 36

/-- How many pages `page` lies above the page of `base`. -/
def pageIndex (base page : Nat) : Nat := (page + 2 ^ 36 - pageOf base) % 2 ^ 36

/-- The pages of the range are given consecutive frames from `pa` on; pages that have a frame keep it
    unless `invalidate` is set. -/
def PageMap.insertRange (f : PageMap) (pa size base : Nat) (invalidate : Bool) : PageMap :=
  fun page =>
    if pageIndex base page < size / pageSize ∧ (invalidate = true ∨ f page = none) then
      some (pa + pageIndex base page * pageSize)
    else f page

def PageMap.removeRange (f : PageMap) (base size : Nat) : PageMap :=
  fun page => if pageIndex base page < size / pageSize then none else f page

variable {va base i size pa cr3 : Nat} {inv release : Bool} {t : PagingState}

lemma pageKey_eq_iff {va' : Nat} : pageKey va = pageKey va' ↔ pageOf va = pageOf va' := by
  simp only [pageKey, maskOffset, pageOf, pageSize, List.cons.injEq, Fin.ext_iff, Fin.val_ofNat,
    Nat.shiftRight_eq_div_pow, and_true]
  omega

lemma pageOf_lt (va : Nat) : pageOf va < 2 ^ 36 := Nat.mod_lt _ (by decide)

lemma pageOf_eq_iff (hb : base % 4096 = 0) (hi : i < 2 ^ 36) :
    pageOf va = pageOf (wadd 64 base (i * pageSize)) ↔ pageIndex base (pageOf va) = i := by
  have h := pageOf_lt va
  simp only [pageIndex, wadd, pageSize]
  simp only [pageOf, pageSize] at h ⊢
  omega

/-! ## Requests -/

inductive Request where
  | map (physicalAddress size baseAddress pageRights : Nat) (invalidate uncacheable : Bool)
  | unmap (cr3 virtualAddress size : Nat) (releaseMemory : Bool)
  | lookup (cr3 virtualAddress : Nat) (accessed dirty : Bool)

def Request.run (vmm : VmmData) (s : PagingState) : Request → Exec PagingState
  | .map pa size base rights invalidate uncacheable =>
    vmmMapMemoryInternal vmm s pa size base rights invalidate uncacheable
  | .unmap cr3 va size release => vmmUnmapMemoryEx cr3 s va size release
  | .lookup cr3 va accessed dirty => do
    let r ← vmmGetPhysicalAddressEx cr3 s.mem va accessed dirty
    pure { s with mem := r.mem }

def Request.apply (f : PageMap) : Request → PageMap
  | .map pa size base _ invalidate _ => f.insertRange pa size base invalidate
  | .unmap _ va size _ => f.removeRange va size
  | .lookup _ _ _ _ => f

/-- Page-aligned ranges of 64-bit addresses, no longer than the address space, in 52-bit physical
    memory, through the root of these tables. -/
def Request.Aligned (s : PagingState) : Request → Prop
  | .map pa size base _ _ _ =>
    pa % 4096 = 0 ∧ base % 4096 = 0 ∧ size % 4096 = 0 ∧ base < 2 ^ 64 ∧ size ≤ 2 ^ 48 ∧
      pa + size ≤ 2 ^ 52
  | .unmap cr3 va size _ =>
    va ≠ 0 ∧ va % 4096 = 0 ∧ size % 4096 = 0 ∧ va < 2 ^ 64 ∧ size ≤ 2 ^ 48 ∧
      pml4Base cr3 = s.data.basePhysicalAddress
  | .lookup cr3 va _ _ =>
    va ≠ 0 ∧ va % 4096 = 0 ∧ va < 2 ^ 64 ∧ pml4Base cr3 = s.data.basePhysicalAddress

/-- The range does not run into the null page, and for a mapping the pool has the three frames a page
    may need for each of its pages. -/
def Request.Affordable (s : PagingState) : Request → Prop
  | .map _ size base _ _ _ =>
    size ≠ 0 ∧ (∀ i < size / pageSize, wadd 64 base (i * pageSize) ≠ 0) ∧
      s.data.currentIndex + 3 * (size / pageSize) ≤ s.data.numberOfFrames
  | .unmap _ va size _ => ∀ i < size / pageSize, wadd 64 va (i * pageSize) ≠ 0
  | .lookup _ _ _ _ => True

/-- An empty root frame at the start of the pool, and the empty map. -/
structure Empty (s : PagingState) (f : PageMap) : Prop where
  root : ∀ k : Fin 512, s.mem (s.data.basePhysicalAddress + 8 * k.val) = {}
  index : s.data.currentIndex = 1
  count : 1 ≤ s.data.numberOfFrames ∧ s.data.numberOfFrames ≤ maxDword / pageSize
  aligned : s.data.basePhysicalAddress % 4096 = 0
  room : s.data.basePhysicalAddress + 4096 * s.data.numberOfFrames ≤ 2 ^ 52
  empty : ∀ page, f page = none

def Served (vmm : VmmData) (x : PagingState × PageMap) (r : Request) (y : PagingState × PageMap) : Prop :=
  r.run vmm x.1 = .ok y.1 ∧ y.2 = r.apply x.2

/-- The tables are a tree, and what they translate is `f`. -/
def Represents (s : PagingState) (f : PageMap) : Prop :=
  ∃ path, Tables s path ∧ ∀ va, translate s.mem s.data.basePhysicalAddress va = f (pageOf va)

variable {s s' : PagingState} {f g : PageMap} {vmm : VmmData} {rights : Nat} {unc : Bool}

lemma Empty.represents (h : Empty s f) : Represents s f := by
  have hslot : ∀ k, slot s.mem s.data.basePhysicalAddress k = none := by
    intro k
    apply slot_of_not_present
    rw [h.root k]
  refine ⟨fun n => if n = s.data.basePhysicalAddress then some [] else none, ⟨?_, ?_, ?_, ?_, ?_,
    h.aligned, h.room⟩, ?_⟩
  · exact Tree.single hslot (by decide)
  · intro n p hp
    split at hp
    · next e => exact ⟨0, by simp [h.index], by simpa using e⟩
    · cases hp
  · intro n p hp _ k
    split at hp
    · next e => rw [e, h.root k]
    · cases hp
  · rw [h.index]
    exact ⟨le_refl _, h.count.1⟩
  · have := h.count.2
    simpa [maxDword, pageSize] using this
  · intro va
    rw [h.empty, translate, pageKey, walk, hslot]
    rfl

/-! ## One request -/

lemma Tables.pml4Base_base {path} (tb : Tables s path) :
    pml4Base s.data.basePhysicalAddress = s.data.basePhysicalAddress := by
  have h1 := tb.aligned
  have h2 := tb.room
  have h3 := tb.index
  unfold pml4Base
  omega

lemma mappedEntry_frame {ctx : MapContext} {kernelSpace : Bool} {n : Nat}
    (hpa : ctx.physicalAddressBase % 4096 = 0) (hroom : ctx.physicalAddressBase + n ≤ 2 ^ 52)
    (hi : (i + 1) * 4096 ≤ n) (hb : ctx.virtualAddressBase < 2 ^ 64) :
    pteGetPhysicalAddress (mappedEntry vmm ctx kernelSpace (wadd 64 ctx.virtualAddressBase (i * pageSize))) =
        ctx.physicalAddressBase + i * pageSize := by
  have e : wadd 64 ctx.physicalAddressBase
      (wsub 64 (wadd 64 ctx.virtualAddressBase (i * pageSize)) ctx.virtualAddressBase) =
      ctx.physicalAddressBase + i * pageSize := by
    unfold wadd wsub pageSize
    omega
  unfold mappedEntry
  rw [e]
  apply pteGetPhysicalAddress_pteMap <;> unfold pageSize <;> omega

lemma walk_count (h : size % 4096 = 0) : (size + (pageSize - 1)) / pageSize = size / pageSize := by
  unfold pageSize
  omega

lemma PageMap.insertRange_succ (hb : base % 4096 = 0) (hi : i < 2 ^ 36) :
    f.insertRange pa ((i + 1) * pageSize) base inv (pageOf va) =
      if pageKey va = pageKey (wadd 64 base (i * pageSize)) ∧ (inv = true ∨
          f.insertRange pa (i * pageSize) base inv (pageOf va) = none) then
        some (pa + i * pageSize)
      else f.insertRange pa (i * pageSize) base inv (pageOf va) := by
  have hmul : ∀ j, j * pageSize / pageSize = j := fun j => Nat.mul_div_cancel j (by decide)
  simp only [pageKey_eq_iff, pageOf_eq_iff hb hi, PageMap.insertRange, hmul]
  by_cases e : pageIndex base (pageOf va) = i
  · simp [e]
  · have : pageIndex base (pageOf va) < i + 1 ↔ pageIndex base (pageOf va) < i := by omega
    simp [e, this]

lemma PageMap.removeRange_succ (hb : base % 4096 = 0) (hi : i < 2 ^ 36) :
    f.removeRange base ((i + 1) * pageSize) (pageOf va) =
      if pageKey va = pageKey (wadd 64 base (i * pageSize)) then none
      else f.removeRange base (i * pageSize) (pageOf va) := by
  have hmul : ∀ j, j * pageSize / pageSize = j := fun j => Nat.mul_div_cancel j (by decide)
  simp only [pageKey_eq_iff, pageOf_eq_iff hb hi, PageMap.removeRange, hmul]
  by_cases e : pageIndex base (pageOf va) = i
  · simp [e]
  · have : pageIndex base (pageOf va) < i + 1 ↔ pageIndex base (pageOf va) < i := by omega
    simp [e, this]

/-- What holds after the first `i` pages of a mapping. -/
def MappedUpTo (s : PagingState) (g : PageMap) (used : Nat) (t : PagingState) : Prop :=
  Represents t g ∧ Drawn s t used

lemma Represents.mapPage (ctx : MapContext) {used : Nat} (hpa : ctx.physicalAddressBase % 4096 = 0)
    (hroom : ctx.physicalAddressBase + size ≤ 2 ^ 52) (hb : ctx.virtualAddressBase % 4096 = 0)
    (hb' : ctx.virtualAddressBase < 2 ^ 64) (hsize : size ≤ 2 ^ 48) (hi : i < size / pageSize)
    (hI : MappedUpTo s (g.insertRange ctx.physicalAddressBase (i * pageSize) ctx.virtualAddressBase
      ctx.invalidate) used t)
    (h : vmWalkPage PagingState.mem (vmMapPage vmm ctx) (wadd 64 ctx.virtualAddressBase (i * pageSize))
      (walkLevels (wadd 64 ctx.virtualAddressBase (i * pageSize)))
      (pml4Base s.data.basePhysicalAddress) t = .ok s') :
    MappedUpTo s (g.insertRange ctx.physicalAddressBase ((i + 1) * pageSize)
      ctx.virtualAddressBase ctx.invalidate) (used + 3) s' := by
  obtain ⟨⟨path, tb, hf⟩, hdrawn⟩ := hI
  have hi' : (i + 1) * 4096 ≤ size ∧ i < 2 ^ 36 := by unfold pageSize at hi; omega
  rw [← hdrawn.base, tb.pml4Base_base] at h
  obtain ⟨path', tb', hdrawn', hwalk⟩ := Tables.mapPage (by simp [walkLevels]) tb tb.tree.root
    (levelsBelow_walkLevels _) h
  refine ⟨⟨path', tb', ?_⟩, hdrawn.trans hdrawn'⟩
  intro va
  have hva := hwalk (pageKey va) rfl
  rw [walkLevels_keys, List.nil_append, mappedEntry_frame hpa hroom hi'.1 hb'] at hva
  rw [hdrawn'.base, translate, hva, PageMap.insertRange_succ hb hi'.2, ← hf va]
  rfl

lemma PageMap.insertRange_zero : f.insertRange pa (0 * pageSize) base inv = f := by
  funext page
  simp [PageMap.insertRange]

lemma PageMap.removeRange_zero : f.removeRange base (0 * pageSize) = f := by
  funext page
  simp [PageMap.removeRange]

lemma pages_mul (h : size % 4096 = 0) : size / pageSize * pageSize = size := by
  unfold pageSize
  omega

lemma Represents.map (hrep : Represents s f) (hal : (Request.map pa size base rights inv unc).Aligned s)
    (h : vmmMapMemoryInternal vmm s pa size base rights inv unc = .ok s') :
    MappedUpTo s (f.insertRange pa size base inv) (3 * (size / pageSize)) s' := by
  obtain ⟨hpa, hb, hs, hb', hsize, hroom⟩ := hal
  unfold vmmMapMemoryInternal at h
  obtain ⟨_, _, h⟩ := bind_ok.mp h
  obtain ⟨_, _, h⟩ := bind_ok.mp h
  set ctx : MapContext := ⟨pa, base, rights, inv, unc⟩
  unfold vmWalkPagingTables at h
  rw [walk_count hs] at h
  have hI := foldlM_range
    (I := fun i => MappedUpTo s (f.insertRange pa (i * pageSize) base inv) (3 * i)) ?_ ?_ h
  · rw [pages_mul hs] at hI
    exact hI
  · intro i t t' hi hI ht
    exact Represents.mapPage ctx hpa hroom hb hb' hsize hi hI ht
  · rw [PageMap.insertRange_zero]
    exact ⟨hrep, Drawn.refl s⟩

lemma Represents.map_ok (hrep : Represents s f) (hal : (Request.map pa size base rights inv unc).Aligned s)
    (haf : (Request.map pa size base rights inv unc).Affordable s) :
    ∃ s', vmmMapMemoryInternal vmm s pa size base rights inv unc = .ok s' := by
  obtain ⟨hpa, hb, hs, hb', hsize, hroom⟩ := hal
  obtain ⟨h0, hnull, hpool⟩ := haf
  unfold vmmMapMemoryInternal
  rw [ensure_pos (isAddressAligned_page.mpr hpa), bind_okay,
    ensure_pos ⟨Ne.symm h0, isAddressAligned_page.mpr hs⟩, bind_okay]
  set ctx : MapContext := ⟨pa, base, rights, inv, unc⟩
  unfold vmWalkPagingTables
  rw [walk_count hs]
  have hloop := foldlM_range_ok (n := size / pageSize) (s := s)
    (f := fun s' i => vmWalkPage PagingState.mem (vmMapPage vmm ctx) (wadd 64 base (i * pageSize))
      (walkLevels (wadd 64 base (i * pageSize))) (pml4Base s.data.basePhysicalAddress) s')
    (I := fun i => MappedUpTo s (f.insertRange pa (i * pageSize) base inv) (3 * i)) ?_ ?_
  · obtain ⟨s', h, _⟩ := hloop
    exact ⟨s', h⟩
  · intro i t hi hI
    obtain ⟨⟨path, tb, hf⟩, j, _, hj, edata⟩ := id hI
    have hframes : t.data.currentIndex + 3 ≤ t.data.numberOfFrames := by
      rw [edata]
      simp only
      omega
    obtain ⟨t', ht'⟩ := Tables.mapPage_ok vmm ctx (hnull i hi) tb tb.tree.root
      (levelsBelow_walkLevels _) hframes
    rw [← tb.pml4Base_base, edata] at ht'
    exact ⟨t', ht', Represents.mapPage ctx hpa hroom hb hb' hsize hi hI ht'⟩
  · rw [PageMap.insertRange_zero]
    exact ⟨hrep, Drawn.refl s⟩

lemma Represents.unmapPage (hb : base % 4096 = 0) (hsize : size ≤ 2 ^ 48) (hi : i < size / pageSize)
    (hcr3 : pml4Base cr3 = s.data.basePhysicalAddress)
    (hI : Represents t (g.removeRange base (i * pageSize)) ∧ t.data = s.data)
    (hva : wadd 64 base (i * pageSize) ≠ 0) :
    ∃ s', vmWalkPage PagingState.mem (vmUnmapPage release) (wadd 64 base (i * pageSize))
        (walkLevels (wadd 64 base (i * pageSize))) (pml4Base cr3) t = .ok s' ∧
      Represents s' (g.removeRange base ((i + 1) * pageSize)) ∧ s'.data = s.data := by
  obtain ⟨⟨path, tb, hf⟩, hdata⟩ := hI
  have hi' : i < 2 ^ 36 := by unfold pageSize at hi; omega
  obtain ⟨s', h, tb', hdata', hwalk⟩ := Tables.unmapPage release hva
    (by simp [walkLevels]) tb tb.tree.root (levelsBelow_walkLevels (wadd 64 base (i * pageSize)))
  rw [hcr3, ← hdata]
  refine ⟨s', h, ⟨path, tb', ?_⟩, hdata'⟩
  intro va
  have hva := hwalk (pageKey va) rfl
  rw [walkLevels_keys, List.nil_append] at hva
  rw [hdata', translate, hva, PageMap.removeRange_succ hb hi', ← hf va]
  rfl

lemma unmapPage_ne_zero
    (h : vmWalkPage PagingState.mem (vmUnmapPage release) va (walkLevels va) (pml4Base cr3) t =
      .ok s') : va ≠ 0 := by
  unfold walkLevels vmWalkPage at h
  obtain ⟨_, hcb, _⟩ := bind_ok.mp h
  obtain ⟨_, hg, _⟩ := bind_ok.mp hcb
  exact ensure_ok.mp hg

section

variable (hrep : Represents s f) (hal : (Request.unmap cr3 va size release).Aligned s)
include hrep hal

lemma Represents.unmap (h : vmmUnmapMemoryEx cr3 s va size release = .ok s') :
    Represents s' (f.removeRange va size) := by
  obtain ⟨h0, hb, hs, hb', hsize, hcr3⟩ := hal
  unfold vmmUnmapMemoryEx at h
  rw [if_neg (by simp [h0, isAddressAligned_page, hb])] at h
  split at h
  · next hz =>
    have hz : 0 = size := hz.resolve_right (not_not.mpr (isAddressAligned_page.mpr hs))
    cases h
    rw [← hz, ← Nat.zero_mul pageSize, PageMap.removeRange_zero]
    exact hrep
  · unfold vmWalkPagingTables at h
    rw [walk_count hs] at h
    have hI := foldlM_range
      (I := fun i t => Represents t (f.removeRange va (i * pageSize)) ∧ t.data = s.data) ?_ ?_ h
    · rw [pages_mul hs] at hI
      exact hI.1
    · intro i t t' hi hI ht
      obtain ⟨t'', ht'', hI'⟩ :=
        Represents.unmapPage hb hsize hi hcr3 hI (unmapPage_ne_zero ht)
      rw [ht] at ht''
      cases ht''
      exact hI'
    · rw [PageMap.removeRange_zero]
      exact ⟨hrep, rfl⟩

lemma Represents.unmap_ok (haf : (Request.unmap cr3 va size release).Affordable s) :
    ∃ s', vmmUnmapMemoryEx cr3 s va size release = .ok s' := by
  obtain ⟨h0, hb, hs, hb', hsize, hcr3⟩ := hal
  unfold vmmUnmapMemoryEx
  rw [if_neg (by simp [h0, isAddressAligned_page, hb])]
  split
  · exact ⟨s, rfl⟩
  · unfold vmWalkPagingTables
    rw [walk_count hs]
    obtain ⟨s', h, _⟩ := foldlM_range_ok (n := size / pageSize) (s := s)
      (f := fun s' i => vmWalkPage PagingState.mem (vmUnmapPage release) (wadd 64 va (i * pageSize))
        (walkLevels (wadd 64 va (i * pageSize))) (pml4Base cr3) s')
      (I := fun i t => Represents t (f.removeRange va (i * pageSize)) ∧ t.data = s.data)
      (fun i t hi hI => Represents.unmapPage hb hsize hi hcr3 hI (haf i hi))
      (by rw [PageMap.removeRange_zero]; exact ⟨hrep, rfl⟩)
    exact ⟨s', h⟩

end

lemma Represents.lookup {accessed dirty : Bool} (hrep : Represents s f)
    (hal : (Request.lookup cr3 va accessed dirty).Aligned s) :
    ∃ r, vmmGetPhysicalAddressEx cr3 s.mem va accessed dirty = .ok r ∧
      r.physicalAddress = (f (pageOf va)).getD 0 ∧ Represents { s with mem := r.mem } f := by
  obtain ⟨h0, hb, hb', hcr3⟩ := hal
  obtain ⟨path, tb, hf⟩ := hrep
  obtain ⟨r, hr, hpa, tb', hwalk⟩ := Tables.lookupPage accessed dirty h0
    (by simp [walkLevels]) tb tb.tree.root (levelsBelow_walkLevels va)
  have hone : (pageSize + (pageSize - 1)) / pageSize = 1 := by decide
  have hva : wadd 64 va (0 * pageSize) = va := by unfold wadd; omega
  refine ⟨r, ?_, ?_, path, tb', ?_⟩
  · rw [vmmGetPhysicalAddressEx, ensure_pos h0, bind_okay,
      ensure_pos (isAddressAligned_page.mpr hb), bind_okay, vmWalkPagingTables, hone, hcr3]
    simp only [List.range_one, List.foldlM_cons, List.foldlM_nil, hva, hr, bind_okay, pure_okay]
  · rw [hpa, ← hf va]
    rfl
  · intro va'
    exact (hwalk (pageKey va') rfl).trans (hf va')

/-! ## Runs -/

lemma Represents.served {r : Request} {f' : PageMap} (hrep : Represents s f) (hal : r.Aligned s)
    (h : Served vmm (s, f) r (s', f')) : Represents s' f' := by
  obtain ⟨hrun, rfl⟩ := h
  cases r with
  | map => exact (hrep.map hal hrun).1
  | unmap => exact hrep.unmap hal hrun
  | lookup =>
    obtain ⟨r, hr, hrun⟩ := bind_ok.mp hrun
    obtain ⟨r', hr', _, hrep'⟩ := hrep.lookup hal
    rw [hr] at hr'
    cases hr'
    cases hrun
    exact hrep'

/-- Along every sequence of requests on page-aligned ranges the tables implement the map: a lookup
    returns the frame the map has for the page, whatever the requests before it were, and a request
    that the pool can afford is served. -/
theorem vmm_refines_pageMap {vmm : VmmData} {s : PagingState} {f : PageMap}
    (hr : Reach (fun x => Empty x.1 x.2) (Served vmm) (fun x r => r.Aligned x.1) (s, f)) :
    (∀ cr3 va accessed dirty, (Request.lookup cr3 va accessed dirty).Aligned s →
      ∃ r, vmmGetPhysicalAddressEx cr3 s.mem va accessed dirty = .ok r ∧
        r.physicalAddress = (f (pageOf va)).getD 0) ∧
    (∀ r : Request, r.Aligned s → r.Affordable s → ∃ s', r.run vmm s = .ok s') := by
  have hrep : Represents s f := by
    refine hr.invariant (I := fun x => Represents x.1 x.2) (fun x h => h.represents) ?_
    intro x r y hI hal hst
    exact hI.served hal hst
  refine ⟨?_, ?_⟩
  · intro cr3 va accessed dirty hal
    obtain ⟨r, hr, hpa, _⟩ := hrep.lookup hal
    exact ⟨r, hr, hpa⟩
  · intro r hal haf
    cases r with
    | map => exact hrep.map_ok hal haf
    | unmap => exact hrep.unmap_ok hal haf
    | lookup =>
      obtain ⟨r, hr, _, _⟩ := hrep.lookup hal
      exact ⟨_, by rw [Request.run, hr]; rfl⟩

def smallPool : PagingState where
  mem := fun _ => {}
  data := ⟨0x100000, 16, 1, false⟩

/-- Two pages mapped into the small pool translate to consecutive frames. -/
theorem smallPool_map_lookup :
    ∃ s', (Request.map 0x200000 0x2000 0x400000 1 true false).run ⟨0, 3⟩ smallPool = .ok s' ∧
      ∃ r, vmmGetPhysicalAddressEx 0x100000 s'.mem 0x401000 false false = .ok r ∧
        r.physicalAddress = 0x201000 := by
  have h0 : Empty smallPool (fun _ => none) :=
    ⟨fun _ => rfl, rfl, by decide, by decide, by decide, fun _ => rfl⟩
  have start : Reach (fun x => Empty x.1 x.2) (Served ⟨0, 3⟩) (fun x r => r.Aligned x.1)
      (smallPool, fun _ => none) := .start h0
  have hal : (Request.map 0x200000 0x2000 0x400000 1 true false).Aligned smallPool := by
    simp [Request.Aligned]
  obtain ⟨s', h⟩ := (vmm_refines_pageMap start).2 _ hal
    ⟨by decide, by decide, by decide⟩
  have hdata : s'.data.basePhysicalAddress = 0x100000 := by
    obtain ⟨_, i, _, _, e⟩ := h0.represents.map hal h
    rw [e]
    rfl
  have served : Served ⟨0, 3⟩ (smallPool, fun _ => none)
      (.map 0x200000 0x2000 0x400000 1 true false)
      (s', PageMap.insertRange (fun _ => none) 0x200000 0x2000 0x400000 true) :=
    ⟨h, by simp only [Request.apply]⟩
  have reached := start.step hal served
  have hal' : (Request.lookup 0x100000 0x401000 false false).Aligned s' :=
    ⟨by decide, by decide, by decide, by rw [hdata]; decide⟩
  obtain ⟨r, hr, hpa⟩ := (vmm_refines_pageMap reached).1 _ _ _ _ hal'
  refine ⟨s', h, r, hr, ?_⟩
  rw [hpa]
  decide

end HAL9000.Paging
