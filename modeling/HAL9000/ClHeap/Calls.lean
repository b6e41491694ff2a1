import HAL9000.ClHeap.Search

/-!
# The heap: what the calls do

`ClHeapAllocatePoolWithTag` and `ClHeapFreePoolWithTag` on a heap with a sound layout. Allocation also
needs a search position that is the list head or a live entry (`Cursor`).
-/

namespace HAL9000.ClHeap
open Lib LinkMem

variable {h h' : Heap} {es ys zs : List Entry} {e f : Entry} {m : Mem}
  {size tag alignment fuel a : Nat}

def Cursor (h : Heap) (es : List Entry) : Prop :=
  h.entryToRestartSearch = h.heapAllocations ∨ ∃ e ∈ es, h.entryToRestartSearch = e.link

/-- It is found out without a search whether there is room. -/
def Heap.settles (h : Heap) (size tag alignment : Nat) : Bool := (allocateEntry 0 h size tag alignment).toBool

def effectiveAlignment (allocationAlignment : Nat) : Nat :=
  if allocationAlignment = 0 then heapDefaultAlignment else allocationAlignment

def TailFits (h : Heap) (alignment size : Nat) : Prop :=
  Fits alignment size h.freeAddress (h.baseAddress + h.heapSizeMaximum - 32)

def spaceBetween (h : Heap) : Nat := h.heapSizeRemaining - (h.baseAddress + h.heapSizeMaximum - h.freeAddress)

section Allocate

lemma Layout.untilEnd (hl : Layout h es) :
    wsub 64 (wsub 64 (wadd 64 h.baseAddress h.heapSizeMaximum) h.freeAddress) sizeofHeapEntry =
      h.baseAddress + h.heapSizeMaximum - 32 - h.freeAddress := by
  have htop := hl.top
  have hroom := hl.room
  have hbase := hl.base
  have hlo := hl.packed.le
  unfold sizeofHeapEntry
  have h1 : wsub 64 (wadd 64 h.baseAddress h.heapSizeMaximum) h.freeAddress =
      h.baseAddress + h.heapSizeMaximum - h.freeAddress := by
    unfold wsub wadd
    omega
  rw [h1, wsub_eq (by omega) (by omega)]
  omega

lemma Layout.tail_le (hl : Layout h es) :
    h.baseAddress + h.heapSizeMaximum - h.freeAddress ≤ h.heapSizeRemaining := by
  have h1 := hl.packed.taken_le
  have h2 := hl.remaining
  have h3 := hl.room
  omega

lemma Layout.beforeCurrent (hl : Layout h es) :
    wsub 64 (wsub 64 h.heapSizeRemaining (h.baseAddress + h.heapSizeMaximum - 32 - h.freeAddress))
      sizeofHeapEntry = spaceBetween h := by
  have h1 := hl.tail_le
  have h2 := hl.numbers
  have h3 := hl.room
  have h4 : wsub 64 h.heapSizeRemaining (h.baseAddress + h.heapSizeMaximum - 32 - h.freeAddress) =
      h.heapSizeRemaining - (h.baseAddress + h.heapSizeMaximum - 32 - h.freeAddress) :=
    wsub_eq (by omega) (by omega)
  unfold sizeofHeapEntry spaceBetween
  rw [h4, wsub_eq (by omega) (by omega)]
  omega

lemma allocateEntry_refused (hq : size = 0 ∨ tag = 0 ∨ h.heapSizeRemaining < size + 36) :
    allocateEntry fuel h size tag a = .ok none := by
  unfold allocateEntry
  rcases hq with rfl | rfl | hq
  · rfl
  · split <;> rfl
  · split
    · rfl
    split
    · rfl
    · rw [if_pos (by unfold sizeofHeapEntry sizeofHeapTail; omega)]
      rfl

lemma allocateEntry_asked (hl : Layout h es) (hq : Asked h size tag (effectiveAlignment a)) :
    allocateEntry fuel h size tag a =
      (let p := if (size + 36 : Int) ≤ sint 64 (h.baseAddress + h.heapSizeMaximum - 32 - h.freeAddress) then
          initHeapEntry h h.freeAddress tag size (effectiveAlignment a) true
            (h.baseAddress + h.heapSizeMaximum - 32 - h.freeAddress)
        else ⟨h, h.freeAddress, 0⟩
      if p.tempAddress ≠ 0 then
        .ok (some ({ p.heap with freeAddress := p.tempAddress }, p.heapEntry))
      else if spaceBetween h < size + 36 then .ok none
      else searchFromRestart fuel h size tag (effectiveAlignment a)) := by
  have hrem := hq.remaining
  have hsp : spaceBetween h < 2 ^ 63 := by
    have := hl.numbers
    unfold spaceBetween
    omega
  have hcast : ((size + sizeofHeapEntry + sizeofHeapTail : Nat) : Int) = (size : Int) + 36 := by
    unfold sizeofHeapEntry sizeofHeapTail
    omega
  have hcmp : ((size : Int) + 36 > sint 64 (spaceBetween h)) = (spaceBetween h < size + 36) := by
    unfold sint
    rw [if_pos (by simpa using hsp)]
    apply propext
    omega
  unfold allocateEntry
  rw [if_neg hq.size_ne, if_neg hq.tag_ne, if_neg (by unfold sizeofHeapEntry sizeofHeapTail; omega)]
  simp only [hl.untilEnd, hl.beforeCurrent, hcast, hcmp]
  rfl

variable (fuel) in
lemma allocateEntry_tail (hl : Layout h es) (hq : Asked h size tag (effectiveAlignment a))
    (hf : TailFits h (effectiveAlignment a) size)
    (he : e = placed (effectiveAlignment a) size tag h.freeAddress) :
    ∃ m, allocateEntry fuel h size tag a =
        .ok (some ({ h.charged m size with freeAddress := e.stop }, e.addr)) ∧
      Within (Window h.baseAddress es e) h.mem m ∧
      Layout { h.charged m size with freeAddress := e.stop } (es ++ [e]) := by
  obtain ⟨m, hinit, hwin, hl'⟩ := hl.append hq hf he
  refine ⟨m, ?_, hwin, hl'⟩
  have hb := hf.bounds (t := tag)
  have hstop : e.stop ≠ 0 := by
    unfold Entry.stop
    omega
  have hlt : h.baseAddress + h.heapSizeMaximum - 32 - h.freeAddress < 2 ^ 63 := by
    have := hl.tail_le
    have := hl.numbers
    omega
  have hle : size + 36 ≤ h.baseAddress + h.heapSizeMaximum - 32 - h.freeAddress := by
    have h1 := hf.1
    have h2 := hf.2
    omega
  have hcmp : (size + 36 : Int) ≤ sint 64 (h.baseAddress + h.heapSizeMaximum - 32 - h.freeAddress) := by
    rw [sint, if_pos hlt]
    exact_mod_cast hle
  rw [allocateEntry_asked hl hq]
  simp only [if_pos hcmp, hinit]
  exact if_pos hstop

lemma allocateEntry_search (hl : Layout h es) (hq : Asked h size tag (effectiveAlignment a))
    (hf : ¬ TailFits h (effectiveAlignment a) size) :
    allocateEntry fuel h size tag a =
      if spaceBetween h < size + 36 then .ok none
      else searchFromRestart fuel h size tag (effectiveAlignment a) := by
  have htop := hl.top
  have hroom := hl.room
  rw [allocateEntry_asked hl hq]
  split
  · next hsp =>
    have hpos : 0 < h.baseAddress + h.heapSizeMaximum - 32 - h.freeAddress := by
      by_contra h0
      rw [show h.baseAddress + h.heapSizeMaximum - 32 - h.freeAddress = 0 by omega] at hsp
      have h1 : (size : Int) + 36 ≤ 0 := hsp
      omega
    rw [initHeapEntry_small _ _ _ hq.alignment_pos hq.alignment_lt (hq.size_lt hl) hpos (by omega) (by
      rwa [Nat.add_sub_cancel' (by omega)])]
    rfl
  · rfl

lemma searchSpaces_mono {prev prevHeap cur ch k : Nat} {r : Option (Heap × Nat)}
    (hr : searchSpaces h size tag alignment fuel prev prevHeap cur ch = .ok r) :
    searchSpaces h size tag alignment (fuel + k) prev prevHeap cur ch = .ok r := by
  induction fuel generalizing prev prevHeap cur ch with
  | zero => cases hr
  | succ fuel ih =>
    rw [Nat.add_right_comm]
    rw [searchSpaces] at hr ⊢
    split at hr
    · next hR => rwa [if_pos hR]
    · next hR =>
      rw [if_neg hR]
      split at hr
      · next hH =>
        rw [if_pos hH]
        exact ih hr
      · next hH =>
        rw [if_neg hH]
        obtain ⟨_, hp, hr⟩ := bind_ok.mp hr
        rw [hp, bind_okay]
        dsimp only at hr ⊢
        split at hr
        · next hs =>
          rw [if_pos hs]
          split at hr
          · next ht =>
            rw [if_pos ht]
            exact ih hr
          · next ht => rwa [if_neg ht]
        · next hs =>
          rw [if_neg hs]
          exact ih hr

lemma searchFromRestart_mono {k : Nat} {r : Option (Heap × Nat)}
    (hr : searchFromRestart fuel h size tag alignment = .ok r) :
    searchFromRestart (fuel + k) h size tag alignment = .ok r := by
  rw [searchFromRestart] at hr ⊢
  obtain ⟨_, hp, hr⟩ := bind_ok.mp hr
  rw [hp, bind_okay]
  exact searchSpaces_mono hr

/-- The heap has an entry more, between `ys` and `zs`. -/
structure Gained (h h' : Heap) (ys zs : List Entry) (e : Entry) : Prop where
  layout : Layout h' (ys ++ e :: zs)
  window : Within (Window h.baseAddress (ys ++ zs) e) h.mem h'.mem
  base : h'.baseAddress = h.baseAddress
  restart : h'.entryToRestartSearch = h.entryToRestartSearch ∨ h'.entryToRestartSearch = e.link

lemma firstFit_some {u v : Entry} (hf : firstFit alignment size es = some (u, v)) :
    Fits alignment size u.stop v.addr ∧ ∃ ys zs, es = ys ++ u :: v :: zs := by
  induction es with
  | nil => cases hf
  | cons x xs ih =>
    cases xs with
    | nil => cases hf
    | cons y xs =>
      rw [firstFit_cons_cons] at hf
      split at hf
      · next hxy =>
        cases hf
        exact ⟨hxy, [], xs, rfl⟩
      · obtain ⟨hfit, ys, zs, e⟩ := ih hf
        exact ⟨hfit, x :: ys, zs, by rw [e]; rfl⟩

variable (hl : Layout h es)
include hl

lemma searchFromRestart_some (hc : Cursor h es) (hq : Asked h size tag alignment) {r : Heap × Nat}
    (hr : searchFromRestart fuel h size tag alignment = .ok (some r)) :
    ∃ ys u v zs, es = ys ++ u :: v :: zs ∧ Fits alignment size u.stop v.addr ∧
      r = squeezed h size tag alignment (u, v) := by
  -- with more fuel the loop comes to the same end
  have hr' := searchFromRestart_mono (k := es.length + 4) hr
  have hfound : ∃ xs q, (∃ as bs, es = as ++ xs ++ bs) ∧ firstFit alignment size xs = some q ∧
      r = squeezed h size tag alignment q := by
    rcases hc with hR | ⟨c, hmem, hR⟩
    · by_cases hne : es = []
      · subst hne
        have hempty : isListEmpty h.mem h.heapAllocations = true := by
          simpa [isListEmpty] using hl.flink_head
        rw [searchFromRestart, hempty] at hr
        cases hr
      · rw [searchFromRestart_head hl hq hne hR (by omega)] at hr'
        obtain ⟨q, hq', e⟩ := Option.map_eq_some_iff.mp (Except.ok.inj hr')
        exact ⟨es, q, ⟨[], [], by simp⟩, hq', e.symm⟩
    · obtain ⟨as, bs, rfl⟩ := List.append_of_mem hmem
      rw [searchFromRestart_entry hl hq hR (by omega)] at hr'
      cases hff : firstFit alignment size bs with
      | some q =>
        rw [hff] at hr'
        exact ⟨bs, q, ⟨as ++ [c], [], by simp⟩, hff, (Option.some.inj (Except.ok.inj hr')).symm⟩
      | none =>
        simp only [hff] at hr'
        split at hr'
        · cases hr'
        · obtain ⟨q, hq', e⟩ := Option.map_eq_some_iff.mp (Except.ok.inj hr')
          cases as with
          | nil => cases hq'
          | cons a as => exact ⟨as, q, ⟨[a], c :: bs, by simp⟩, hq', e.symm⟩
  obtain ⟨xs, ⟨u, v⟩, ⟨as, bs, rfl⟩, hff, rfl⟩ := hfound
  obtain ⟨hfit, ys, zs, rfl⟩ := firstFit_some hff
  exact ⟨as ++ ys, u, v, zs ++ bs, by simp, hfit, rfl⟩

omit hl in
lemma searchFromRestart_unsettled : ¬ (searchFromRestart 0 h size tag a).toBool = true := by
  rw [searchFromRestart]
  by_cases hne : isListEmpty h.mem h.heapAllocations = false
  · rw [ensure_pos hne]
    exact Bool.false_ne_true
  · rw [ensure_neg hne]
    exact Bool.false_ne_true

lemma allocateEntry_some (hc : Cursor h es ∨ h.settles size tag a = true) (ht : tag < 2 ^ 32)
    (ha : a < 2 ^ 32) {x : Nat}
    (hr : allocateEntry fuel h size tag a = .ok (some (h', x))) : ∃ ys zs e, es = ys ++ zs ∧ x = e.addr ∧
      e.size = size ∧ e.tag = tag ∧ Gained h h' ys zs e := by
  have hq : Asked h size tag (effectiveAlignment a) := by
    by_cases hbad : size = 0 ∨ tag = 0 ∨ h.heapSizeRemaining < size + 36
    · rw [allocateEntry_refused hbad] at hr
      cases hr
    · push Not at hbad
      refine ⟨hbad.1, hbad.2.1, ht, ?_, ?_, hbad.2.2⟩ <;>
        · unfold effectiveAlignment heapDefaultAlignment
          split <;> omega
  by_cases hf : TailFits h (effectiveAlignment a) size
  · obtain ⟨m, heq, hwin, hl'⟩ := allocateEntry_tail fuel hl hq hf rfl
    rw [heq] at hr
    cases hr
    exact ⟨es, [], _, by simp, rfl, rfl, rfl, hl', by simpa using hwin, rfl, .inl rfl⟩
  · rw [Heap.settles, allocateEntry_search hl hq hf] at hc
    rw [allocateEntry_search hl hq hf] at hr
    split at hr
    · cases hr
    · next hroom =>
      rw [if_neg hroom] at hc
      have hc := hc.resolve_right searchFromRestart_unsettled
      obtain ⟨ys, u, v, zs, rfl, hfit, hsq⟩ := searchFromRestart_some hl hc hq hr
      obtain ⟨e, he⟩ : ∃ e, e = placed (effectiveAlignment a) size tag u.stop := ⟨_, rfl⟩
      obtain ⟨m, m', hinit, _, hm', hwin, hl'⟩ := hl.squeeze_pair hq hfit he
      have hlink : listEntry e.addr = e.link := hl'.field (by simp) (by omega)
      simp only [squeezed, hinit, hlink, ← hm'] at hsq
      cases hsq
      exact ⟨ys ++ [u], v :: zs, e, by simp, rfl, by rw [he]; rfl, by rw [he]; rfl,
        by simpa using hl', by simpa using hwin, rfl, .inr rfl⟩

lemma clHeapAllocatePoolWithTag_ok (hc : Cursor h es ∨ h.settles size tag a = true) (ht : tag < 2 ^ 32)
    (ha : a < 2 ^ 32) {flags x : Nat}
    (hr : clHeapAllocatePoolWithTag fuel h flags size tag a = .ok (h', x)) :
    (x = 0 ∧ h' = h) ∨ (x ≠ 0 ∧ ∃ ys zs e, es = ys ++ zs ∧ x = e.data ∧ e.size = size ∧ Gained h h' ys zs e) := by
  unfold clHeapAllocatePoolWithTag at hr
  obtain ⟨r, hr1, hr⟩ := bind_ok.mp hr
  cases r with
  | none =>
    left
    dsimp only at hr
    split at hr
    · cases hr
    · cases hr
      exact ⟨rfl, rfl⟩
  | some r =>
    right
    obtain ⟨h1, y⟩ := r
    obtain ⟨ys, zs, e, rfl, rfl, hsz, htg, hg⟩ := allocateEntry_some hl hc ht ha hr1
    have hmem : e ∈ ys ++ e :: zs := by simp
    have hb := hg.layout.mem_bounds hmem
    have hoff : wadd 64 e.addr (entryOffset h1.mem e.addr) = e.data := by
      unfold entryOffset
      rw [hg.layout.field hmem (k := 0xC) (by omega), (hg.layout.entries e hmem).offset]
      exact hg.layout.field hmem (Nat.le_refl 32)
    have hne : e.data ≠ 0 := by
      unfold Entry.data
      omega
    simp only [hoff] at hr
    have hzero : Gained h { h1 with mem := fill h1.mem e.data size 0 } ys zs e := by
      have hw : Within (Span e.data e.size) h1.mem (fill h1.mem e.data size 0) := by
        rw [hsz]
        exact fill_within
      refine ⟨hg.layout.payload hmem hw, hg.window.trans (hw.mono fun x hx => .inl ?_), hg.base, hg.restart⟩
      unfold Entry.data at hx
      unfold Span at *
      omega
    split at hr
    · obtain ⟨_, _, hr⟩ := bind_ok.mp hr
      split at hr
      · cases hr
        exact ⟨hne, ys, zs, e, rfl, rfl, hsz, hzero⟩
      · cases hr
        exact ⟨hne, ys, zs, e, rfl, rfl, hsz, hg⟩
    · split at hr
      · cases hr
        exact ⟨hne, ys, zs, e, rfl, rfl, hsz, hzero⟩
      · cases hr
        exact ⟨hne, ys, zs, e, rfl, rfl, hsz, hg⟩

end Allocate

structure Dropped (h h' : Heap) (ys zs : List Entry) (e : Entry) : Prop where
  layout : Layout h' (ys ++ zs)
  window : Within (Window h.baseAddress (ys ++ zs) e) h.mem h'.mem
  base : h'.baseAddress = h.baseAddress
  restart : h'.entryToRestartSearch = h.entryToRestartSearch

section

variable (hl : Layout h (ys ++ e :: zs))
include hl

lemma Layout.endOfPrevious : endOfPrevious h e.addr = lastStop Entry.stop (h.baseAddress + 72) ys := by
  have hlink : listEntry e.addr = e.link := hl.field (by simp) (by omega)
  have hbl : blink h.mem e.link = (ys.map Entry.link).getLastD h.heapAllocations := by
    have hr := hl.ring
    rw [List.map_append, List.map_cons] at hr
    exact hr.joined.2
  unfold ClHeap.endOfPrevious
  rw [hlink, hbl]
  rcases List.eq_nil_or_concat ys with rfl | ⟨ys, u, rfl⟩
  · have h1 := hl.packed.le
    have h2 := hl.top'
    simp only [List.map_nil, List.getLastD_nil, if_true]
    exact wadd_eq (by unfold sizeofHeapHeader; omega)
  · have hu : u ∈ ys.concat u ++ e :: zs := by simp
    rw [List.concat_eq_append, List.map_append, List.map_singleton, List.getLastD_concat,
      if_neg (hl.link_ne_head hu), hl.containing hu, hl.entryEnd hu, lastStop_concat]

lemma Layout.unlink :
    Ring (links (removeEntryList h.mem e.link).1) h.heapAllocations ((ys ++ zs).map Entry.link) ∧
      Within (LinkBytes h.baseAddress (ys ++ zs)) h.mem (removeEntryList h.mem e.link).1 := by
  have hr := hl.ring
  rw [List.map_append, List.map_cons] at hr
  have hsep := separate_of_packed hl.packed (by have := hl.top'; omega)
  have hmem : ∀ y ∈ h.heapAllocations :: (ys.map Entry.link ++ zs.map Entry.link),
      y ∈ (h.baseAddress + 56) :: (ys ++ e :: zs).map Entry.link := by
    intro y hy
    simp only [List.map_append, List.map_cons, List.mem_cons, List.mem_append] at hy ⊢
    exact hy.imp_right fun hy => hy.imp_right .inr
  have hun := removeEntryList_ring hsep hr hmem
  have hbl : blink h.mem e.link = (ys.map Entry.link).getLastD h.heapAllocations := hr.joined.2
  have hfl : flink h.mem e.link = (zs.map Entry.link).headD h.heapAllocations := hl.flink_link
  refine ⟨by simpa using hun.ring hr hmem, ?_⟩
  refine (removeEntryList_within h.mem e.link).mono ?_
  rw [hbl, hfl]
  rintro x (hx | hx)
  · refine ⟨_, ?_, hx⟩
    rw [List.map_append]
    exact getLastD_mem_ring ..
  · refine ⟨_, ?_, hx⟩
    rw [List.map_append]
    exact headD_mem_ring ..

lemma Layout.free_without : (if e.stop = h.freeAddress then lastStop Entry.stop (h.baseAddress + 72) ys
      else h.freeAddress) = lastStop Entry.stop (h.baseAddress + 72) (ys ++ zs) := by
  have hf := hl.free
  rw [lastStop_append_cons] at hf
  cases zs with
  | nil =>
    rw [List.append_nil]
    exact if_pos hf.symm
  | cons z zs =>
    have hz := (packed_append.mp hl.packed).2.2.2
    have hlt : e.stop ≠ h.freeAddress := by
      have h1 := hz.1
      have h2 := hz.2.2.le
      unfold Entry.stop at *
      omega
    rw [if_neg hlt, lastStop_append_cons, hf]
    rfl

lemma Layout.packed_without : Packed Entry.addr Entry.stop (h.baseAddress + 72)
      (if e.stop = h.freeAddress then lastStop Entry.stop (h.baseAddress + 72) ys
        else h.freeAddress) (ys ++ zs) := by
  rw [hl.free_without]
  have h1 := packed_append.mp hl.packed.remove
  refine packed_append.mpr ⟨h1.1, ?_⟩
  rw [lastStop_append]
  exact h1.2.shrink

lemma Layout.free_without_le : (if e.stop = h.freeAddress then lastStop Entry.stop (h.baseAddress + 72) ys
      else h.freeAddress) ≤ h.freeAddress := by
  have hp := packed_append.mp hl.packed
  have h1 := hp.2.1
  have h2 := hp.2.2.1
  have h3 := hp.2.2.2.le
  split <;> omega

lemma clHeapFreePoolWithTag_ok
    (hr : clHeapFreePoolWithTag h e.data tag = .ok h') : tag = e.tag ∧ Dropped h h' ys zs e := by
  have hmem : e ∈ ys ++ e :: zs := by simp
  have hb := hl.mem_bounds hmem
  have hat := hl.entries e hmem
  have hnum := hl.numbers
  have hcount := hl.count
  have hrem := hl.remaining
  rw [List.length_append, List.length_cons] at hcount
  rw [taken_append, taken_cons] at hrem
  have hbase := hl.base
  obtain ⟨hring, hwl⟩ := hl.unlink
  have he : wsub 64 e.data sizeofHeapEntry = e.addr := by
    unfold Entry.data sizeofHeapEntry
    unfold Entry.stop at hb
    rw [wsub_eq (by omega) (by omega)]
    omega
  have hlink : listEntry e.addr = e.link := hl.field hmem (by omega)
  have hsize : entrySize h.mem e.addr = e.size := by
    unfold entrySize
    rw [hl.field hmem (by omega)]
    exact hat.size
  have hsize' : entrySize (removeEntryList h.mem e.link).1 e.addr = e.size := by
    refine Eq.trans ?_ hsize
    unfold entrySize
    rw [hl.field hmem (by omega)]
    refine hwl.readLE fun x hx hlb => linkBytes_not_entry hl.packed hlb ?_
    unfold Span at *
    omega
  have hend : wadd 64 e.data (e.size + sizeofHeapTail) = e.stop := by
    unfold Entry.data sizeofHeapTail
    unfold Entry.stop at *
    rw [wadd_eq (by omega)]
    omega
  have hhes : e.size + sizeofHeapEntry + sizeofHeapTail = e.size + 36 := rfl
  -- the assertions
  unfold clHeapFreePoolWithTag at hr
  obtain ⟨_, _, hr⟩ := bind_ok.mp hr
  obtain ⟨_, htag0, hr⟩ := bind_ok.mp hr
  have htag0 : tag ≠ 0 := (ensure_ok.mp htag0).symm
  simp only [he, hlink, hsize, hsize', hend, hl.endOfPrevious, hhes] at hr
  rw [hat.validate (by omega) hb.2.1 hb.2.2 htag0, bind_okay] at hr
  obtain ⟨_, htag, hr⟩ := bind_ok.mp hr
  obtain ⟨_, _, hr⟩ := bind_ok.mp hr
  cases hr
  refine ⟨of_decide_eq_true (ensure_ok.mp htag), ?_⟩
  -- the memory
  have hfill : Within (Span e.addr (e.size + 36)) (removeEntryList h.mem e.link).1
      (fill (removeEntryList h.mem e.link).1 e.addr (e.size + 36) heapFreePattern) := fill_within
  have hwin := (hwl.mono (V := Window h.baseAddress (ys ++ zs) e) fun x hx => .inr hx).trans
    (hfill.mono fun x hx => .inl hx)
  have hfree := hl.free_without
  have hfree_le := hl.free_without_le
  have htaken : e.stop - e.addr = e.size + 36 := by
    unfold Entry.stop
    omega
  refine ⟨⟨hl.base, hl.top, hl.small, ?_, ?_, hfree, ?_, ?_, ?_, ?_⟩, hwin, rfl, rfl⟩
  · exact ring_keep (b := h.baseAddress) hring fun x hx => hfill x (linkBytes_not_entry hl.packed hx)
  · exact hl.packed_without
  · exact Nat.le_trans (Nat.add_le_add_right hfree_le 32) hl.room
  · intro f hf
    refine (hl.entries f ?_).congr fun x hx => hwin x (own_not_window hl.packed hf hx.own)
    rw [List.mem_append] at hf
    rw [List.mem_append, List.mem_cons]
    exact hf.imp_right .inr
  · simp only
    rw [taken_append, wadd_eq (by omega)]
    omega
  · simp only
    rw [List.length_append, wsub_eq (by omega) (by omega)]
    omega

end

end HAL9000.ClHeap
