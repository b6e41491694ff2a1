import HAL9000.ClHeap.Run

/-!
# The heap: which requests are met

`ClHeapAllocatePoolWithTag` on a sound heap, with a sound search position and enough fuel: when it
places an entry (`Met`), when it stops at its assertion (`Trips`), and that it turns the request down
otherwise. The free space that it overlooks lies before the first entry, next to the search position,
or in the last 32 bytes of the heap.
-/

namespace HAL9000.ClHeap
open Lib LinkMem

/-- The aligned entry has room between `a` and `b`: its header before an aligned address, its data and
    its tail behind it. -/
def Room (alignment size a b : Nat) : Prop :=
  ∃ d, alignment ∣ d ∧ a + sizeofHeapEntry ≤ d ∧ d + size + sizeofHeapTail ≤ b

def RoomAmong (alignment size : Nat) (es : List Entry) : Prop :=
  ∃ u v, [u, v] <:+: es ∧ Room alignment size u.stop v.addr

/-- The aligned entry has room in the heap: behind the last entry, before the first one, or between
    two neighbours. -/
def HasRoom (h : Heap) (es : List Entry) (alignment size : Nat) : Prop :=
  Room alignment size h.freeAddress (h.baseAddress + h.heapSizeMaximum) ∨
    (∃ e ∈ es.head?, Room alignment size (h.baseAddress + sizeofHeapHeader) e.addr) ∨
      RoomAmong alignment size es

def beforeCursor (h : Heap) (es : List Entry) : List Entry := es.takeWhile fun e => e.link ≠ h.entryToRestartSearch

def afterCursor (h : Heap) (es : List Entry) : List Entry :=
  (es.dropWhile fun e => e.link ≠ h.entryToRestartSearch).tail

/-- The search position is the last entry or the last but one, and there are two entries before it. -/
def LateCursor (h : Heap) (es : List Entry) : Prop :=
  h.entryToRestartSearch ≠ h.heapAllocations ∧ 2 ≤ (beforeCursor h es).length ∧
    (afterCursor h es).length ≤ 1

/-- The aligned entry has room where the search looks: anywhere between two neighbours if the search
    starts at the list head. Otherwise behind the entry next to the search position, or, if the search
    gets there, between the second entry and the one before the search position. -/
def RoomSearched (h : Heap) (es : List Entry) (alignment size : Nat) : Prop :=
  if h.entryToRestartSearch = h.heapAllocations then RoomAmong alignment size es
  else RoomAmong alignment size (afterCursor h es) ∨
    ¬ LateCursor h es ∧ RoomAmong alignment size (beforeCursor h es).tail

/-- The request is a proper one, and the aligned entry has room where the code looks: behind the last
    entry, with 32 bytes to spare, or where the search looks. -/
def Met (h : Heap) (es : List Entry) (alignment size tag : Nat) : Prop := size ≠ 0 ∧ tag ≠ 0 ∧
    (Room alignment size h.freeAddress (h.baseAddress + h.heapSizeMaximum - sizeofHeapEntry) ∨
      RoomSearched h es alignment size)

/-- The request is a proper one, the space between the entries seems large enough, and the search
    starts late in the list. -/
def Trips (h : Heap) (es : List Entry) (size tag : Nat) : Prop :=
  size ≠ 0 ∧ tag ≠ 0 ∧ size + sizeofHeapEntry + sizeofHeapTail ≤ spaceBetween h ∧ LateCursor h es

variable {h h' : Heap} {es ys zs : List Entry} {e f : Entry} {s : Client}
  {size tag alignment fuel a b k : Nat}

section Fits

lemma alignAddressUpper_two_pow (ha : a + 2 ^ k ≤ 2 ^ 64) : 2 ^ k ∣ alignAddressUpper a (2 ^ k) ∧
      ∀ d, 2 ^ k ∣ d → a ≤ d → alignAddressUpper a (2 ^ k) ≤ d := by
  have h0 : 0 < 2 ^ k := Nat.two_pow_pos k
  rw [alignAddressUpper_eq ha]
  refine ⟨Nat.dvd_mul_left _ _, ?_⟩
  rintro d ⟨c, rfl⟩ hd
  rw [Nat.mul_comm (2 ^ k) c]
  refine Nat.mul_le_mul_right _ (Nat.lt_succ_iff.mp ((Nat.div_lt_iff_lt_mul h0).mpr ?_))
  rw [Nat.succ_mul, Nat.mul_comm c]
  omega

variable (size) in
lemma fits_iff_room (hk : 2 ^ k < 2 ^ 32) (hb : b ≤ 2 ^ 64) : Fits (2 ^ k) size a b ↔ Room (2 ^ k) size a b := by
  have h0 : 0 < 2 ^ k := Nat.two_pow_pos k
  have h64 : 2 ^ k ∣ 2 ^ 64 := Nat.pow_dvd_pow 2 ((Nat.pow_lt_pow_iff_right (by omega)).mp hk |>.le.trans
    (by omega))
  unfold Fits Room sizeofHeapEntry sizeofHeapTail alignedData
  by_cases hw : a + 32 + 2 ^ k ≤ 2 ^ 64
  · obtain ⟨hd, hmin⟩ := alignAddressUpper_two_pow hw
    have hle := (alignAddressUpper_bounds (a := a + 32) (m := 2 ^ k) h0 (by omega) hw).1
    constructor
    · rintro ⟨h1, h2⟩
      exact ⟨_, hd, h1, h2⟩
    · rintro ⟨d, h1, h2, h3⟩
      have := hmin d h1 h2
      exact ⟨hle, by omega⟩
  · -- the next multiple is the end of the address space
    constructor
    · rintro ⟨h1, h2⟩
      exfalso
      have hlt : alignAddressUpper (a + 32) (2 ^ k) < 2 ^ 32 ∨ 2 ^ 64 ≤ a + 32 := by
        by_cases hbig : 2 ^ 64 ≤ a + 32
        · exact .inr hbig
        · left
          unfold alignAddressUpper alignAddressLower
          refine lt_of_le_of_lt Nat.and_le_left ?_
          unfold wsub wadd
          omega
      omega
    · rintro ⟨d, ⟨c, rfl⟩, h2, h3⟩
      exfalso
      obtain ⟨c', hc'⟩ := h64
      have hlt : c < c' := by
        by_contra hge
        have := Nat.mul_le_mul_left (2 ^ k) (Nat.le_of_not_lt hge)
        omega
      have := Nat.mul_le_mul_left (2 ^ k) (Nat.succ_le_of_lt hlt)
      rw [Nat.mul_succ] at this
      omega

variable (size) in
lemma firstFit_eq_none (hl : ∀ e ∈ es, e.addr ≤ 2 ^ 64) (hk : 2 ^ k < 2 ^ 32) :
    firstFit (2 ^ k) size es = none ↔ ¬ RoomAmong (2 ^ k) size es := by
  constructor
  · rintro hn ⟨u, v, ⟨ys, zs, rfl⟩, hroom⟩
    have hf := (fits_iff_room size hk (hl v (by simp))).mpr hroom
    clear hl
    induction ys with
    | nil =>
      rw [show [] ++ [u, v] ++ zs = u :: v :: zs from rfl, firstFit_cons_cons, if_pos hf] at hn
      cases hn
    | cons y ys ih =>
      refine ih ?_
      cases ys with
      | nil =>
        rw [show [y] ++ [u, v] ++ zs = y :: u :: v :: zs from rfl, firstFit_cons_cons] at hn
        split at hn
        · cases hn
        · exact hn
      | cons y' ys =>
        rw [show (y :: y' :: ys) ++ [u, v] ++ zs = y :: y' :: (ys ++ [u, v] ++ zs) from rfl,
          firstFit_cons_cons] at hn
        split at hn
        · cases hn
        · exact hn
  · intro hno
    cases hff : firstFit (2 ^ k) size es with
    | none => rfl
    | some q =>
      obtain ⟨u, v⟩ := q
      obtain ⟨hfit, ys, zs, rfl⟩ := firstFit_some hff
      refine absurd ⟨u, v, ⟨ys, zs, by simp⟩, (fits_iff_room size hk (hl v (by simp))).mp hfit⟩ hno

end Fits

section Outcome

lemma Cursor.split (hc : Cursor h es) (hne : h.entryToRestartSearch ≠ h.heapAllocations) :
    ∃ c, es = beforeCursor h es ++ c :: afterCursor h es ∧ h.entryToRestartSearch = c.link := by
  obtain hR | ⟨e, he, hR⟩ := hc
  · exact absurd hR hne
  unfold beforeCursor afterCursor
  induction es with
  | nil => cases he
  | cons f es ih =>
    by_cases hf : f.link = h.entryToRestartSearch
    · exact ⟨f, by simp [hf], hf.symm⟩
    · obtain ⟨c, hes, hc⟩ := ih (by
        rcases List.mem_cons.mp he with rfl | he
        · exact absurd hR.symm hf
        · exact he)
      refine ⟨c, ?_, hc⟩
      rw [List.takeWhile_cons_of_pos (by simpa using hf), List.dropWhile_cons_of_pos (by simpa using hf),
        List.cons_append, ← hes]

lemma RoomAmong.space_le (hl : Layout h es) (hr : RoomAmong alignment size es) : size + 36 ≤ spaceBetween h := by
  obtain ⟨u, v, ⟨ys, zs, rfl⟩, d, _, h1, h2⟩ := hr
  have hp : Packed Entry.addr Entry.stop (h.baseAddress + 72) h.freeAddress
      ((ys ++ [u]) ++ (v :: zs)) := by simpa using hl.packed
  have hs := hp.space_le
  have hrem := hl.remaining
  have hroom := hl.room
  rw [lastStop_concat, firstStart] at hs
  have htk : taken Entry.addr Entry.stop (ys ++ [u] ++ v :: zs) =
      taken Entry.addr Entry.stop (ys ++ [u, v] ++ zs) := by simp
  unfold sizeofHeapEntry at h1
  unfold sizeofHeapTail at h2
  unfold spaceBetween
  omega

lemma RoomAmong.mono (hr : RoomAmong alignment size ys) (hi : ys <:+: es) : RoomAmong alignment size es := by
  obtain ⟨u, v, huv, hroom⟩ := hr
  exact ⟨u, v, huv.trans hi, hroom⟩

lemma RoomSearched.among (hc : Cursor h es) (hr : RoomSearched h es alignment size) :
    RoomAmong alignment size es := by
  unfold RoomSearched at hr
  split at hr
  · exact hr
  · next hne =>
    obtain ⟨c, hes, _⟩ := hc.split hne
    rcases hr with hr | ⟨_, hr⟩
    · exact hr.mono ⟨beforeCursor h es ++ [c], [], by simpa using hes.symm⟩
    · refine (hr.mono (List.tail_suffix _).isInfix).mono ⟨[], c :: afterCursor h es, ?_⟩
      simpa using hes.symm

lemma searchFromRestart_outcome (hl : Layout h es) (hc : Cursor h es)
    (hq : Asked h size tag (2 ^ k)) (hsp : size + 36 ≤ spaceBetween h)
    (hfuel : es.length + 4 ≤ fuel) :
    (RoomSearched h es (2 ^ k) size ∧ ∃ r, searchFromRestart fuel h size tag (2 ^ k) = .ok (some r)) ∨
      (¬ RoomSearched h es (2 ^ k) size ∧ LateCursor h es ∧
        searchFromRestart fuel h size tag (2 ^ k) = .error .check) ∨
      (¬ RoomSearched h es (2 ^ k) size ∧ ¬ LateCursor h es ∧
        searchFromRestart fuel h size tag (2 ^ k) = .ok none) := by
  have hlt : ∀ e ∈ es, e.addr ≤ 2 ^ 64 := by
    intro e he
    have := hl.mem_bounds he
    unfold Entry.stop at this
    omega
  by_cases hR : h.entryToRestartSearch = h.heapAllocations
  · have hne : es ≠ [] := by
      rintro rfl
      have hf := hl.free
      have hrem := hl.remaining
      simp only [lastStop, taken, List.map_nil, List.sum_nil] at hf hrem
      unfold spaceBetween at hsp
      omega
    have hlate : ¬ LateCursor h es := fun hlate => hlate.1 hR
    have hff := firstFit_eq_none size hlt hq.alignment_lt
    rw [searchFromRestart_head hl hq hne hR (by omega), RoomSearched, if_pos hR]
    cases hq' : firstFit (2 ^ k) size es with
    | none => exact .inr (.inr ⟨hff.mp hq', hlate, rfl⟩)
    | some q =>
      rw [hq'] at hff
      exact .inl ⟨not_not.mp fun hno => by simpa using hff.mpr hno, _, rfl⟩
  · obtain ⟨c, hes, hRc⟩ := hc.split hR
    have hbs := firstFit_eq_none size (fun e (he : e ∈ afterCursor h es) => hlt e (by rw [hes]; simp [he]))
      hq.alignment_lt
    have has := firstFit_eq_none size (fun e (he : e ∈ (beforeCursor h es).tail) =>
      hlt e (by rw [hes]; simp [List.mem_of_mem_tail he])) hq.alignment_lt
    have hrun := searchFromRestart_entry (by rwa [hes] at hl) hq hRc
      (show _ ≤ fuel by rwa [← hes])
    rw [hrun, RoomSearched, if_neg hR]
    cases hq' : firstFit (2 ^ k) size (afterCursor h es) with
    | some q =>
      rw [hq'] at hbs
      exact .inl ⟨.inl (not_not.mp fun hno => by simpa using hbs.mpr hno), _, rfl⟩
    | none =>
      have hno := hbs.mp hq'
      by_cases hlate : LateCursor h es
      · refine .inr (.inl ⟨?_, hlate, if_pos hlate.2⟩)
        rintro (hr | hr)
        · exact hno hr
        · exact hr.1 hlate
      · have hlate' : ¬ (2 ≤ (beforeCursor h es).length ∧ (afterCursor h es).length ≤ 1) :=
          fun hh => hlate ⟨hR, hh⟩
        simp only [if_neg hlate']
        cases hq'' : firstFit (2 ^ k) size (beforeCursor h es).tail with
        | some q =>
          rw [hq''] at has
          exact .inl ⟨.inr ⟨hlate, not_not.mp fun hno => by simpa using has.mpr hno⟩, _, rfl⟩
        | none =>
          refine .inr (.inr ⟨?_, hlate, rfl⟩)
          rintro (hr | hr)
          · exact hno hr
          · exact has.mp hq'' hr.2

variable (size) in
lemma allocateEntry_outcome (hl : Layout h es) (hc : Cursor h es) (ht : tag < 2 ^ 32)
    (ha : a < 2 ^ 32) (hk : effectiveAlignment a = 2 ^ k) (hfuel : es.length + 4 ≤ fuel) :
    (Met h es (2 ^ k) size tag ∧ ∃ r, allocateEntry fuel h size tag a = .ok (some r)) ∨
      (¬ Met h es (2 ^ k) size tag ∧ Trips h es size tag ∧ allocateEntry fuel h size tag a = .error .check) ∨
      (¬ Met h es (2 ^ k) size tag ∧ ¬ Trips h es size tag ∧ allocateEntry fuel h size tag a = .ok none) := by
  have hrem : spaceBetween h ≤ h.heapSizeRemaining := Nat.sub_le _ _
  have htail := hl.tail_le
  by_cases hbad : size = 0 ∨ tag = 0 ∨ h.heapSizeRemaining < size + 36
  · refine .inr (.inr ⟨?_, ?_, allocateEntry_refused hbad⟩)
    · rintro ⟨h1, h2, hr⟩
      obtain hbad := (hbad.resolve_left h1).resolve_left h2
      rcases hr with ⟨d, _, h3, h4⟩ | hr
      · unfold sizeofHeapEntry sizeofHeapTail at *
        omega
      · have := (hr.among hc).space_le hl
        omega
    · rintro ⟨h1, h2, h3, _⟩
      obtain hbad := (hbad.resolve_left h1).resolve_left h2
      unfold sizeofHeapEntry sizeofHeapTail at h3
      omega
  push Not at hbad
  have hal : 1 ≤ 2 ^ k ∧ 2 ^ k < 2 ^ 32 := by
    rw [← hk]
    unfold effectiveAlignment heapDefaultAlignment
    split <;> omega
  have hq : Asked h size tag (2 ^ k) := ⟨hbad.1, hbad.2.1, ht, hal.1, hal.2, hbad.2.2⟩
  have hq' : Asked h size tag (effectiveAlignment a) := by rwa [hk]
  have hfits := fits_iff_room size (a := h.freeAddress)
    (b := h.baseAddress + h.heapSizeMaximum - 32) hal.2 (by have := hl.top; omega)
  by_cases hf : TailFits h (effectiveAlignment a) size
  · obtain ⟨m, heq, _⟩ := allocateEntry_tail fuel hl hq' hf rfl
    rw [TailFits, hk] at hf
    exact .inl ⟨⟨hbad.1, hbad.2.1, .inl (hfits.mp hf)⟩, _, heq⟩
  · have hmet : Met h es (2 ^ k) size tag ↔ RoomSearched h es (2 ^ k) size := by
      rw [TailFits, hk, hfits] at hf
      exact ⟨fun hm => hm.2.2.resolve_left hf, fun hr => ⟨hbad.1, hbad.2.1, .inr hr⟩⟩
    rw [allocateEntry_search hl hq' hf, hmet, hk]
    by_cases hsp : spaceBetween h < size + 36
    · rw [if_pos hsp]
      refine .inr (.inr ⟨fun hr => ?_, fun htr => ?_, rfl⟩)
      · have := (hr.among hc).space_le hl
        omega
      · have := htr.2.2.1
        unfold sizeofHeapEntry sizeofHeapTail at this
        omega
    · rw [if_neg hsp]
      have htr : Trips h es size tag ↔ LateCursor h es :=
        ⟨fun htr => htr.2.2.2, fun hlate => ⟨hbad.1, hbad.2.1, Nat.le_of_not_lt hsp, hlate⟩⟩
      rw [htr]
      exact searchFromRestart_outcome hl hc hq (by omega) hfuel

/-- A call does what it should: it returns memory, or it fails, with NULL or as loudly as its caller
    has asked for, and there is no room. -/
def Answers (r : Exec (Heap × Nat)) (room : Prop) : Prop :=
  (∃ h a, a ≠ 0 ∧ r = .ok (h, a)) ∨ ((r = .error .demanded ∨ ∃ h, r = .ok (h, 0)) ∧ ¬ room)

lemma clHeapAllocatePoolWithTag_answers (hl : Layout h es) (hc : Cursor h es) (ht : tag < 2 ^ 32)
    (ha : a < 2 ^ 32) (hk : effectiveAlignment a = 2 ^ k) (hfuel : es.length + 4 ≤ fuel)
    {flags : Nat} {room : Prop} :
    Answers (clHeapAllocatePoolWithTag fuel h flags size tag a) room ↔
      Met h es (2 ^ k) size tag ∨ (¬ room ∧ ¬ Trips h es size tag) := by
  rcases allocateEntry_outcome size hl hc ht ha hk hfuel with
    ⟨hm, ⟨h', x⟩, hr⟩ | ⟨hm, htr, hr⟩ | ⟨hm, htr, hr⟩
  · refine iff_of_true (.inl ?_) (.inl hm)
    obtain ⟨ys, zs, e, rfl, rfl, _, _, hg⟩ := allocateEntry_some hl (.inl hc) ht ha hr
    have hmem : e ∈ ys ++ e :: zs := by simp
    have hoff : wadd 64 e.addr (entryOffset h'.mem e.addr) = e.data := by
      unfold entryOffset
      rw [hg.layout.field hmem (k := 0xC) (by omega), (hg.layout.entries e hmem).offset]
      exact hg.layout.field hmem (Nat.le_refl 32)
    have hne : e.data ≠ 0 := by
      unfold Entry.data
      omega
    rw [clHeapAllocatePoolWithTag, hr]
    simp only [bind_okay, hoff, ensure_pos hne.symm]
    split <;> split <;> exact ⟨_, _, hne, rfl⟩
  · rw [clHeapAllocatePoolWithTag, hr]
    refine iff_of_false ?_ ?_
    · rintro (⟨_, _, _, hx⟩ | ⟨hx | ⟨_, hx⟩, _⟩) <;> cases hx
    · rintro (hm' | ⟨_, htr'⟩)
      · exact hm hm'
      · exact htr' htr
  · rw [clHeapAllocatePoolWithTag, hr]
    have hfail : Answers (if isFlagOn flags poolAllocatePanicIfFail then (.error .demanded)
        else .ok (h, 0)) room ↔ ¬ room := by
      constructor
      · rintro (⟨_, x, hx0, hx⟩ | ⟨_, hno⟩)
        · split at hx <;> cases hx
          exact absurd rfl hx0
        · exact hno
      · intro hno
        refine .inr ⟨?_, hno⟩
        split
        · exact .inl rfl
        · exact .inr ⟨h, rfl⟩
    refine hfail.trans ⟨fun hno => .inr ⟨hno, htr⟩, ?_⟩
    rintro (hm' | ⟨hno, _⟩)
    · exact absurd hm' hm
    · exact hno

end Outcome

def lateRun : List Op := .allocate 0 16 1 0 :: gapRun

def endRun : List Op := [.allocate 0 0xFF3C 1 0]

end HAL9000.ClHeap
