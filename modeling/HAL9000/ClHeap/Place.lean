import HAL9000.ClHeap.Layout

/-!
# The heap: placing an entry

What `_InitHeapEntry` does: when an entry fits into a space, where it goes, and what is written.
-/

namespace HAL9000.ClHeap
open Lib LinkMem

/-- Where the data of an entry goes in a space that starts at `a`. -/
def alignedData (a alignment : Nat) : Nat := alignAddressUpper (a + 32) alignment

/-- The aligned entry fits between `a` and `b`. -/
def Fits (alignment size a b : Nat) : Prop :=
  a + 32 ≤ alignedData a alignment ∧ alignedData a alignment + size + 4 ≤ b

instance (alignment size a b : Nat) : Decidable (Fits alignment size a b) := by
  unfold Fits
  infer_instance

/-- The entry that goes into a space that starts at `a`. -/
def placed (alignment size tag a : Nat) : Entry := ⟨alignedData a alignment - 32, size, tag⟩

section Space

variable {a b alignment size tag avail t : Nat}

lemma Fits.addr (hf : Fits alignment size a b) :
    (placed alignment size t a).addr + 32 = alignedData a alignment := by
  have := hf.1
  simp only [placed]
  omega

lemma Fits.bounds (hf : Fits alignment size a b) :
    a ≤ (placed alignment size t a).addr ∧ (placed alignment size t a).stop ≤ b := by
  have h1 := hf.1
  have h2 := hf.2
  simp only [placed, Entry.stop]
  omega

/-- The comparison in `_InitHeapEntry` finds out whether the entry fits, whatever the alignment, and
    also where the address wraps around. -/
lemma fits_iff (hal : 1 ≤ alignment) (hal' : alignment < 2 ^ 32) (hs : size + 36 < 2 ^ 32)
    (hpos : 0 < avail) (htop : a + 32 + avail ≤ 2 ^ 64) :
    ¬ (avail < wadd 64 (wsub 64 (alignedData a alignment) (a + 32)) (size + 36)) ↔
      Fits alignment size a (a + avail) := by
  unfold Fits
  have hlt : alignedData a alignment < 2 ^ 64 := by
    unfold alignedData alignAddressUpper alignAddressLower
    exact lt_of_le_of_lt Nat.and_le_left (wsub_lt ..)
  by_cases hw : a + 32 + alignment ≤ 2 ^ 64
  · have hb := alignAddressUpper_bounds (a := a + 32) hal (by omega) hw
    change a + 32 ≤ alignedData a alignment ∧ alignedData a alignment < a + 32 + alignment at hb
    generalize alignedData a alignment = d at *
    rw [wsub_eq hlt hb.1, wadd_eq (by omega)]
    omega
  · -- the sum wraps around, and the distance is larger than what is left of the address space
    have hd : alignedData a alignment < 2 ^ 32 := by
      unfold alignedData alignAddressUpper alignAddressLower
      refine lt_of_le_of_lt Nat.and_le_left ?_
      unfold wsub wadd
      omega
    generalize alignedData a alignment = d at *
    have h1 : wsub 64 d (a + 32) = d + (2 ^ 64 - (a + 32)) := by
      unfold wsub
      rw [Nat.mod_eq_of_lt (by omega : a + 32 < 2 ^ 64), Nat.mod_eq_of_lt (by omega)]
    rw [h1, wadd_eq (by omega)]
    omega

end Space

section Writes

variable {m m1 : Mem} {head : Nat} {e : Entry} {add : Bool}

def writeHead (m : Mem) (e : Entry) : Mem :=
  writeLE (writeLE (writeLE m e.addr 4 heapMagic) (e.addr + 8) 4 e.size) (e.addr + 4) 4 e.tag

lemma writeHead_within (m : Mem) (e : Entry) : Within (Span e.addr 16) m (writeHead m e) := by
  unfold writeHead
  refine .write (.write (writeLE_within.mono ?_) ?_) ?_
  all_goals
    intro x hx
    unfold Span at *
    omega

lemma readLE_writeHead (hs : e.size < 2 ^ 32) (ht : e.tag < 2 ^ 32) {m' : Mem}
    (hm : ∀ x, Span e.addr 12 x → m' x = writeHead m e x) :
    readLE m' e.addr 4 = heapMagic ∧ readLE m' (e.addr + 4) 4 = e.tag ∧
      readLE m' (e.addr + 8) 4 = e.size := by
  refine ⟨?_, ?_, ?_⟩
  · rw [readLE_congr fun x hx => hm x (by unfold Span at *; omega), writeHead]
    rw [writeLE_within.readLE (by unfold Span; omega), writeLE_within.readLE (by unfold Span; omega)]
    exact readLE_writeLE _ _ (by decide)
  · rw [readLE_congr fun x hx => hm x (by unfold Span at *; omega), writeHead]
    exact readLE_writeLE _ _ ht
  · rw [readLE_congr fun x hx => hm x (by unfold Span at *; omega), writeHead]
    rw [writeLE_within.readLE (by unfold Span; omega)]
    exact readLE_writeLE _ _ hs

variable (head add) in
/-- What `_InitHeapEntry` writes: the first three fields, the links, and then the offset and the tail.
    Linking the entry in must not touch its own fields. -/
lemma writeHeapEntry_spec (hstop : e.stop ≤ 2 ^ 64) (hs : e.size < 2 ^ 32) (ht : e.tag < 2 ^ 32)
    (hs0 : e.size ≠ 0) (ht0 : e.tag ≠ 0)
    (hm1 : m1 = if add then insertTailList (writeHead m e) head e.link else writeHead m e)
    (hkeep : ∀ x, Span e.addr 16 x → m1 x = writeHead m e x) :
    ∃ m', writeHeapEntry m head e.addr e.data e.tag e.size add = (m', e.data + e.size) ∧
      EntryAt m' e ∧ Within (fun x => Span (e.addr + 12) 4 x ∨ Span (e.data + e.size) 4 x) m1 m' := by
  have h4 : wadd 64 e.addr 4 = e.addr + 4 := wadd_eq (by unfold Entry.stop at hstop; omega)
  have h8 : wadd 64 e.addr 8 = e.addr + 8 := wadd_eq (by unfold Entry.stop at hstop; omega)
  have h12 : wadd 64 e.addr 0xC = e.addr + 12 := wadd_eq (by unfold Entry.stop at hstop; omega)
  have hl : listEntry e.addr = e.link := wadd_eq (by unfold Entry.stop at hstop; omega)
  have hoff : wsub 64 e.data e.addr % 2 ^ 32 = 32 := by
    unfold Entry.data
    rw [wsub_eq (by unfold Entry.stop at hstop; omega) (by omega)]
    omega
  have hsize : entrySize (writeLE m1 (e.addr + 12) 4 32) e.addr = e.size := by
    unfold entrySize
    rw [h8]
    refine (readLE_writeHead (m := m) hs ht fun x hx => ?_).2.2
    rw [writeLE_within x (by unfold Span at *; omega)]
    exact hkeep x (by unfold Span at *; omega)
  have htail : wadd 64 e.data e.size = e.data + e.size :=
    wadd_eq (by unfold Entry.stop at hstop; unfold Entry.data; omega)
  have heq : writeHeapEntry m head e.addr e.data e.tag e.size add =
      (writeLE (writeLE m1 (e.addr + 12) 4 32) (e.data + e.size) 4 heapMagic, e.data + e.size) := by
    simp only [writeHeapEntry, h4, h8, h12, hl, hoff]
    rw [← writeHead, ← hm1, hsize, htail]
  have hin : Within (fun x => Span (e.addr + 12) 4 x ∨ Span (e.data + e.size) 4 x) m1
      (writeLE (writeLE m1 (e.addr + 12) 4 32) (e.data + e.size) 4 heapMagic) :=
    .write (writeLE_within.mono fun _ hx => .inl hx) fun _ hx => .inr hx
  refine ⟨_, heq, ?_, hin⟩
  obtain ⟨hmagic, htag, hsz⟩ := readLE_writeHead (m := m) hs ht
    (show ∀ x, Span e.addr 12 x → writeLE (writeLE m1 (e.addr + 12) 4 32) (e.data + e.size) 4
        heapMagic x = writeHead m e x by
      intro x hx
      rw [hin x (by unfold Entry.data Span at *; omega)]
      exact hkeep x (by unfold Span at *; omega))
  refine ⟨hmagic, htag, hsz, ?_, readLE_writeLE _ _ (by decide), ht0, hs0⟩
  rw [writeLE_within.readLE (by unfold Entry.data Span; omega)]
  exact readLE_writeLE _ _ (by decide)

end Writes

section Init

variable {h : Heap} {m : Mem} {a alignment size tag avail : Nat} {add : Bool}

variable (tag avail add) in
lemma initHeapEntry_small (hal : 1 ≤ alignment) (hal' : alignment < 2 ^ 32) (hs : size + 36 < 2 ^ 32)
    (hpos : 0 < avail) (htop : a + 32 + avail ≤ 2 ^ 64)
    (hf : ¬ Fits alignment size a (a + avail)) :
    initHeapEntry h a tag size alignment add avail = ⟨h, a, 0⟩ := by
  have hu : wadd 64 a sizeofHeapEntry = a + 32 := wadd_eq (by unfold sizeofHeapEntry; omega)
  have hz : (size + sizeofHeapEntry + sizeofHeapTail) % 2 ^ 32 = size + 36 :=
    Nat.mod_eq_of_lt hs
  have hc := Decidable.not_not.mp fun hc => hf ((fits_iff hal hal' hs hpos htop).mp hc)
  simp only [initHeapEntry, hu, hz]
  exact if_pos hc

variable (avail) in
lemma initHeapEntry_fits (hal : 1 ≤ alignment) (hal' : alignment < 2 ^ 32) (hs : size + 36 < 2 ^ 32)
    (hpos : 0 < avail) (htop : a + 32 + avail ≤ 2 ^ 64)
    (hrem : size + 36 ≤ h.heapSizeRemaining) (hrem' : h.heapSizeRemaining < 2 ^ 64)
    (hnum : h.heapNumberOfAllocations + 1 < 2 ^ 64) (hf : Fits alignment size a (a + avail))
    {e : Entry} (he : e = placed alignment size tag a)
    (hw : writeHeapEntry h.mem h.heapAllocations e.addr e.data tag size add = (m, e.data + e.size)) :
    initHeapEntry h a tag size alignment add avail =
      ⟨h.charged m size, e.addr, e.stop⟩ := by
  have hu : wadd 64 a sizeofHeapEntry = a + 32 := wadd_eq (by unfold sizeofHeapEntry; omega)
  have hz : (size + sizeofHeapEntry + sizeofHeapTail) % 2 ^ 32 = size + 36 :=
    Nat.mod_eq_of_lt hs
  have hd : alignAddressUpper (a + 32) alignment = e.data := by
    rw [he]
    exact (hf.addr (t := tag)).symm
  have hb := hf.bounds (t := tag)
  rw [← he] at hb
  have he' : wsub 64 e.data sizeofHeapEntry = e.addr := by
    unfold Entry.data sizeofHeapEntry
    rw [wsub_eq (by unfold Entry.stop at hb; omega) (by omega)]
    omega
  have hr : wsub 64 h.heapSizeRemaining (size + 36) = h.heapSizeRemaining - (size + 36) :=
    wsub_eq hrem' hrem
  have hn : wadd 64 h.heapNumberOfAllocations 1 = h.heapNumberOfAllocations + 1 := wadd_eq hnum
  have ht : wadd 64 (e.data + e.size) sizeofHeapTail = e.stop := by
    have hsz : e.size = size := by rw [he]; rfl
    unfold Entry.stop at hb ⊢
    unfold Entry.data sizeofHeapTail
    rw [wadd_eq (by omega)]
    omega
  have hc := (fits_iff hal hal' hs hpos htop).mpr hf
  unfold alignedData at hc
  simp only [initHeapEntry, hu, hz]
  rw [if_neg hc, hd, he', hw]
  simp only [hr, hn, ht]

end Init

end HAL9000.ClHeap
