import HAL9000.ClHeap.Place

/-!
# The heap: the two ways to allocate

An entry goes behind the last one (`Layout.append`) or between two neighbours (`Layout.squeeze`).
Either way the heap gets the entry and nothing else of the other entries is written but links.
-/

namespace HAL9000.ClHeap
open Lib LinkMem

/-- A request that passed the first checks of `ClHeapAllocatePoolWithTag`, with its alignment. -/
structure Asked (h : Heap) (size tag alignment : Nat) : Prop where
  size_ne : size ≠ 0
  tag_ne : tag ≠ 0
  tag_lt : tag < 2 ^ 32
  alignment_pos : 1 ≤ alignment
  alignment_lt : alignment < 2 ^ 32
  remaining : size + 36 ≤ h.heapSizeRemaining

variable {h : Heap} {es ys zs : List Entry} {e f : Entry} {m : Mem} {size tag alignment b hi x : Nat}

lemma Layout.top' (hl : Layout h es) : h.freeAddress + 32 ≤ 2 ^ 64 := hl.room.trans hl.top

lemma Layout.mem_bounds (hl : Layout h es) (he : e ∈ es) :
    h.baseAddress + 72 ≤ e.addr ∧ e.stop + 32 ≤ 2 ^ 64 ∧ e.size + 36 < 2 ^ 32 := by
  obtain ⟨h1, h2, h3⟩ := hl.packed.mem he
  have hr := hl.room
  have hs := hl.small
  have ht := hl.top
  unfold Entry.stop at *
  omega

lemma Layout.field (hl : Layout h es) (he : e ∈ es) {k : Nat} (hk : k ≤ 32) : wadd 64 e.addr k = e.addr + k := by
  have hb := hl.mem_bounds he
  unfold Entry.stop at hb
  exact wadd_eq (by omega)

lemma Layout.numbers (hl : Layout h es) :
    h.heapSizeRemaining < 2 ^ 32 ∧ h.heapNumberOfAllocations + 1 < 2 ^ 64 := by
  have hr := hl.remaining
  have hs := hl.small
  have hc := hl.count
  -- every entry takes up at least one byte
  have hlen : es.length ≤ taken Entry.addr Entry.stop es := by
    clear hl hr hs hc
    induction es with
    | nil => simp
    | cons e es ih =>
      rw [taken_cons, List.length_cons]
      unfold Entry.stop at *
      omega
  omega

lemma Asked.size_lt (hq : Asked h size tag alignment) (hl : Layout h es) : size + 36 < 2 ^ 32 := by
  have := hq.remaining
  have := hl.numbers
  omega

lemma Layout.ring_before (hl : Layout h (ys ++ zs))
    (hp : Packed Entry.addr Entry.stop (h.baseAddress + 72) hi (ys ++ e :: zs))
    (hw : Within e.Own h.mem m) :
    Ring (links m) h.heapAllocations ((ys ++ zs).map Entry.link) := by
  refine ring_keep (b := h.baseAddress) hl.ring fun x hx => hw x fun ho => ?_
  refine linkBytes_not_entry hp hx ?_
  unfold Entry.Own Entry.data Span at ho
  unfold Span
  omega

lemma own_not_links (hp : Packed Entry.addr Entry.stop (b + 72) hi (ys ++ e :: zs))
    (hf : f ∈ ys ++ e :: zs) (hx : f.Own x) {p q : Nat}
    (hp' : p ∈ (b + 56) :: (ys ++ zs).map Entry.link)
    (hq : q ∈ (b + 56) :: (ys ++ zs).map Entry.link) :
    ¬ (Span e.link 16 x ∨ Span p 16 x ∨ Span q 16 x) := by
  intro hs
  refine own_not_linkBytes hp hf hx ?_
  rcases hs with hs | hs | hs
  · exact linkBytes_insert (.inl rfl) hs
  · exact linkBytes_insert (.inr hp') hs
  · exact linkBytes_insert (.inr hq) hs

lemma window_of_links (hw : Within e.Own h.mem m) {m' : Mem} {p q : Nat}
    (hp : p ∈ (b + 56) :: es.map Entry.link) (hq : q ∈ (b + 56) :: es.map Entry.link)
    (hw' : Within (fun x => Span e.link 16 x ∨ Span p 16 x ∨ Span q 16 x) m m') :
    Within (Window b es e) h.mem m' := by
  refine (hw.mono ?_).trans (hw'.mono ?_)
  · intro x hx
    left
    unfold Entry.Own Entry.data Span at hx
    unfold Span
    omega
  · rintro x (hx | hx | hx)
    · left
      unfold Entry.link at hx
      unfold Span at *
      omega
    · exact .inr ⟨p, hp, hx⟩
    · exact .inr ⟨q, hq, hx⟩

/-- `m'` is `m` with the entry linked in between `ys` and `zs`; only its links and those of two
    neighbours were written. -/
def LinkedBetween (b : Nat) (ys zs : List Entry) (e : Entry) (m m' : Mem) : Prop :=
  Ring (links m') (b + 56) ((ys ++ e :: zs).map Entry.link) ∧
    ∃ p ∈ (b + 56) :: (ys ++ zs).map Entry.link, ∃ q ∈ (b + 56) :: (ys ++ zs).map Entry.link,
      Within (fun x => Span e.link 16 x ∨ Span p 16 x ∨ Span q 16 x) m m'

section

variable (hp : Packed Entry.addr Entry.stop (b + 72) hi (ys ++ e :: zs))
include hp

lemma linking_facts (hhi : hi ≤ 2 ^ 64) : Separate Mem (· ∈ (b + 56) :: (ys ++ e :: zs).map Entry.link) ∧
      (∀ y ∈ (b + 56) :: (ys.map Entry.link ++ zs.map Entry.link), y ∈ (b + 56) :: (ys ++ e :: zs).map Entry.link) ∧
      e.link ∉ (b + 56) :: (ys.map Entry.link ++ zs.map Entry.link) := by
  refine ⟨separate_of_packed hp hhi, fun y hy => ?_, ?_⟩
  · simp only [List.map_append, List.map_cons, List.mem_cons, List.mem_append] at hy ⊢
    exact hy.imp_right fun hy => hy.imp_right .inr
  · rw [← List.map_append]
    exact link_not_mem hp

variable (hhi : hi ≤ 2 ^ 64) (hr : Ring (links m) (b + 56) ((ys ++ zs).map Entry.link))
include hhi hr

lemma insertHeadList_linkedBetween :
    LinkedBetween b ys zs e m
      (insertHeadList m ((ys.map Entry.link).getLastD (b + 56)) e.link) := by
  obtain ⟨hsep, hmem, hnew⟩ := linking_facts hp hhi
  rw [List.map_append] at hr
  have hin := insertHeadList_ring (m := m) (e := e.link) hsep hr hmem hnew (by simp)
  have hfl : flink m ((ys.map Entry.link).getLastD (b + 56)) = (zs.map Entry.link).headD (b + 56) :=
    hr.joined.1
  have hw := insertHeadList_within m ((ys.map Entry.link).getLastD (b + 56)) e.link
  rw [hfl] at hw
  refine ⟨by simpa using hin.ring hr hmem hnew, _, ?_, _, ?_, hw⟩
  · rw [List.map_append]
    exact headD_mem_ring ..
  · rw [List.map_append]
    exact getLastD_mem_ring ..

lemma insertTailList_linkedBetween :
    LinkedBetween b ys zs e m
      (insertTailList m ((zs.map Entry.link).headD (b + 56)) e.link) := by
  obtain ⟨hsep, hmem, hnew⟩ := linking_facts hp hhi
  rw [List.map_append] at hr
  have hin := insertTailList_ring (m := m) (e := e.link) hsep hr hmem hnew (by simp)
  have hbl : blink m ((zs.map Entry.link).headD (b + 56)) = (ys.map Entry.link).getLastD (b + 56) :=
    hr.joined.2
  have hw := insertTailList_within m ((zs.map Entry.link).headD (b + 56)) e.link
  rw [hbl] at hw
  refine ⟨by simpa using hin.ring hr hmem hnew, _, ?_, _, ?_, hw⟩
  · rw [List.map_append]
    exact getLastD_mem_ring ..
  · rw [List.map_append]
    exact headD_mem_ring ..

end

lemma Layout.initHeapEntry_placed (add : Bool) (hl : Layout h es) (hq : Asked h size tag alignment) {a bnd : Nat}
    {m1 : Mem} (hf : Fits alignment size a bnd) (he : e = placed alignment size tag a) (htop : bnd + 32 ≤ 2 ^ 64)
    (hm1 : m1 = if add then insertTailList (writeHead h.mem e) h.heapAllocations e.link else writeHead h.mem e)
    (hkeep : ∀ x, Span e.addr 16 x → m1 x = writeHead h.mem e x) :
    ∃ m, initHeapEntry h a tag size alignment add (bnd - a) = ⟨h.charged m size, e.addr, e.stop⟩ ∧ EntryAt m e ∧
      Within e.Own m1 m := by
  have hb := hf.bounds (t := tag)
  rw [← he] at hb
  have hsz : e.size = size := by rw [he]; rfl
  have htg : e.tag = tag := by rw [he]; rfl
  have hsize := hq.size_lt hl
  have hnum := hl.numbers
  have hle : a < bnd := by
    unfold Entry.stop at hb
    omega
  obtain ⟨m, hwr, hat, hwi⟩ := writeHeapEntry_spec (m := h.mem) (e := e) h.heapAllocations
    add (by omega) (by omega) (by rw [htg]; exact hq.tag_lt) (by rw [hsz]; exact hq.size_ne)
    (by rw [htg]; exact hq.tag_ne) hm1 hkeep
  rw [htg, hsz] at hwr
  refine ⟨m, initHeapEntry_fits (bnd - a) hq.alignment_pos hq.alignment_lt hsize (by omega) (by omega) hq.remaining
    (by omega) hnum.2 (by rwa [Nat.add_sub_cancel' hle.le]) he (by rw [hsz]; exact hwr), hat, hwi.mono ?_⟩
  rintro x (hx | hx)
  · exact .inl (by unfold Span at *; omega)
  · exact .inr (by unfold Span at *; omega)

lemma Layout.squeeze (hl : Layout h (ys ++ zs)) (hq : Asked h size tag alignment) (hz : zs ≠ [])
    (hf : Fits alignment size (lastStop Entry.stop (h.baseAddress + 72) ys)
      (firstStart Entry.addr h.freeAddress zs))
    (he : e = placed alignment size tag (lastStop Entry.stop (h.baseAddress + 72) ys)) :
    ∃ m m', initHeapEntry h (lastStop Entry.stop (h.baseAddress + 72) ys) tag size alignment false
        (firstStart Entry.addr h.freeAddress zs - lastStop Entry.stop (h.baseAddress + 72) ys) =
        ⟨h.charged m size, e.addr, e.stop⟩ ∧
      (∀ f ∈ ys ++ zs, EntryAt m f) ∧
      m' = insertHeadList m ((ys.map Entry.link).getLastD h.heapAllocations) e.link ∧
      Within (Window h.baseAddress (ys ++ zs) e) h.mem m' ∧
      Layout { h.charged m' size with entryToRestartSearch := e.link } (ys ++ e :: zs) := by
  have hb := hf.bounds (t := tag)
  rw [← he] at hb
  have hsz : e.size = size := by rw [he]; rfl
  have htop := hl.top'
  have hbnd := hl.packed.bound
  have hp := hl.packed.insert (e := e) hb.1 (by unfold Entry.stop; omega) hb.2
  -- the fields of the entry
  obtain ⟨m, hinit, hat, hwi⟩ := hl.initHeapEntry_placed false hq hf he (by omega) rfl fun _ _ => rfl
  have hown : Within e.Own h.mem m := ((writeHead_within h.mem e).mono fun x hx => .inl hx).trans hwi
  -- its place in the list
  have hr := hl.ring_before hp hown
  obtain ⟨hr', p, hp', q, hq', hwl⟩ := insertHeadList_linkedBetween hp (by omega) hr
  have hwin := window_of_links hown hp' hq' hwl
  refine ⟨m, _, hinit, ?_, rfl, hwin, ?_⟩
  · intro f hf
    refine (hl.entries f hf).congr fun x hx => hown x fun ho => own_not_window hp hf hx.own (.inl ?_)
    unfold Entry.Own Entry.data Span at ho
    unfold Span
    omega
  · rw [← hsz]
    refine hl.install hp ?_ hl.room (by rw [hsz]; exact hq.remaining) hwin ?_ ?_
    · rw [hl.free]
      cases zs with
      | nil => exact absurd rfl hz
      | cons z zs =>
        rw [lastStop_append_cons, lastStop_append_cons]
        rfl
    · exact hat.congr fun x hx => hwl x (own_not_links hp (by simp) hx.own hp' hq')
    · exact hr'

lemma Layout.append (hl : Layout h es) (hq : Asked h size tag alignment)
    (hf : Fits alignment size h.freeAddress (h.baseAddress + h.heapSizeMaximum - 32))
    (he : e = placed alignment size tag h.freeAddress) :
    ∃ m, initHeapEntry h h.freeAddress tag size alignment true
        (h.baseAddress + h.heapSizeMaximum - 32 - h.freeAddress) = ⟨h.charged m size, e.addr, e.stop⟩ ∧
      Within (Window h.baseAddress es e) h.mem m ∧
      Layout { h.charged m size with freeAddress := e.stop } (es ++ [e]) := by
  have hb := hf.bounds (t := tag)
  rw [← he] at hb
  have hsz : e.size = size := by rw [he]; rfl
  have htop := hl.top
  have hroom := hl.room
  have hl' : Layout h (es ++ []) := by simpa using hl
  have hp : Packed Entry.addr Entry.stop (h.baseAddress + 72) e.stop (es ++ [e]) := by
    have hw := hl.packed.widen (a := h.baseAddress + 72) (b := e.stop) ?_ ?_
    · refine Packed.insert (y := es) (z := []) (by simpa using hw) ?_ (by unfold Entry.stop; omega)
        (Nat.le_refl _)
      rw [← hl.free]
      exact hb.1
    · have := hl.packed.le_firstStart
      cases es with
      | nil =>
        have := hl.packed.le
        simp only [firstStart]
        unfold Entry.stop at *
        omega
      | cons f es => exact this
    · unfold Entry.stop at *
      omega
  -- the first fields, and the place in the list
  have hhead : Within e.Own h.mem (writeHead h.mem e) :=
    (writeHead_within h.mem e).mono fun x hx => .inl hx
  have hr := hl'.ring_before hp hhead
  obtain ⟨hr1, p, hp', q, hq', hwl⟩ := insertTailList_linkedBetween hp (by omega) hr
  -- the other fields
  obtain ⟨m, hinit, hat, hwi⟩ := hl.initHeapEntry_placed true hq hf he (by omega) rfl
    fun x hx => hwl x (own_not_links hp (by simp) (.inl hx) hp' hq')
  have hwin : Within (Window h.baseAddress (es ++ []) e) h.mem m := by
    refine (window_of_links hhead hp' hq' hwl).trans (hwi.mono fun x hx => .inl ?_)
    unfold Entry.Own Entry.data Span at hx
    unfold Span
    omega
  refine ⟨m, hinit, by simpa using hwin, ?_⟩
  rw [← hsz]
  refine hl'.install hp lastStop_concat.symm ?_ (by rw [hsz]; exact hq.remaining) hwin hat ?_
  · omega
  · exact ring_keep hr1 fun x hx => hwi x fun ho => own_not_linkBytes hp (by simp) ho hx

end HAL9000.ClHeap
