import HAL9000.ClHeap.Model
import HAL9000.Lib.Packed

/-!
# The heap: its layout

`Layout h es` says that the heap holds the entries `es`: they lie in a row behind the header, their
links form a ring in this order, their headers and tails are in memory, and the numbers in the heap
header are right.
-/

namespace HAL9000.ClHeap
open Lib LinkMem

structure Entry where
  addr : Nat
  size : Nat
  tag : Nat
deriving DecidableEq, Repr

def Entry.link (e : Entry) : Nat := e.addr + 16

def Entry.data (e : Entry) : Nat := e.addr + 32

def Entry.stop (e : Entry) : Nat := e.addr + e.size + 36

def Entry.Own (e : Entry) (x : Nat) : Prop := Span e.addr 16 x ∨ Span e.data (e.size + 4) x

def Entry.Fields (e : Entry) (x : Nat) : Prop := Span e.addr 16 x ∨ Span (e.data + e.size) 4 x

lemma Entry.Fields.own {e : Entry} {x : Nat} (hx : e.Fields x) : e.Own x := by
  unfold Entry.Fields Span at hx
  unfold Entry.Own Span
  omega

structure EntryAt (m : Mem) (e : Entry) : Prop where
  magic : readLE m e.addr 4 = heapMagic
  tag : readLE m (e.addr + 4) 4 = e.tag
  size : readLE m (e.addr + 8) 4 = e.size
  offset : readLE m (e.addr + 12) 4 = sizeofHeapEntry
  tail : readLE m (e.data + e.size) 4 = heapMagic
  tag_ne : e.tag ≠ 0
  size_ne : e.size ≠ 0

/-- The heap holds these entries, in the order of their addresses. -/
structure Layout (h : Heap) (es : List Entry) : Prop where
  base : 0 < h.baseAddress
  top : h.baseAddress + h.heapSizeMaximum ≤ 2 ^ 64
  small : h.heapSizeMaximum < 2 ^ 32
  ring : Ring (links h.mem) h.heapAllocations (es.map Entry.link)
  packed : Packed Entry.addr Entry.stop (h.baseAddress + 72) h.freeAddress es
  free : h.freeAddress = lastStop Entry.stop (h.baseAddress + 72) es
  room : h.freeAddress + 32 ≤ h.baseAddress + h.heapSizeMaximum
  entries : ∀ e ∈ es, EntryAt h.mem e
  remaining : h.heapSizeRemaining + taken Entry.addr Entry.stop es + 72 = h.heapSizeMaximum
  count : h.heapNumberOfAllocations = es.length

variable {h h' : Heap} {es ys zs : List Entry} {e f : Entry} {m m' : Mem} {b hi x a : Nat}

lemma EntryAt.congr (he : EntryAt m e) (hs : ∀ x, e.Fields x → m' x = m x) : EntryAt m' e where
  magic := (readLE_congr fun x hx => hs x (.inl (by unfold Span at *; omega))).trans he.magic
  tag := (readLE_congr fun x hx => hs x (.inl (by unfold Span at *; omega))).trans he.tag
  size := (readLE_congr fun x hx => hs x (.inl (by unfold Span at *; omega))).trans he.size
  offset := (readLE_congr fun x hx => hs x (.inl (by unfold Span at *; omega))).trans he.offset
  tail := (readLE_congr fun x hx => hs x (.inr hx)).trans he.tail
  tag_ne := he.tag_ne
  size_ne := he.size_ne

lemma sameLinks_of (hs : ∀ x, Span a 16 x → m' x = m x) : SameLinks m m' a :=
  ⟨readLE_congr fun x hx => hs x (by unfold Span at *; omega),
    readLE_congr fun x hx => hs x (by unfold Span at *; omega)⟩

lemma separate_mem {S : Nat → Prop} (hlt : ∀ x, S x → x < 2 ^ 64)
    (hap : ∀ x y, S x → S y → x ≠ y → x + 16 ≤ y ∨ y + 16 ≤ x) : Separate Mem S where
  flink_setFlink := fun _ hv => readLE_writeLE _ _ (hlt _ hv)
  flink_setFlink_ne := by
    intro m x v y hx hy hne
    refine writeLE_within.readLE fun z hz hw => ?_
    have := hap x y hx hy hne.symm
    unfold Span at hz hw
    omega
  flink_setBlink := by
    intro m x v y hx hy
    refine writeLE_within.readLE fun z hz hw => ?_
    unfold Span at hz hw
    by_cases e : x = y
    · omega
    · have := hap x y hx hy e
      omega
  blink_setBlink := fun _ hv => readLE_writeLE _ _ (hlt _ hv)
  blink_setBlink_ne := by
    intro m x v y hx hy hne
    refine writeLE_within.readLE fun z hz hw => ?_
    have := hap x y hx hy hne.symm
    unfold Span at hz hw
    omega
  blink_setFlink := by
    intro m x v y hx hy
    refine writeLE_within.readLE fun z hz hw => ?_
    unfold Span at hz hw
    by_cases e : x = y
    · omega
    · have := hap x y hx hy e
      omega

lemma apart_of_packed (hp : Packed Entry.addr Entry.stop (b + 72) hi es) {y : Nat}
    (hx : x ∈ (b + 56) :: es.map Entry.link) (hy : y ∈ (b + 56) :: es.map Entry.link) (hne : x ≠ y) :
    x + 16 ≤ y ∨ y + 16 ≤ x := by
  have hfirst : ∀ e ∈ es, b + 56 + 16 ≤ e.link := by
    intro e he
    have := (hp.mem he).1
    unfold Entry.link
    omega
  rcases List.mem_cons.mp hx with rfl | hx <;> rcases List.mem_cons.mp hy with rfl | hy
  · exact absurd rfl hne
  · obtain ⟨f, hf, rfl⟩ := List.mem_map.mp hy
    exact .inl (hfirst f hf)
  · obtain ⟨e, he, rfl⟩ := List.mem_map.mp hx
    exact .inr (hfirst e he)
  · obtain ⟨e, he, rfl⟩ := List.mem_map.mp hx
    obtain ⟨f, hf, rfl⟩ := List.mem_map.mp hy
    have := hp.disjoint he hf (fun e => hne (by rw [e]))
    unfold Entry.stop at this
    unfold Entry.link
    omega

lemma separate_of_packed {t : Nat} (hp : Packed Entry.addr Entry.stop (b + 72) t es) (hhi : t ≤ 2 ^ 64) :
    Separate Mem (· ∈ (b + 56) :: es.map Entry.link) := by
  refine separate_mem (fun x hx => ?_) (fun x y hx hy => apart_of_packed hp hx hy)
  rcases List.mem_cons.mp hx with rfl | hx
  · have := hp.le
    omega
  · obtain ⟨e, he, rfl⟩ := List.mem_map.mp hx
    have := (hp.mem he).2.2
    unfold Entry.stop at this
    unfold Entry.link
    omega

lemma insertTailList_within (m : Mem) (q a : Nat) :
    Within (fun x => Span a 16 x ∨ Span (blink m q) 16 x ∨ Span q 16 x) m
      (insertTailList m q a) := by
  unfold insertTailList
  refine .write (.write (.write (.write (.refl _ m) fun x hx => .inl ?_) fun x hx => .inl ?_)
    fun x hx => .inr (.inl ?_)) fun x hx => .inr (.inr ?_)
  all_goals unfold Span at *; omega

lemma insertHeadList_within (m : Mem) (p a : Nat) :
    Within (fun x => Span a 16 x ∨ Span (flink m p) 16 x ∨ Span p 16 x) m
      (insertHeadList m p a) := by
  unfold insertHeadList
  refine .write (.write (.write (.write (.refl _ m) fun x hx => .inl ?_) fun x hx => .inl ?_)
    fun x hx => .inr (.inl ?_)) fun x hx => .inr (.inr ?_)
  all_goals unfold Span at *; omega

lemma removeEntryList_within (m : Mem) (a : Nat) :
    Within (fun x => Span (blink m a) 16 x ∨ Span (flink m a) 16 x) m (removeEntryList m a).1 := by
  unfold removeEntryList
  refine .write (.write (.refl _ m) fun x hx => .inl ?_) fun x hx => .inr ?_
  all_goals unfold Span at *; omega

def LinkBytes (b : Nat) (es : List Entry) (x : Nat) : Prop := ∃ l ∈ (b + 56) :: es.map Entry.link, Span l 16 x

def Window (b : Nat) (es : List Entry) (e : Entry) (x : Nat) : Prop :=
  Span e.addr (e.size + 36) x ∨ LinkBytes b es x

lemma own_not_linkBytes (hp : Packed Entry.addr Entry.stop (b + 72) hi es) (hf : f ∈ es)
    (hx : f.Own x) : ¬ LinkBytes b es x := by
  rintro ⟨l, hl, hs⟩
  unfold Entry.Own Entry.data Span at hx
  unfold Span at hs
  rcases List.mem_cons.mp hl with rfl | hl
  · have := (hp.mem hf).1
    omega
  · obtain ⟨g, hg, rfl⟩ := List.mem_map.mp hl
    unfold Entry.link at hs
    by_cases e : g = f
    · subst e
      omega
    · have := hp.disjoint hg hf e
      unfold Entry.stop at this
      omega

section

variable (hp : Packed Entry.addr Entry.stop (b + 72) hi (ys ++ e :: zs))
include hp

lemma own_not_window
    (hf : f ∈ ys ++ zs) (hx : f.Own x) : ¬ Window b (ys ++ zs) e x := by
  rintro (hs | hl)
  · have := hp.beside hf
    unfold Entry.stop at this
    unfold Entry.Own Entry.data Span at hx
    unfold Span at hs
    omega
  · exact own_not_linkBytes hp.remove hf hx hl

lemma linkBytes_not_entry
    (hx : LinkBytes b (ys ++ zs) x) : ¬ Span e.addr (e.size + 36) x := by
  obtain ⟨l, hl, hs⟩ := hx
  unfold Span at hs
  intro he
  unfold Span at he
  rcases List.mem_cons.mp hl with rfl | hl
  · have := (hp.mem (e := e) (by simp)).1
    omega
  · obtain ⟨g, hg, rfl⟩ := List.mem_map.mp hl
    have := hp.beside hg
    unfold Entry.link at hs
    unfold Entry.stop at this
    omega

lemma link_not_mem : e.link ∉ (b + 56) :: (ys ++ zs).map Entry.link := by
  intro hm
  refine linkBytes_not_entry hp (x := e.link) ⟨e.link, hm, ?_⟩ ?_
  · unfold Span
    omega
  · unfold Entry.link Span
    omega

end

lemma linkBytes_insert {l : Nat} (hl : l = e.link ∨ l ∈ (b + 56) :: (ys ++ zs).map Entry.link)
    (hx : Span l 16 x) : LinkBytes b (ys ++ e :: zs) x := by
  refine ⟨l, ?_, hx⟩
  simp only [List.map_append, List.map_cons, List.mem_cons, List.mem_append] at hl ⊢
  tauto

lemma ring_keep (hr : Ring (links m) (b + 56) (es.map Entry.link))
    (hs : ∀ x, LinkBytes b es x → m' x = m x) : Ring (links m') (b + 56) (es.map Entry.link) :=
  ring_frame hr fun l hl => sameLinks_of fun x hx => hs x ⟨l, hl, hx⟩

lemma Layout.payload (hl : Layout h es) (he : e ∈ es) (hw : Within (Span e.data e.size) h.mem m) :
    Layout { h with mem := m } es := by
  have hown : ∀ x, Span e.data e.size x → e.Own x := by
    intro x hx
    exact .inr (by unfold Span at *; omega)
  refine { hl with ring := ?_, entries := ?_ }
  · exact ring_keep (b := h.baseAddress) hl.ring fun x hx => hw x fun ho =>
      own_not_linkBytes hl.packed he (hown x ho) hx
  · intro f hf
    refine (hl.entries f hf).congr fun x hx => hw x fun ho => ?_
    unfold Entry.Fields Entry.data Span at hx
    unfold Entry.data Span at ho
    by_cases e' : e = f
    · subst e'
      omega
    · have := hl.packed.disjoint he hf e'
      unfold Entry.stop at this
      omega

abbrev Heap.charged (h : Heap) (m : Mem) (size : Nat) : Heap := { h with
    mem := m
    heapSizeRemaining := h.heapSizeRemaining - (size + 36)
    heapNumberOfAllocations := h.heapNumberOfAllocations + 1 }

lemma Layout.install {free restart : Nat} (hl : Layout h (ys ++ zs))
    (hp : Packed Entry.addr Entry.stop (h.baseAddress + 72) free (ys ++ e :: zs))
    (hfree : free = lastStop Entry.stop (h.baseAddress + 72) (ys ++ e :: zs))
    (hroom : free + 32 ≤ h.baseAddress + h.heapSizeMaximum)
    (hrem : e.size + 36 ≤ h.heapSizeRemaining)
    (hw : Within (Window h.baseAddress (ys ++ zs) e) h.mem m) (he : EntryAt m e)
    (hr : Ring (links m) h.heapAllocations ((ys ++ e :: zs).map Entry.link)) :
    Layout { h.charged m e.size with freeAddress := free, entryToRestartSearch := restart } (ys ++ e :: zs) where
  base := hl.base
  top := hl.top
  small := hl.small
  ring := hr
  packed := hp
  free := hfree
  room := hroom
  entries := by
    intro f hf
    rcases List.mem_append.mp hf with hf | hf
    · exact (hl.entries f (by simp [hf])).congr fun x hx =>
        hw x (own_not_window hp (by simp [hf]) hx.own)
    · rcases List.mem_cons.mp hf with rfl | hf
      · exact he
      · exact (hl.entries f (by simp [hf])).congr fun x hx =>
          hw x (own_not_window hp (by simp [hf]) hx.own)
  remaining := by
    have := hl.remaining
    rw [taken_append] at this
    rw [taken_append, taken_cons]
    have hstop : e.stop - e.addr = e.size + 36 := by
      unfold Entry.stop
      omega
    simp only [hstop]
    omega
  count := by
    have := hl.count
    simp only [List.length_append, List.length_cons] at this ⊢
    omega

end HAL9000.ClHeap
