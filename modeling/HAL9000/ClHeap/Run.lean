import HAL9000.ClHeap.Calls
import HAL9000.Lib.Reach

/-!
# The heap: runs

A heap in use: its users allocate, free what they hold, and store into what they hold. `Held s es`
is the invariant: the heap holds the entries `es`, and they are what the users hold. Every call keeps
it, as long as the search position is the list head or a live entry whenever something is allocated.

Freeing an entry does not move the search position away from it. A search that starts in memory that
has been given to somebody else follows whatever its owner has stored there.
-/

namespace HAL9000.ClHeap
open Lib LinkMem

/-- A heap, and the allocations that its users hold: their addresses and sizes. -/
structure Client where
  heap : Heap
  live : List (Nat × Nat)

/-- What the users of a heap do. The arguments of the calls are `DWORD`s. -/
inductive Op where
  | allocate (flags size tag alignment : UInt32)
  | free (address : Nat) (tag : UInt32)
  | store (address width value : Nat)

def Client.Owns (s : Client) (address width : Nat) : Prop :=
  ∃ q ∈ s.live, q.1 ≤ address ∧ address + width ≤ q.1 + q.2

instance (s : Client) (address width : Nat) : Decidable (s.Owns address width) := by
  unfold Client.Owns
  infer_instance

def Client.next (fuel : Nat) (s : Client) : Op → Exec Client
  | .allocate flags size tag alignment => do
    let (h, a) ← clHeapAllocatePoolWithTag fuel s.heap flags.toNat size.toNat tag.toNat
      alignment.toNat
    pure ⟨h, if a = 0 then s.live else (a, size.toNat) :: s.live⟩
  | .free address tag => do
    let h ← clHeapFreePoolWithTag s.heap address tag.toNat
    pure ⟨h, s.live.filter fun q => q.1 ≠ address⟩
  | .store address width value =>
    if s.Owns address width then
      pure { s with heap := { s.heap with mem := writeLE s.heap.mem address width value } }
    else throw .disabled

def Step (s : Client) (o : Op) (s' : Client) : Prop := ∃ fuel, s.next fuel o = .ok s'

def Fresh (s : Client) : Prop := ∃ mem baseAddress memoryAvailable, baseAddress + memoryAvailable ≤ 2 ^ 64 ∧
    memoryAvailable < 2 ^ 32 ∧ clHeapInit mem baseAddress memoryAvailable = .ok s.heap ∧ s.live = []

def Client.Holds (s : Client) (address : Nat) : Prop := address ∈ s.live.map Prod.fst

instance (s : Client) (address : Nat) : Decidable (s.Holds address) := by
  unfold Client.Holds
  infer_instance

def Client.Listed (s : Client) (entry : Nat) : Prop := entry = s.heap.heapAllocations ∨ s.Holds (entry + 16)

instance (s : Client) (entry : Nat) : Decidable (s.Listed entry) := by
  unfold Client.Listed
  infer_instance

def Op.Legal (s : Client) : Op → Prop
  | .free address _ => s.Holds address
  | _ => True

instance (s : Client) (o : Op) : Decidable (o.Legal s) := by
  cases o <;> unfold Op.Legal <;> infer_instance

/-- No search starts from a stale position, and only live allocations are freed. -/
def Op.Searchable (s : Client) : Op → Prop
  | .allocate _ size tag alignment => s.Listed s.heap.entryToRestartSearch ∨
      s.heap.settles size.toNat tag.toNat alignment.toNat = true
  | .free address _ => s.Holds address
  | .store .. => True

instance (s : Client) (o : Op) : Decidable (o.Searchable s) := by
  cases o <;> unfold Op.Searchable <;> infer_instance

def Op.KeepsCursor (s : Client) : Op → Prop
  | .allocate .. => True
  | .free address _ => s.Holds address ∧ address ≠ s.heap.entryToRestartSearch + 16
  | .store .. => True

instance (s : Client) (o : Op) : Decidable (o.KeepsCursor s) := by
  cases o <;> unfold Op.KeepsCursor <;> infer_instance

variable {s s' : Client} {es ys zs : List Entry} {e f : Entry} {o : Op} {fuel : Nat}

structure Held (s : Client) (es : List Entry) : Prop where
  layout : Layout s.heap es
  live : ∀ q, q ∈ s.live ↔ ∃ e ∈ es, q = (e.data, e.size)

lemma Held.holds_iff (hs : Held s es) {a : Nat} : s.Holds a ↔ ∃ e ∈ es, a = e.data := by
  unfold Client.Holds
  simp only [List.mem_map, hs.live]
  constructor
  · rintro ⟨q, ⟨e, he, rfl⟩, rfl⟩
    exact ⟨e, he, rfl⟩
  · rintro ⟨e, he, rfl⟩
    exact ⟨_, ⟨e, he, rfl⟩, rfl⟩

lemma Held.listed_iff (hs : Held s es) {a : Nat} :
    s.Listed a ↔ a ∈ s.heap.heapAllocations :: es.map Entry.link := by
  unfold Client.Listed
  rw [hs.holds_iff, List.mem_cons, List.mem_map]
  have hd : ∀ e : Entry, a + 16 = e.data ↔ e.link = a := by
    intro e
    unfold Entry.data Entry.link
    omega
  simp only [hd]

lemma Held.cursor_iff (hs : Held s es) : s.Listed s.heap.entryToRestartSearch ↔ Cursor s.heap es := by
  rw [hs.listed_iff, List.mem_cons, List.mem_map, Cursor]
  simp only [eq_comm]

lemma Fresh.held (hf : Fresh s) : Held s [] ∧ s.Listed s.heap.entryToRestartSearch := by
  obtain ⟨mem, b, n, htop, hsmall, hinit, hlive⟩ := hf
  unfold clHeapInit at hinit
  split at hinit
  · cases hinit
  split at hinit
  · cases hinit
  · next hb hn =>
    have hn : 64 * 1024 ≤ n := by
      unfold heapMinimumSize at hn
      omega
    have hfree : wadd 64 b sizeofHeapHeader = b + 72 := wadd_eq (by unfold sizeofHeapHeader; omega)
    have hring : Ring (links (initializeListHead mem (b + 56))) (b + 56) [] :=
      initializeListHead_ring (separate_of_packed
        (show Packed Entry.addr Entry.stop (b + 72) (b + 72) [] from Nat.le_refl _) (by omega))
        (List.mem_singleton_self _)
    have hh := Except.ok.inj hinit
    refine ⟨⟨?_, by simp [hlive]⟩, .inl ?_⟩
    · rw [← hh]
      refine ⟨by simp only; omega, htop, hsmall, hring, ?_, hfree, ?_, by simp, ?_, rfl⟩
      · simp only [hfree]
        exact Nat.le_refl _
      · simp only [hfree]
        omega
      · simp only [taken, List.map_nil, List.sum_nil, sizeofHeapHeader]
        omega
    · rw [← hh]
      rfl

def KeepsPayloads (s s' : Client) : Prop :=
  ∀ q ∈ s.live, q ∈ s'.live → ∀ x, Span q.1 q.2 x → s'.heap.mem x = s.heap.mem x

structure Kept (s s' : Client) (es : List Entry) : Prop where
  held : Held s' es
  payloads : KeepsPayloads s s'
  cursor : s.Listed s.heap.entryToRestartSearch → s'.Listed s'.heap.entryToRestartSearch

lemma payload_not_window {b hi x : Nat}
    (hp : Packed Entry.addr Entry.stop (b + 72) hi (ys ++ e :: zs)) (hf : f ∈ ys ++ zs)
    (hx : Span f.data f.size x) : ¬ Window b (ys ++ zs) e x :=
  own_not_window hp hf (.inr (by unfold Span at *; omega))

lemma Held.allocate (hs : Held s es) {flags size tag alignment : UInt32}
    (hc : s.Listed s.heap.entryToRestartSearch ∨ s.heap.settles size.toNat tag.toNat alignment.toNat = true)
    (hr : s.next fuel (.allocate flags size tag alignment) = .ok s') : ∃ es', Kept s s' es' := by
  obtain ⟨⟨h', a⟩, hr1, hr⟩ := bind_ok.mp hr
  cases hr
  rcases clHeapAllocatePoolWithTag_ok hs.layout (hc.imp_left hs.cursor_iff.mp) tag.toNat_lt alignment.toNat_lt
    hr1 with ⟨rfl, rfl⟩ | ⟨hne, ys, zs, e, rfl, rfl, hsz, hg⟩
  · exact ⟨es, ⟨hs.layout, hs.live⟩, fun _ _ _ _ _ => rfl, id⟩
  · simp only [if_neg hne]
    have hheld : Held ⟨h', (e.data, size.toNat) :: s.live⟩ (ys ++ e :: zs) := by
      refine ⟨hg.layout, fun q => ?_⟩
      simp only [List.mem_cons, List.mem_append, hs.live]
      constructor
      · rintro (rfl | ⟨f, hf, rfl⟩)
        · exact ⟨e, .inr (.inl rfl), by rw [hsz]⟩
        · exact ⟨f, hf.imp_right .inr, rfl⟩
      · rintro ⟨f, hf | rfl | hf, rfl⟩
        · exact .inr ⟨f, .inl hf, rfl⟩
        · exact .inl (by rw [hsz])
        · exact .inr ⟨f, .inr hf, rfl⟩
    refine ⟨_, hheld, ?_, fun hl => ?_⟩
    · intro q hq _ x hx
      obtain ⟨f, hf, rfl⟩ := (hs.live q).mp hq
      have hp := hg.layout.packed
      rw [hg.base] at hp
      exact hg.window x (payload_not_window hp hf hx)
    · rw [hheld.listed_iff]
      have hhead : h'.heapAllocations = s.heap.heapAllocations := by
        unfold Heap.heapAllocations
        rw [hg.base]
      simp only [hhead]
      rcases hg.restart with hR | hR
      · rw [hR]
        have hl := hs.listed_iff.mp hl
        simp only [List.map_append, List.map_cons, List.mem_cons, List.mem_append] at hl ⊢
        exact hl.imp_right fun hl => hl.imp_right .inr
      · rw [hR]
        simp

lemma Held.free (hs : Held s es) {a : Nat} {tag : UInt32} (ha : s.Holds a)
    (hr : s.next fuel (.free a tag) = .ok s') :
    ∃ es', Held s' es' ∧ KeepsPayloads s s' ∧
      (a ≠ s.heap.entryToRestartSearch + 16 → s.Listed s.heap.entryToRestartSearch →
        s'.Listed s'.heap.entryToRestartSearch) := by
  obtain ⟨h', hr1, hr⟩ := bind_ok.mp hr
  cases hr
  obtain ⟨e, he, rfl⟩ := hs.holds_iff.mp ha
  obtain ⟨ys, zs, rfl⟩ := List.append_of_mem he
  obtain ⟨_, hd⟩ := clHeapFreePoolWithTag_ok hs.layout hr1
  have hne : ∀ f ∈ ys ++ zs, f.data ≠ e.data := by
    intro f hf heq
    have := hs.layout.packed.beside hf
    unfold Entry.data at heq
    unfold Entry.stop at this
    omega
  have hheld : Held ⟨h', s.live.filter fun q => q.1 ≠ e.data⟩ (ys ++ zs) := by
    refine ⟨hd.layout, fun q => ?_⟩
    simp only [List.mem_filter, hs.live, decide_eq_true_eq]
    constructor
    · rintro ⟨⟨f, hf, rfl⟩, hfe⟩
      refine ⟨f, ?_, rfl⟩
      rw [List.mem_append, List.mem_cons] at hf
      rw [List.mem_append]
      rcases hf with hf | rfl | hf
      · exact .inl hf
      · exact absurd rfl hfe
      · exact .inr hf
    · rintro ⟨f, hf, rfl⟩
      refine ⟨⟨f, ?_, rfl⟩, hne f hf⟩
      rw [List.mem_append] at hf
      rw [List.mem_append, List.mem_cons]
      exact hf.imp_right .inr
  refine ⟨_, hheld, ?_, fun hcur hl => ?_⟩
  · intro q _ hq x hx
    obtain ⟨f, hf, rfl⟩ := (hheld.live q).mp hq
    exact hd.window x (payload_not_window hs.layout.packed hf hx)
  · rw [hheld.listed_iff]
    have hhead : h'.heapAllocations = s.heap.heapAllocations := by
      unfold Heap.heapAllocations
      rw [hd.base]
    simp only [hd.restart, hhead]
    have hl := hs.listed_iff.mp hl
    simp only [List.map_append, List.map_cons, List.mem_cons, List.mem_append] at hl ⊢
    rcases hl with hl | hl | hl | hl
    · exact .inl hl
    · exact .inr (.inl hl)
    · exact absurd (by unfold Entry.data; rw [hl]; unfold Entry.link; omega) hcur
    · exact .inr (.inr hl)

lemma Held.store (hs : Held s es) {a n v : Nat} (hr : s.next fuel (.store a n v) = .ok s') :
    Held s' es ∧ (s.Listed s.heap.entryToRestartSearch → s'.Listed s'.heap.entryToRestartSearch) := by
  rw [Client.next] at hr
  split at hr
  · next ho =>
    cases hr
    obtain ⟨q, hq, hlo, hhi⟩ := ho
    obtain ⟨e, he, rfl⟩ := (hs.live q).mp hq
    refine ⟨⟨hs.layout.payload he (writeLE_within.mono fun x hx => ?_), hs.live⟩, id⟩
    unfold Span at *
    simp only at hlo hhi
    omega
  · cases hr

/-- The heap is consistent, and `es` are the entries in its list. -/
structure Consistent (s : Client) (es : List Entry) : Prop where
  /-- They are the entries of the list, with the sizes in their headers. -/
  ring : Ring (links s.heap.mem) s.heap.heapAllocations (es.map Entry.link)
  sizes : ∀ e ∈ es, entrySize s.heap.mem e.addr = e.size
  /-- They are what the users hold. -/
  live : ∀ q, q ∈ s.live ↔ ∃ e ∈ es, q = (e.data, e.size)
  /-- Each stops before the next one starts. -/
  ordered : es.Pairwise fun e f => e.addr < f.addr ∧ e.stop ≤ f.addr
  inside : ∀ e ∈ es, s.heap.baseAddress + sizeofHeapHeader ≤ e.addr ∧
    e.stop ≤ s.heap.baseAddress + s.heap.heapSizeMaximum
  remaining : s.heap.heapSizeRemaining +
      (es.map fun e => e.size + sizeofHeapEntry + sizeofHeapTail).sum =
    s.heap.heapSizeMaximum - sizeofHeapHeader
  count : s.heap.heapNumberOfAllocations = es.length
  free : s.heap.freeAddress = (es.getLast?.map Entry.stop).getD (s.heap.baseAddress + sizeofHeapHeader)

lemma lastStop_eq_getLast? {lo : Nat} : lastStop Entry.stop lo es = (es.getLast?.map Entry.stop).getD lo := by
  rcases List.eq_nil_or_concat es with rfl | ⟨ys, e, rfl⟩
  · rfl
  · rw [List.concat_eq_append, lastStop_concat, List.getLast?_concat]
    rfl

lemma Held.consistent (hs : Held s es) : Consistent s es := by
  have hl := hs.layout
  refine ⟨hl.ring, ?_, hs.live, ?_, ?_, ?_, hl.count, ?_⟩
  · intro e he
    unfold entrySize
    rw [hl.field he (by omega)]
    exact (hl.entries e he).size
  · refine hl.packed.pairwise.imp ?_
    intro e f h
    refine ⟨?_, h⟩
    unfold Entry.stop at h
    omega
  · intro e he
    have hb := hl.packed.mem he
    have := hl.room
    exact ⟨hb.1, by omega⟩
  · have hsum : (es.map fun e => e.size + sizeofHeapEntry + sizeofHeapTail).sum =
        taken Entry.addr Entry.stop es := by
      unfold taken
      congr 1
      refine List.map_congr_left fun e _ => ?_
      unfold Entry.stop sizeofHeapEntry sizeofHeapTail
      omega
    have hrem := hl.remaining
    rw [hsum]
    unfold sizeofHeapHeader
    omega
  · rw [hl.free]
    exact lastStop_eq_getLast?

lemma Consistent.disjoint (hc : Consistent s es) {q r : Nat × Nat} (hq : q ∈ s.live)
    (hr : r ∈ s.live) (hne : q ≠ r) : q.1 + q.2 ≤ r.1 ∨ r.1 + r.2 ≤ q.1 := by
  obtain ⟨e, he, rfl⟩ := (hc.live q).mp hq
  obtain ⟨f, hf, rfl⟩ := (hc.live r).mp hr
  have hef : e ≠ f := by
    rintro rfl
    exact hne rfl
  have hp : e.stop ≤ f.addr ∨ f.stop ≤ e.addr := by
    have hsym : es.Pairwise fun e f => e.stop ≤ f.addr ∨ f.stop ≤ e.addr :=
      hc.ordered.imp fun h => .inl h.2
    have : Std.Symm fun e f : Entry => e.stop ≤ f.addr ∨ f.stop ≤ e.addr := ⟨fun _ _ => Or.symm⟩
    exact hsym.forall he hf hef
  unfold Entry.stop at hp
  simp only [Entry.data]
  omega

def runEmpty (ok : Client → Op → Prop) [∀ s o, Decidable (ok s o)] (os : List Op) : Exec Client :=
  match clHeapInit (fun _ => 0) 0x10000 0x10000 with
  | .ok h => os.foldlM (fun s o => do ensure (ok s o); s.next 16 o) ⟨h, []⟩
  | .error _ => throw .disabled

lemma exists_runEmpty {ok : Client → Op → Prop} [∀ s o, Decidable (ok s o)] {P : Client → Prop} [DecidablePred P]
    (os : List Op) (h : returns (runEmpty ok os) (fun s => decide (P s)) = true) :
    ∃ s, Reach Fresh Step ok s ∧ P s :=
  exists_reach_of (fun _ _ _ hn => ⟨16, hn⟩) ⟨fun _ => 0, 0x10000, 0x10000, by decide, by decide, rfl, rfl⟩ os h

def gapRun : List Op := [.allocate 0 16 1 0, .allocate 0 0xEFDC 1 0x1000, .allocate 0 16 1 0]

def staleRun : List Op := gapRun ++ [.free 0x100B0 1]

/-- Its memory becomes part of a larger allocation, whose owner stores numbers there that look like a
    list entry and like a heap entry with tag 1. Then there is again no room behind the last one. -/
def overlapRun : List Op := staleRun ++
  [.free 0x11000 1, .free 0x10070 1, .allocate 2 0x1000 1 0, .allocate 0 0xDFDC 1 0x1000,
    .store 0x100A0 8 0x10210, .store 0x10200 4 heapMagic, .store 0x10204 4 1,
    .store 0x10220 4 heapMagic, .store 0x10210 8 0x10410, .allocate 0 16 1 0]

lemma Held.searchable (hs : Held s es) (ho : o.Searchable s) (hst : Step s o s') :
    (∃ es', Held s' es') ∧ ((∀ a n v, o ≠ .store a n v) → KeepsPayloads s s') := by
  obtain ⟨fuel, hr⟩ := hst
  cases o with
  | allocate flags size tag alignment =>
    obtain ⟨es', hk⟩ := hs.allocate ho hr
    exact ⟨⟨es', hk.held⟩, fun _ => hk.payloads⟩
  | free a tag =>
    obtain ⟨es', hh, hp, _⟩ := hs.free ho hr
    exact ⟨⟨es', hh⟩, fun _ => hp⟩
  | store a n v => exact ⟨⟨es, (hs.store hr).1⟩, fun hne => absurd rfl (hne a n v)⟩

lemma held_of_searchable (hr : Reach Fresh Step (fun s o => o.Searchable s) s) : ∃ es, Held s es := by
  refine hr.invariant (I := fun s => ∃ es, Held s es) (fun s hs => ⟨[], hs.held.1⟩) ?_
  rintro s o s' ⟨es, hs⟩ ho hst
  exact (hs.searchable ho hst).1

/-- As long as no search starts from a stale position, the heap is consistent, and
    the calls leave the payloads of the other allocations alone. -/
theorem heap_consistent (hr : Reach Fresh Step (fun s o => o.Searchable s) s) : (∃ es, Consistent s es) ∧
      ∀ o s', o.Searchable s → Step s o s' → (∀ a n v, o ≠ .store a n v) → KeepsPayloads s s' := by
  obtain ⟨es, hs⟩ := held_of_searchable hr
  exact ⟨⟨es, hs.consistent⟩, fun o s' ho hst => (hs.searchable ho hst).2⟩

/-- Two entries with space between them, and one in this space. -/
theorem heap_consistent_gapRun : ∃ s, Reach Fresh Step (fun s o => o.Searchable s) s ∧ s.live.length = 3 ∧
      (∃ es, Consistent s es) ∧
      ∀ o s', o.Searchable s → Step s o s' → (∀ a n v, o ≠ .store a n v) → KeepsPayloads s s' := by
  obtain ⟨s, hr, hlive⟩ : ∃ s, Reach Fresh Step (fun s o => o.Searchable s) s ∧ s.live.length = 3 :=
    exists_runEmpty gapRun (by decide)
  exact ⟨s, hr, hlive, heap_consistent hr⟩

/-- Two allocations overlap after a search from a stale position. -/
theorem heap_consistent_overlap : ∃ s, Reach Fresh Step (fun s o => o.Legal s) s ∧ ¬ ∃ es, Consistent s es := by
  obtain ⟨s, hr, hlive⟩ : ∃ s, Reach Fresh Step (fun s o => o.Legal s) s ∧
      s.live = [(0x10250, 16), (0x12000, 0xDFDC), (0x10070, 0x1000)] := exists_runEmpty overlapRun (by decide)
  refine ⟨s, hr, ?_⟩
  rintro ⟨es, hc⟩
  have := hc.disjoint (q := (0x10250, 16)) (r := (0x10070, 0x1000)) (by simp [hlive]) (by simp [hlive])
    (by decide)
  simp at this

lemma Held.keepsCursor (hs : Held s es) (hc : s.Listed s.heap.entryToRestartSearch)
    (ho : o.KeepsCursor s) (hst : Step s o s') :
    ∃ es', Held s' es' ∧ s'.Listed s'.heap.entryToRestartSearch := by
  obtain ⟨fuel, hr⟩ := hst
  cases o with
  | allocate flags size tag alignment =>
    obtain ⟨es', hk⟩ := hs.allocate (.inl hc) hr
    exact ⟨es', hk.held, hk.cursor hc⟩
  | free a tag =>
    obtain ⟨es', hh, _, hcur⟩ := hs.free ho.1 hr
    exact ⟨es', hh, hcur ho.2 hc⟩
  | store a n v =>
    obtain ⟨hh, hcur⟩ := hs.store hr
    exact ⟨es, hh, hcur hc⟩

lemma Held.flink_listed (hs : Held s es) {a : Nat} (ha : s.Listed a) : s.Listed (flink s.heap.mem a) := by
  rw [hs.listed_iff] at ha ⊢
  rcases List.mem_cons.mp ha with rfl | ha
  · rw [hs.layout.flink_head]
    exact headD_mem_ring _ [] _
  · obtain ⟨e, he, rfl⟩ := List.mem_map.mp ha
    obtain ⟨ys, zs, rfl⟩ := List.append_of_mem he
    rw [hs.layout.flink_link]
    have hm := headD_mem_ring s.heap.heapAllocations [] (zs.map Entry.link)
    rw [List.nil_append] at hm
    simp only [List.map_append, List.map_cons, List.mem_cons, List.mem_append] at hm ⊢
    exact hm.imp_right fun hm => .inr (.inr hm)

/-- As long as the entry at the search position is not freed, the search position is listed, and so
    is everything the search finds by following the links from there. -/
theorem cursor_listed (hr : Reach Fresh Step (fun s o => o.KeepsCursor s) s) :
    ∀ k, s.Listed ((flink s.heap.mem)^[k] s.heap.entryToRestartSearch) := by
  obtain ⟨es, hs, hc⟩ : ∃ es, Held s es ∧ s.Listed s.heap.entryToRestartSearch := by
    refine hr.invariant (I := fun s => ∃ es, Held s es ∧ s.Listed s.heap.entryToRestartSearch)
      (fun s hs => ⟨[], hs.held⟩) ?_
    rintro s o s' ⟨es, hs, hc⟩ ho hst
    exact hs.keepsCursor hc ho hst
  intro k
  induction k with
  | zero => exact hc
  | succ k ih =>
    rw [Function.iterate_succ_apply']
    exact hs.flink_listed ih

/-- The search position is the entry between the two others. -/
theorem cursor_listed_gapRun :
    ∃ s, Reach Fresh Step (fun s o => o.KeepsCursor s) s ∧ s.heap.entryToRestartSearch = 0x100A0 ∧
      ∀ k, s.Listed ((flink s.heap.mem)^[k] s.heap.entryToRestartSearch) := by
  obtain ⟨s, hr, hcursor⟩ : ∃ s, Reach Fresh Step (fun s o => o.KeepsCursor s) s ∧
      s.heap.entryToRestartSearch = 0x100A0 := exists_runEmpty gapRun (by decide)
  exact ⟨s, hr, hcursor, cursor_listed hr⟩

/-- The search position is that of a freed entry. -/
theorem cursor_stale : ∃ s, Reach Fresh Step (fun s o => o.Legal s) s ∧ ¬ s.Listed s.heap.entryToRestartSearch :=
  exists_runEmpty staleRun (by decide)

end HAL9000.ClHeap
