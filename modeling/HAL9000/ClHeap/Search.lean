import HAL9000.ClHeap.Alloc

/-!
# The heap: the search for a space between two entries

The loop of `ClHeapAllocatePoolWithTag`, on a heap with a sound layout and a search position that is
the list head or a live entry. `searchFromRestart_head` and `searchFromRestart_entry` say what it
comes to. From the list head it looks at all spaces between two entries. From an entry it looks at the
spaces behind the next entry, goes on at the start of the list, where it leaves out the first space,
and stops two entries before the one it started from; and if there are fewer than two entries behind
the one it started from, and at least two before it, it trips over its null pointer.
-/

namespace HAL9000.ClHeap
open Lib LinkMem

variable {h : Heap} {es as bs cs ys zs : List Entry} {u v w c : Entry}
  {size tag alignment fuel ch : Nat}

def squeezed (h : Heap) (size tag alignment : Nat) (q : Entry × Entry) : Heap × Nat :=
  let p := initHeapEntry h q.1.stop tag size alignment false (q.2.addr - q.1.stop)
  ({ p.heap with
      mem := insertHeadList p.heap.mem q.1.link (listEntry p.heapEntry)
      entryToRestartSearch := listEntry p.heapEntry }, p.heapEntry)

def firstFit (alignment size : Nat) (es : List Entry) : Option (Entry × Entry) :=
  (es.zip es.tail).find? fun q => decide (Fits alignment size q.1.stop q.2.addr)

lemma Layout.entryEnd (hl : Layout h es) (hu : u ∈ es) : entryEnd h.mem u.addr = u.stop := by
  have hb := hl.mem_bounds hu
  unfold ClHeap.entryEnd entrySize
  rw [hl.field hu (k := 8) (by omega), (hl.entries u hu).size]
  unfold Entry.stop sizeofHeapEntry sizeofHeapTail at *
  rw [wadd_eq (by omega)]
  omega

lemma Layout.containing (hl : Layout h es) (hu : u ∈ es) : containingHeapEntry u.link = u.addr := by
  have hb := hl.mem_bounds hu
  unfold containingHeapEntry Entry.link
  unfold Entry.stop at hb
  rw [wsub_eq (by omega) (by omega)]
  omega

lemma Layout.link_ne_head (hl : Layout h es) (hu : u ∈ es) : u.link ≠ h.heapAllocations := by
  have hb := hl.mem_bounds hu
  unfold Entry.link Heap.heapAllocations
  omega

lemma Layout.flink_last {y z : List Entry} (hl : Layout h (y ++ z)) :
    flink h.mem ((y.map Entry.link).getLastD h.heapAllocations) =
      (z.map Entry.link).headD h.heapAllocations := by
  have hr := hl.ring
  rw [List.map_append] at hr
  exact hr.joined.1

lemma Layout.flink_link {y z : List Entry} (hl : Layout h (y ++ u :: z)) :
    flink h.mem u.link = (z.map Entry.link).headD h.heapAllocations := by
  have hl' : Layout h ((y ++ [u]) ++ z) := by simpa using hl
  simpa using hl'.flink_last

lemma EntryAt.validate {m : Mem} {e : Entry} (he : EntryAt m e) (h0 : e.addr ≠ 0)
    (hstop : e.stop + 32 ≤ 2 ^ 64) (hs : e.size + 36 < 2 ^ 32) {t : Nat} (ht : t ≠ 0) :
    validateHeapEntry m e.addr t = .ok (decide (t = e.tag)) := by
  have h4 : wadd 64 e.addr 4 = e.addr + 4 := wadd_eq (by unfold Entry.stop at hstop; omega)
  have h8 : wadd 64 e.addr 8 = e.addr + 8 := wadd_eq (by unfold Entry.stop at hstop; omega)
  have htot : (sizeofHeapEntry + e.size + sizeofHeapTail) % 2 ^ 32 = e.size + 36 := by
    unfold sizeofHeapEntry sizeofHeapTail
    omega
  have htail : wsub 64 (wadd 64 e.addr (e.size + 36)) sizeofHeapTail = e.data + e.size := by
    unfold Entry.stop at hstop
    unfold sizeofHeapTail Entry.data
    rw [wadd_eq (by omega), wsub_eq (by omega) (by omega)]
    omega
  simp only [validateHeapEntry, entrySize, entryMagic, entryTag, h4, h8, he.size, he.tag, he.magic,
    htot, htail, he.tail]
  rw [ensure_pos (Ne.symm h0), ensure_pos (Ne.symm ht)]
  simp [he.tag_ne]

section Loop

lemma searchSpaces_stop {prev prevHeap : Nat} :
    searchSpaces h size tag alignment (fuel + 1) prev prevHeap h.entryToRestartSearch ch =
      .ok none := by
  rw [searchSpaces, if_pos rfl]
  rfl

lemma searchSpaces_head {prev prevHeap cur : Nat} (hR : h.entryToRestartSearch ≠ cur)
    (hH : cur = h.heapAllocations ∨ prev = h.heapAllocations) :
    searchSpaces h size tag alignment (fuel + 1) prev prevHeap cur ch =
      searchSpaces h size tag alignment fuel cur ch (flink h.mem cur) ch := by
  rw [searchSpaces, if_neg hR, if_pos hH]

lemma searchSpaces_null (hl : Layout h es) (hu : u ∈ es) (hv : v ∈ es) (hR : h.entryToRestartSearch ≠ v.link) :
    searchSpaces h size tag alignment (fuel + 1) u.link 0 v.link ch = .error .check := by
  rw [searchSpaces, if_neg hR, if_neg (by simp [hl.link_ne_head hu, hl.link_ne_head hv])]
  rfl

lemma searchSpaces_pass (hl : Layout h es) (hq : Asked h size tag alignment) (hu : u ∈ es)
    (hw : w ∈ es) (hv : v ∈ es) (hR : h.entryToRestartSearch ≠ v.link)
    (hf : ¬ Fits alignment size w.stop v.addr) :
    searchSpaces h size tag alignment (fuel + 1) u.link w.addr v.link ch =
      searchSpaces h size tag alignment fuel v.link v.addr (flink h.mem v.link) v.addr := by
  have hbw := hl.mem_bounds hw
  have hbv := hl.mem_bounds hv
  have hsize := hq.size_lt hl
  have hbase := hl.base
  have htop := hl.top
  have hsmall := hl.small
  have hfree := hl.room
  have hw2 := (hl.packed.mem hw).2.2
  have hv2 := (hl.packed.mem hv).2.2
  rw [searchSpaces, if_neg hR, if_neg (by simp [hl.link_ne_head hu, hl.link_ne_head hv]),
    ensure_pos (by omega), bind_okay]
  simp only [hl.containing hv, hl.entryEnd hw]
  by_cases hle : w.stop ≤ v.addr
  · have hbt : wsub 64 v.addr w.stop = v.addr - w.stop :=
      wsub_eq (by unfold Entry.stop at hbv; omega) hle
    rw [hbt]
    split
    · next hsp =>
      have hpos : size + 36 ≤ v.addr - w.stop := by
        unfold sint sizeofHeapEntry sizeofHeapTail at hsp
        split at hsp <;> omega
      have hsm := initHeapEntry_small (h := h) (a := w.stop) tag
        (v.addr - w.stop) false hq.alignment_pos hq.alignment_lt hsize (by omega)
        (by unfold Entry.stop at *; omega) (by rwa [Nat.add_sub_cancel' hle])
      rw [hsm]
      rfl
    · rfl
  · -- the stale pointer is behind this entry, and the distance is negative
    have hneg : ¬ ((size : Int) + sizeofHeapEntry + sizeofHeapTail ≤ sint 64 (wsub 64 v.addr w.stop)) := by
      have hbt : wsub 64 v.addr w.stop = v.addr + (2 ^ 64 - w.stop) := by
        unfold wsub
        rw [Nat.mod_eq_of_lt (by omega : w.stop < 2 ^ 64), Nat.mod_eq_of_lt (by omega)]
      rw [hbt]
      unfold sint
      rw [if_neg (by omega)]
      omega
    rw [if_neg hneg]

variable (hl : Layout h (ys ++ u :: v :: zs)) (hq : Asked h size tag alignment)
include hl hq

lemma Layout.squeeze_pair (hf : Fits alignment size u.stop v.addr) {e : Entry}
    (he : e = placed alignment size tag u.stop) :
    ∃ m m', initHeapEntry h u.stop tag size alignment false (v.addr - u.stop) =
        ⟨h.charged m size, e.addr, e.stop⟩ ∧
      (∀ f ∈ ys ++ u :: v :: zs, EntryAt m f) ∧
      m' = insertHeadList m u.link e.link ∧
      Within (Window h.baseAddress (ys ++ u :: v :: zs) e) h.mem m' ∧
      Layout { h.charged m' size with entryToRestartSearch := e.link } (ys ++ u :: e :: v :: zs) := by
  have hl' : Layout h ((ys ++ [u]) ++ v :: zs) := by simpa using hl
  have hlast : lastStop Entry.stop (h.baseAddress + 72) (ys ++ [u]) = u.stop := lastStop_concat
  have hsq := hl'.squeeze (e := e) hq (by simp) (by rwa [hlast]) (by rwa [hlast])
  rw [hlast] at hsq
  simpa [firstStart] using hsq

lemma searchSpaces_fits (hR : h.entryToRestartSearch ≠ v.link) (hf : Fits alignment size u.stop v.addr) :
    searchSpaces h size tag alignment (fuel + 1) u.link u.addr v.link ch =
      .ok (some (squeezed h size tag alignment (u, v))) := by
  have hu : u ∈ ys ++ u :: v :: zs := by simp
  have hv : v ∈ ys ++ u :: v :: zs := by simp
  have hbu := hl.mem_bounds hu
  have hbv := hl.mem_bounds hv
  have hbase := hl.base
  have hle : size + 36 ≤ v.addr - u.stop := by
    have h1 := hf.1
    have h2 := hf.2
    omega
  have hdist : v.addr - u.stop < 2 ^ 63 := by
    have := (hl.packed.mem hv).2.2
    have := hl.room
    have := hl.small
    unfold Entry.stop at *
    omega
  have hbt : wsub 64 v.addr u.stop = v.addr - u.stop :=
    wsub_eq (by unfold Entry.stop at hbv; omega) (by omega)
  obtain ⟨m, m', hinit, hat, _, _, _⟩ := hl.squeeze_pair hq hf rfl
  have htag : entryTag m u.addr = u.tag := by
    unfold entryTag
    rw [hl.field hu (by omega)]
    exact (hat u hu).tag
  have hval := (hat u hu).validate (t := u.tag) (by omega) hbu.2.1 hbu.2.2 (hat u hu).tag_ne
  have hstop : (placed alignment size tag u.stop).stop ≠ 0 := by
    unfold Entry.stop
    omega
  rw [searchSpaces, if_neg hR, if_neg (by simp [hl.link_ne_head hu, hl.link_ne_head hv]),
    ensure_pos (by omega), bind_okay]
  simp only [hl.containing hv, hl.entryEnd hu, hbt]
  rw [if_pos (by
    unfold sint sizeofHeapEntry sizeofHeapTail
    rw [if_pos (by simpa using hdist)]
    omega)]
  unfold squeezed
  simp only [hinit, htag, hval]
  rw [if_neg hstop]
  simp [ensure]

end Loop

section Run

@[simp] lemma firstFit_nil : firstFit alignment size [] = none := rfl

@[simp] lemma firstFit_singleton : firstFit alignment size [u] = none := rfl

lemma firstFit_cons_cons : firstFit alignment size (u :: v :: cs) =
    if Fits alignment size u.stop v.addr then some (u, v) else firstFit alignment size (v :: cs) := by
  unfold firstFit
  by_cases hf : Fits alignment size u.stop v.addr
  · simp [hf]
  · simp [hf]

variable (fuel ch) in
lemma searchSpaces_run (hl : Layout h es) (hq : Asked h size tag alignment)
    (hes : es = as ++ u :: cs ++ bs) (hR : ∀ c ∈ cs, h.entryToRestartSearch ≠ c.link) :
    searchSpaces h size tag alignment (fuel + cs.length) u.link u.addr
        (((cs ++ bs).map Entry.link).headD h.heapAllocations) ch =
      match firstFit alignment size (u :: cs) with
      | some q => .ok (some (squeezed h size tag alignment q))
      | none => searchSpaces h size tag alignment fuel (cs.getLastD u).link (cs.getLastD u).addr
          ((bs.map Entry.link).headD h.heapAllocations) (if cs = [] then ch else (cs.getLastD u).addr) := by
  induction cs generalizing u as ch with
  | nil => simp
  | cons v cs ih =>
    have hl' : Layout h (as ++ u :: v :: (cs ++ bs)) := by simpa [hes] using hl
    have hv : h.entryToRestartSearch ≠ v.link := hR v (by simp)
    rw [List.length_cons, ← Nat.add_assoc, firstFit_cons_cons]
    simp only [List.cons_append, List.map_cons, List.headD_cons]
    by_cases hf : Fits alignment size u.stop v.addr
    · rw [searchSpaces_fits hl' hq hv hf, if_pos hf]
    · rw [searchSpaces_pass hl' hq (by simp) (by simp) (by simp) hv hf, if_neg hf]
      have hfl : flink h.mem v.link = ((cs ++ bs).map Entry.link).headD h.heapAllocations :=
        Layout.flink_link (y := as ++ [u]) (by simpa using hl')
      rw [hfl, ih _ (show es = as ++ [u] ++ v :: cs ++ bs by simp [hes]) (fun c hc => hR c (by simp [hc]))]
      have hlast : (if cs = [] then v.addr else (cs.getLastD v).addr) = (cs.getLastD v).addr := by
        cases cs <;> simp
      rw [hlast, List.getLastD_cons, if_neg (List.cons_ne_nil v cs)]

end Run

lemma Layout.link_ne (hl : Layout h (as ++ c :: bs)) (hu : u ∈ as ++ bs) : c.link ≠ u.link := by
  have hnd := (List.nodup_cons.mp hl.ring.nodup).2
  rw [List.map_append, List.map_cons] at hnd
  have hnd := (List.nodup_cons.mp (List.perm_middle.nodup_iff.mp hnd)).1
  rw [← List.map_append] at hnd
  exact fun e => hnd (e ▸ List.mem_map_of_mem hu)

lemma Layout.flink_head (hl : Layout h es) :
    flink h.mem h.heapAllocations = (es.map Entry.link).headD h.heapAllocations :=
  Layout.flink_last (y := []) (z := es) hl

lemma searchSpaces_wrap_short (hl : Layout h (as ++ c :: bs)) (hR : h.entryToRestartSearch = c.link)
    (hlen : as.length < 2) {prevHeap : Nat} :
    searchSpaces h size tag alignment (fuel + 2) h.heapAllocations prevHeap (flink h.mem h.heapAllocations) ch =
      .ok none := by
  rw [hl.flink_head]
  match as with
  | [] =>
    simp only [List.nil_append, List.map_cons, List.headD_cons, ← hR]
    exact searchSpaces_stop
  | [a] =>
    have hfl : flink h.mem a.link = c.link := Layout.flink_link (y := []) (by simpa using hl)
    have hne : h.entryToRestartSearch ≠ a.link := hR ▸ hl.link_ne (by simp)
    simp only [List.cons_append, List.map_cons, List.headD_cons]
    rw [searchSpaces_head hne (.inr rfl), hfl, ← hR, searchSpaces_stop]
  | _ :: _ :: _ => exact absurd hlen (by simp)

lemma searchSpaces_wrap_long (hl : Layout h (u :: v :: as ++ c :: bs)) (hR : h.entryToRestartSearch = c.link)
    {prevHeap : Nat} :
    searchSpaces h size tag alignment (fuel + 1) h.heapAllocations prevHeap (flink h.mem h.heapAllocations) ch =
      searchSpaces h size tag alignment fuel u.link ch v.link ch := by
  have hfl : flink h.mem u.link = v.link := Layout.flink_link (y := []) (by simpa using hl)
  have hne : h.entryToRestartSearch ≠ u.link := hR ▸ hl.link_ne (by simp)
  rw [hl.flink_head]
  simp only [List.cons_append, List.map_cons, List.headD_cons]
  rw [searchSpaces_head hne (.inr rfl), hfl]

lemma searchSpaces_wrap_null (hl : Layout h (as ++ c :: bs)) (hR : h.entryToRestartSearch = c.link)
    {prevHeap : Nat} :
    searchSpaces h size tag alignment (fuel + 3) h.heapAllocations prevHeap
        (flink h.mem h.heapAllocations) 0 =
      if 2 ≤ as.length then .error .check else .ok none := by
  match as with
  | [] | [_] => rw [searchSpaces_wrap_short hl hR (by simp), if_neg (by simp)]
  | a :: a' :: as =>
    have hne' : h.entryToRestartSearch ≠ a'.link := hR ▸ hl.link_ne (by simp)
    rw [searchSpaces_wrap_long hl hR, searchSpaces_null hl (by simp) (by simp) hne', if_pos (by simp)]

lemma searchSpaces_wrap_stale (hl : Layout h (as ++ c :: bs)) (hq : Asked h size tag alignment)
    (hR : h.entryToRestartSearch = c.link) (hw : w ∈ bs) {prevHeap : Nat} :
    searchSpaces h size tag alignment (fuel + as.length + 3) h.heapAllocations prevHeap
        (flink h.mem h.heapAllocations) w.addr =
      .ok ((firstFit alignment size as.tail).map (squeezed h size tag alignment)) := by
  match as with
  | [] | [_] => exact searchSpaces_wrap_short hl hR (by simp)
  | a :: a' :: as =>
    have hfl' : flink h.mem a'.link = ((as ++ c :: bs).map Entry.link).headD h.heapAllocations :=
      Layout.flink_link (y := [a]) (by simpa using hl)
    have hne' : h.entryToRestartSearch ≠ a'.link := hR ▸ hl.link_ne (by simp)
    have hfit : ¬ Fits alignment size w.stop a'.addr := by
      intro hf
      have h1 := hf.1
      have h2 := hf.2
      have hord := List.pairwise_append.mp (show List.Pairwise _ ((a :: a' :: as) ++ c :: bs) from
        hl.packed.pairwise)
      have := hord.2.2 a' (by simp) w (by simp [hw])
      unfold Entry.stop at *
      omega
    rw [searchSpaces_wrap_long hl hR, searchSpaces_pass hl hq (by simp) (by simp [hw]) (by simp) hne' hfit, hfl']
    have hrun := searchSpaces_run (fuel + 3) a'.addr hl hq
      (show a :: a' :: as ++ c :: bs = [a] ++ a' :: as ++ c :: bs by simp)
        (fun x hx => hR ▸ hl.link_ne (by simp [hx]))
    rw [show fuel + (a :: a' :: as).length + 1 = fuel + 3 + as.length by
      simp only [List.length_cons]; omega, hrun]
    cases hff : firstFit alignment size (a' :: as) with
    | some q => simp [hff]
    | none =>
      simp only [List.tail_cons, hff, Option.map_none, List.map_cons, List.headD_cons, ← hR]
      exact searchSpaces_stop

lemma Layout.isListEmpty (hl : Layout h es) (hu : u ∈ es) : isListEmpty h.mem h.heapAllocations = false := by
  unfold HAL9000.isListEmpty
  rw [hl.flink_head]
  cases es with
  | nil => cases hu
  | cons e es => simpa using hl.link_ne_head (u := e) (by simp)

lemma searchFromRestart_head (hl : Layout h es) (hq : Asked h size tag alignment) (hne : es ≠ [])
    (hR : h.entryToRestartSearch = h.heapAllocations) (hfuel : es.length ≤ fuel) :
    searchFromRestart fuel h size tag alignment =
      .ok ((firstFit alignment size es).map (squeezed h size tag alignment)) := by
  cases es with
  | nil => exact absurd rfl hne
  | cons u cs =>
    obtain ⟨k, rfl⟩ := Nat.exists_eq_add_of_le hfuel
    have hfl : flink h.mem h.heapAllocations = u.link := by simpa using hl.flink_head
    have hfl' : flink h.mem u.link = (cs.map Entry.link).headD h.heapAllocations :=
      Layout.flink_link (y := []) (by simpa using hl)
    have hrun := searchSpaces_run (k + 1) 0 hl hq
      (show u :: cs = [] ++ u :: cs ++ [] by simp)
        (fun x hx => by rw [hR]; exact (hl.link_ne_head (by simp [hx])).symm)
    rw [List.append_nil] at hrun
    rw [searchFromRestart, hl.isListEmpty List.mem_cons_self, ensure_pos rfl, bind_okay, hR]
    simp only [hfl, hfl', hl.containing List.mem_cons_self]
    rw [show (u :: cs).length + k = k + 1 + cs.length by simp only [List.length_cons]; omega, hrun]
    cases hff : firstFit alignment size (u :: cs) with
    | some q => rfl
    | none =>
      simp only [List.map_nil, List.headD_nil, ← hR]
      exact searchSpaces_stop

lemma searchFromRestart_entry (hl : Layout h (as ++ c :: bs)) (hq : Asked h size tag alignment)
    (hR : h.entryToRestartSearch = c.link) (hfuel : (as ++ c :: bs).length + 4 ≤ fuel) :
    searchFromRestart fuel h size tag alignment =
      match firstFit alignment size bs with
      | some q => .ok (some (squeezed h size tag alignment q))
      | none =>
        if 2 ≤ as.length ∧ bs.length ≤ 1 then .error .check
        else .ok ((firstFit alignment size as.tail).map (squeezed h size tag alignment)) := by
  have hfl : flink h.mem c.link = (bs.map Entry.link).headD h.heapAllocations := hl.flink_link
  have hRH : h.entryToRestartSearch ≠ h.heapAllocations := by
    rw [hR]
    exact hl.link_ne_head (by simp)
  have hshort : ¬ 2 ≤ as.length → firstFit alignment size as.tail = none := by
    intro hlen
    match as with
    | [] | [_] => rfl
    | a :: a' :: as => simp at hlen
  rw [List.length_append, List.length_cons] at hfuel
  rw [searchFromRestart, hl.isListEmpty (u := c) (by simp), ensure_pos rfl, bind_okay, hR, hfl]
  match bs with
  | [] =>
    obtain ⟨k, rfl⟩ : ∃ k, fuel = k + 3 := ⟨fuel - 3, by omega⟩
    simp only [List.map_nil, List.headD_nil]
    rw [searchSpaces_wrap_null hl hR]
    by_cases hlen : 2 ≤ as.length
    · simp [hlen]
    · simp [hlen, hshort hlen]
  | [b] =>
    obtain ⟨k, rfl⟩ : ∃ k, fuel = k + 3 + 1 := ⟨fuel - 4, by omega⟩
    have hflb : flink h.mem b.link = h.heapAllocations :=
      Layout.flink_link (y := as ++ [c]) (z := []) (by simpa using hl)
    simp only [List.map_cons, List.headD_cons]
    rw [hflb, searchSpaces_head hRH (.inl rfl), searchSpaces_wrap_null hl hR]
    by_cases hlen : 2 ≤ as.length
    · simp [hlen]
    · simp [hlen, hshort hlen]
  | b :: b' :: bs =>
    obtain ⟨k, rfl⟩ : ∃ k, fuel = k + as.length + 3 + 1 + (b' :: bs).length :=
      ⟨fuel - (as.length + 4 + (b' :: bs).length), by simp only [List.length_cons] at *; omega⟩
    have hflb : flink h.mem b.link = ((b' :: bs ++ []).map Entry.link).headD h.heapAllocations := by
      rw [List.append_nil]
      exact Layout.flink_link (y := as ++ [c]) (by simpa using hl)
    have hrun := searchSpaces_run (k + as.length + 3 + 1) 0 hl hq
      (show as ++ c :: b :: b' :: bs = as ++ [c] ++ b :: b' :: bs ++ [] by simp)
      (fun x hx => hR ▸ hl.link_ne (List.mem_append_right _ (List.mem_cons_of_mem _ hx)))
    simp only [List.map_cons, List.headD_cons] at hflb ⊢
    rw [hl.containing (u := b) (by simp), hflb]
    simp only [List.cons_append, List.map_cons, List.headD_cons] at hrun ⊢
    rw [hrun]
    cases hff : firstFit alignment size (b :: b' :: bs) with
    | some q => rfl
    | none =>
      have hlast : (b' :: bs).getLastD b ∈ b :: b' :: bs := getLastD_mem b (b' :: bs)
      simp only [List.map_nil, List.headD_nil]
      rw [searchSpaces_head hRH (.inl rfl), if_neg (List.cons_ne_nil _ _),
        searchSpaces_wrap_stale hl hq hR hlast, if_neg (by simp)]

end HAL9000.ClHeap
