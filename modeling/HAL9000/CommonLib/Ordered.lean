import HAL9000.CommonLib.List

/-!
# Ordered lists

`InsertOrderedList` puts an entry behind those that are not greater and before those that are. So a list that
is built by it is the stable sort of its entries, in the order in which they were inserted.
-/

namespace HAL9000
open Lib LinkMem List

section Order

variable {L : Type} {compare : L → L → Int} {a b c e : L} {ys zs es : List L}

/-- A comparison that is a total preorder: negative if the first entry is smaller, 0 if they are equal. -/
structure TotalPreorder (compare : L → L → Int) : Prop where
  swap : ∀ a b, compare a b < 0 ↔ 0 < compare b a
  trans : ∀ a b c, compare a b ≤ 0 → compare b c ≤ 0 → compare a c ≤ 0

abbrev Sorted (compare : L → L → Int) : List L → Prop := Pairwise fun a b => compare a b ≤ 0

/-- The entries in order, with those that are equal as they were. -/
structure StableSort (compare : L → L → Int) (es rs : List L) : Prop where
  perm : rs.Perm es
  sorted : Sorted compare rs
  stable : ∀ a, rs.filter (compare a · = 0) = es.filter (compare a · = 0)

/-- `e` has its place between those that are not greater and those that are. -/
structure Placed (compare : L → L → Int) (ys : List L) (e : L) (zs : List L) : Prop where
  left : ∀ y ∈ ys, compare y e ≤ 0
  right : ∀ z ∈ zs, compare e z < 0

lemma TotalPreorder.lt_of_lt_of_le (hc : TotalPreorder compare) (hab : compare a b < 0) (hbc : compare b c ≤ 0) :
    compare a c < 0 := by
  by_contra hac
  have hba := (hc.swap a b).mp hab
  have hca := hc.trans b c a hbc (Int.not_lt.mp fun h => hac ((hc.swap a c).mpr h))
  omega

lemma Placed.sorted (hp : Placed compare ys e zs) (hs : Sorted compare (ys ++ zs)) :
    Sorted compare (ys ++ e :: zs) := by
  obtain ⟨hys, hzs, hyz⟩ := pairwise_append.mp hs
  refine pairwise_append.mpr ⟨hys, pairwise_cons.mpr ⟨fun z hz => Int.le_of_lt (hp.right z hz), hzs⟩, ?_⟩
  intro y hy z hz
  obtain rfl | hz := mem_cons.mp hz
  · exact hp.left y hy
  · exact hyz y hy z hz

lemma StableSort.insert (h : StableSort compare es (ys ++ zs)) (hp : Placed compare ys e zs)
    (hc : TotalPreorder compare) : StableSort compare (es ++ [e]) (ys ++ e :: zs) where
  perm := perm_middle.trans ((h.perm.cons e).trans (perm_append_singleton e es).symm)
  sorted := hp.sorted h.sorted
  stable a := by
    rw [filter_append es, ← h.stable a, filter_append, filter_append, filter_cons]
    by_cases ha : compare a e = 0
    · -- what is greater than `e` is greater than `a`
      have hzs : zs.filter (compare a · = 0) = [] := by
        refine filter_eq_nil_iff.mpr fun z hz haz => ?_
        have hze := hc.lt_of_lt_of_le (c := a) (hp.right z hz) (by
          have := hc.swap a z
          simp only [decide_eq_true_eq] at haz
          omega)
        have := hc.swap e a
        omega
      simp [hzs, ha]
    · simp [ha]

end Order

variable {M L : Type} [LinkMem M L] [DecidableEq L] {S : L → Prop} {compare : L → L → Int} {m : M} {h e : L}
  {xs ys zs es : List L}

/-- Insert entries one after the other. -/
def insertAll (fuel : Nat) (m : M) (listHead : L) (compare : L → L → Int) (es : List L) : Exec M :=
  es.foldlM (fun m e => insertOrderedList fuel m listHead e fun x => pure (decide (compare e x < 0))) m

section Insert

/-- The loop stops at the entry before which the new one has its place. -/
lemma insertOrderedFrom_split (before : L → L → Bool) {y : List L} (hr : Ring (links m) h (y ++ zs)) :
    ∃ ys' zs', zs = ys' ++ zs' ∧ insertOrdered before e zs = ys' ++ e :: zs' ∧ ∀ fuel > zs.length,
      insertOrderedFrom m h (fun x => pure (before e x)) fuel (zs.headD h) = .ok (zs'.headD h) := by
  induction zs generalizing y with
  | nil =>
    refine ⟨[], [], rfl, rfl, fun fuel hf => ?_⟩
    obtain ⟨fuel, rfl⟩ := Nat.exists_eq_succ_of_ne_zero (Nat.ne_of_gt hf)
    simp [insertOrderedFrom]
  | cons z zs ih =>
    have hz : z ≠ h := fun hz => (nodup_cons.mp hr.nodup).1 (by simp [hz])
    by_cases hez : before e z = true
    · refine ⟨[], z :: zs, rfl, if_pos hez, fun fuel hf => ?_⟩
      obtain ⟨fuel, rfl⟩ := Nat.exists_eq_succ_of_ne_zero (Nat.ne_of_gt (Nat.zero_lt_of_lt hf))
      simp [insertOrderedFrom, hz, hez]
    · rw [append_cons] at hr
      have hnext : flink m z = zs.headD h := by
        have := hr.joined.1
        rwa [getLastD_concat] at this
      obtain ⟨ys', zs', hsplit, hins, hrun⟩ := ih hr
      refine ⟨z :: ys', zs', by rw [hsplit, cons_append], ?_, fun fuel hf => ?_⟩
      · rw [insertOrdered, if_neg hez, hins, cons_append]
      · obtain ⟨fuel, rfl⟩ := Nat.exists_eq_succ_of_ne_zero (Nat.ne_of_gt (Nat.zero_lt_of_lt hf))
        rw [headD_cons, insertOrderedFrom, if_neg hz, pure_okay, bind_okay, if_neg hez, hnext]
        exact hrun fuel (Nat.lt_of_succ_lt_succ hf)

section

variable (sep : Separate M S) (hh : S h)
include sep hh

/-- `InsertOrderedList` inserts the entry into the ring. -/
lemma insertOrderedList_ring (before : L → L → Bool) (hr : Ring (links m) h xs) (hS : ∀ x ∈ xs, S x) (he : S e)
    (hne : e ∉ h :: xs) :
    ∃ m', Ring (links m') h (insertOrdered before e xs) ∧ ∀ fuel > xs.length,
      insertOrderedList fuel m h e (fun x => pure (before e x)) = .ok m' := by
  obtain ⟨ys, zs, rfl, hins, hrun⟩ := insertOrderedFrom_split (e := e) (y := []) before hr
  have hS' : ∀ x ∈ h :: (ys ++ zs), S x := forall_mem_cons.mpr ⟨hh, hS⟩
  refine ⟨_, hins ▸ (insertTailList_ring sep hr hS' hne he).ring hr hS' hne, fun fuel hf => ?_⟩
  have hhead : flink m h = (ys ++ zs).headD h := (Ring.joined (y := []) hr).1
  rw [insertOrderedList, hhead, hrun fuel hf]
  rfl

end

variable (hc : TotalPreorder compare)
include hc

omit [DecidableEq L] in
/-- In a sorted list the entry has its place. -/
lemma insertOrdered_placed (hs : Sorted compare xs) : ∃ ys zs, xs = ys ++ zs ∧ Placed compare ys e zs ∧
    insertOrdered (fun e x => decide (compare e x < 0)) e xs = ys ++ e :: zs := by
  induction xs with
  | nil => exact ⟨[], [], rfl, ⟨by simp, by simp⟩, rfl⟩
  | cons z zs ih =>
    obtain ⟨hz, hs⟩ := pairwise_cons.mp hs
    by_cases hez : compare e z < 0
    · refine ⟨[], z :: zs, rfl, ⟨by simp, ?_⟩, if_pos (decide_eq_true hez)⟩
      exact forall_mem_cons.mpr ⟨hez, fun x hx => hc.lt_of_lt_of_le hez (hz x hx)⟩
    · obtain ⟨ys, zs', rfl, hp, hins⟩ := ih hs
      refine ⟨z :: ys, zs', rfl, ⟨forall_mem_cons.mpr ⟨?_, hp.left⟩, hp.right⟩, ?_⟩
      · have := hc.swap e z
        omega
      · rw [insertOrdered, decide_eq_false hez, if_neg Bool.false_ne_true, hins, cons_append]

variable (sep : Separate M S) (hh : S h)
include sep hh

/-- A new element goes behind those that do not come after it. -/
lemma insertOrderedList_placed (hr : Ring (links m) h xs) (hS : ∀ x ∈ xs, S x) (he : S e) (hne : e ∉ h :: xs)
    (hs : Sorted compare xs) : ∃ m' ys zs, xs = ys ++ zs ∧ Placed compare ys e zs ∧
      Ring (links m') h (ys ++ e :: zs) ∧ ∀ fuel > xs.length,
        insertOrderedList fuel m h e (fun x => pure (decide (compare e x < 0))) = .ok m' := by
  obtain ⟨ys, zs, hsplit, hp, hins⟩ := insertOrdered_placed (e := e) hc hs
  obtain ⟨m', hr', hrun⟩ := insertOrderedList_ring sep hh _ hr hS he hne
  exact ⟨m', ys, zs, hsplit, hp, hins ▸ hr', hrun⟩

/-- Insertion one by one is a stable sort. -/
lemma insertAll_sorts (hr : Ring (links m) h []) (hS : ∀ x ∈ es, S x) (hne : (h :: es).Nodup) :
    ∃ m' rs, Ring (links m') h rs ∧ StableSort compare es rs ∧
      ∀ fuel > es.length, insertAll fuel m h compare es = .ok m' := by
  induction es using List.reverseRecOn with
  | nil => exact ⟨m, [], hr, ⟨.refl [], .nil, fun _ => rfl⟩, fun _ _ => rfl⟩
  | append_singleton es e ih =>
    rw [← cons_append] at hne
    obtain ⟨m1, rs, hr1, hsort, hrun⟩ := ih (fun x hx => hS x (mem_append_left _ hx)) (nodup_append.mp hne).1
    obtain ⟨m2, ys, zs, rfl, hp, hr2, hrun2⟩ := insertOrderedList_placed hc sep hh hr1
      (fun x hx => hS x (mem_append_left _ (hsort.perm.mem_iff.mp hx))) (hS e (by simp))
      (fun hx => (nodup_append.mp hne).2.2 e ((hsort.perm.cons h).mem_iff.mp hx) e (by simp) rfl) hsort.sorted
    refine ⟨m2, _, hr2, hsort.insert hp hc, fun fuel hf => ?_⟩
    have hlen := hsort.perm.length_eq
    rw [length_append, length_singleton] at hf
    rw [insertAll, foldlM_append, ← insertAll, hrun fuel (by omega), bind_okay, foldlM_cons,
      hrun2 fuel (by omega)]
    rfl

end Insert

/-- `InsertOrderedList` puts an entry at its place in a sorted list, with the others in their order. Entries that
    are inserted one after the other are sorted stably. -/
theorem insertOrderedList_stable (sep : Separate M S) (hc : TotalPreorder compare) (hh : S h) :
    (∀ (m : M) xs e, Ring (links m) h xs → (∀ x ∈ xs, S x) → S e → e ∉ h :: xs → Sorted compare xs →
      ∃ m' ys zs, xs = ys ++ zs ∧ Placed compare ys e zs ∧ Ring (links m') h (ys ++ e :: zs) ∧
        Sorted compare (ys ++ e :: zs) ∧ ∀ fuel > xs.length,
          insertOrderedList fuel m h e (fun x => pure (decide (compare e x < 0))) = .ok m') ∧
    ∀ (m : M) es, Ring (links m) h [] → (∀ x ∈ es, S x) → (h :: es).Nodup →
      ∃ m' rs, Ring (links m') h rs ∧ StableSort compare es rs ∧
        ∀ fuel > es.length, insertAll fuel m h compare es = .ok m' := by
  refine ⟨fun m xs e hr hS he hne hs => ?_, fun m es hr hS hne => insertAll_sorts hc sep hh hr hS hne⟩
  obtain ⟨m', ys, zs, rfl, hp, hr', hrun⟩ := insertOrderedList_placed hc sep hh hr hS he hne hs
  exact ⟨m', ys, zs, rfl, hp, hr', hp.sorted hs, hrun⟩

/-- Entries compared by their tens: 21 was inserted before 25. -/
theorem insertOrderedList_stable_tens : ∃ (m : Links Nat) (rs : List Nat), Ring m 0 rs ∧
    rs.filter (fun x => decide ((21 / 10 : Int) - (x / 10 : Nat) = 0)) = [21, 25] := by
  have hc : TotalPreorder fun a b : Nat => (a / 10 : Nat) - ((b / 10 : Nat) : Int) :=
    ⟨fun a b => by omega, fun a b c h1 h2 => by omega⟩
  obtain ⟨m, rs, hr, hsort, -⟩ := (insertOrderedList_stable (h := 0) separate_links hc trivial).2 ⟨id, id⟩
    [21, 13, 25] (ring_nil_iff.mpr ⟨rfl, rfl⟩) (fun _ _ => trivial) (by decide)
  exact ⟨m, rs, hr, hsort.stable 21⟩

end HAL9000
