import HAL9000.HashTable.Model

/-!
# The hash table: its buckets

`Buckets t lists` says that the elements `lists i` are in bucket `i`: each bucket is a ring, holds
elements that belong there, and is sorted by the keys. So no key occurs twice. A search cuts the
bucket of a key in two (`hashTableSearchKeyInBucket_eq`), at the element with the key or where such an
element would go. Insertion and removal change one bucket at this place.
-/

namespace HAL9000.HashTable
open Lib LinkMem Function List

variable {E : Type}

/-- The hash function of the table only looks at the bytes of a key, and returns the index of a
    bucket; keys are not empty. -/
structure Table.Hashed (t : Table E) : Prop where
  keySize_pos : 0 < t.keySize
  keySize_lt : t.keySize < 2 ^ 32
  index_lt : ∀ k, t.hIndex k < t.maxKeys
  index_congr : ∀ k k', bytes t.keySize k = bytes t.keySize k' → t.hIndex k = t.hIndex k'

def Table.keyOf (t : Table E) (e : E) : List UInt8 := bytes t.keySize (t.key (.elem e))

def Table.cmp (t : Table E) (a b : E) : Int := rmemcmpBelow (t.key (.elem a)) (t.key (.elem b)) t.keySize

structure Buckets (t : Table E) (lists : Nat → List E) : Prop where
  ring : ∀ i < t.maxKeys, Ring t.links (.bucket i) ((lists i).map Slot.elem)
  index : ∀ i < t.maxKeys, ∀ e ∈ lists i, t.hIndex (t.key (.elem e)) = i
  sorted : ∀ i < t.maxKeys, (lists i).Pairwise fun a b => t.cmp a b < 0

def Member (t : Table E) (lists : Nat → List E) (e : E) : Prop := ∃ i < t.maxKeys, e ∈ lists i

variable {t t' : Table E} {lists : Nat → List E} {e f : E} {i fuel : Nat} {k : Nat → UInt8}
  {ys zs : List E}

lemma Table.Hashed.clRmemcmp_eq (hh : t.Hashed) (p q : Nat → UInt8) :
    clRmemcmp p q t.keySize = rmemcmpBelow p q t.keySize :=
  HAL9000.clRmemcmp_eq hh.keySize_pos hh.keySize_lt

lemma Buckets.keyOf_inj (hb : Buckets t lists) (hh : t.Hashed) (he : Member t lists e)
    (hf : Member t lists f) (hk : t.keyOf e = t.keyOf f) : e = f := by
  obtain ⟨i, hi, he⟩ := he
  obtain ⟨j, hj, hf⟩ := hf
  obtain rfl : i = j := by
    rw [← hb.index i hi e he, ← hb.index j hj f hf]
    exact hh.index_congr _ _ hk
  have hne : (lists i).Pairwise fun a b => t.keyOf a ≠ t.keyOf b := by
    refine (hb.sorted i hi).imp fun {a b} hlt heq => ?_
    have : t.cmp a b = 0 := rmemcmpBelow_eq_zero.mpr heq
    omega
  by_contra hef
  have : Std.Symm fun a b => t.keyOf a ≠ t.keyOf b := ⟨fun _ _ => Ne.symm⟩
  exact hne.forall he hf hef hk

section Search

variable [DecidableEq E]

variable (ys) in
lemma listSearchFrom_eq (hh : t.Hashed) (hr : Ring t.links (.bucket i) ((ys ++ zs).map Slot.elem))
    (hz : zs.Pairwise fun a b => t.cmp a b < 0) (hfuel : zs.length < fuel) (c : SearchCtx E)
    (hc : c.placeholderEntry = (ys.map Slot.elem).getLastD (.bucket i) ∧ c.result ≤ 0) :
    ∃ us vs, zs = us ++ vs ∧
      (∀ e ∈ us, rmemcmpBelow (t.key (.elem e)) k t.keySize < 0) ∧
      ((vs = [] ∧ ∃ c', listSearchFrom t.links (.bucket i) true (hashTableSearchElem t k) fuel
            ((zs.map Slot.elem).headD (.bucket i)) c = .ok (none, c') ∧
          c'.placeholderEntry = ((ys ++ us).map Slot.elem).getLastD (.bucket i) ∧ c'.result ≤ 0) ∨
        ∃ v ws, vs = v :: ws ∧
          0 ≤ rmemcmpBelow (t.key (.elem v)) k t.keySize ∧
          listSearchFrom t.links (.bucket i) true (hashTableSearchElem t k) fuel
            ((zs.map Slot.elem).headD (.bucket i)) c =
              .ok (if rmemcmpBelow (t.key (.elem v)) k t.keySize = 0 then some (.elem v) else none,
                ⟨.elem v, rmemcmpBelow (t.key (.elem v)) k t.keySize⟩)) := by
  induction zs generalizing ys fuel c with obtain ⟨fuel, rfl⟩ := Nat.exists_eq_add_of_lt hfuel
  | nil =>
    refine ⟨[], [], rfl, by simp, .inl ⟨rfl, c, ?_, by simpa using hc.1, hc.2⟩⟩
    rw [listSearchFrom, map_nil, headD_nil, if_pos rfl]
    rfl
  | cons z zs ih =>
    have hstep : listSearchFrom t.links (.bucket i) true (hashTableSearchElem t k)
        ((z :: zs).length + fuel + 1) (((z :: zs).map Slot.elem).headD (.bucket i)) c =
        (let r := rmemcmpBelow (t.key (.elem z)) k t.keySize
        if r = 0 then .ok (some (.elem z), ⟨.elem z, r⟩)
        else if 0 < r then .ok (none, ⟨.elem z, r⟩)
        else listSearchFrom t.links (.bucket i) true (hashTableSearchElem t k)
          ((z :: zs).length + fuel) ((zs.map Slot.elem).headD (.bucket i)) ⟨.elem z, r⟩) := by
      have hfl : flink t.links (.elem z) = (zs.map Slot.elem).headD (.bucket i) := by
        have hr' : Ring t.links (.bucket i) ((ys ++ [z]).map Slot.elem ++ zs.map Slot.elem) := by
          simpa using hr
        have := hr'.joined.1
        rwa [map_append, map_singleton, getLastD_concat] at this
      rw [listSearchFrom, map_cons, headD_cons, if_neg (by simp), hashTableSearchElem,
        hh.clRmemcmp_eq, hfl]
      simp
    simp only [hstep]
    by_cases hlt : rmemcmpBelow (t.key (.elem z)) k t.keySize < 0
    · obtain ⟨us, vs, rfl, hus, hres⟩ := ih (ys ++ [z]) (by simpa using hr)
        (List.pairwise_cons.mp hz).2
        (show zs.length < (z :: zs).length + fuel by simp only [length_cons]; omega)
        ⟨.elem z, rmemcmpBelow (t.key (.elem z)) k t.keySize⟩ ⟨by simp, Int.le_of_lt hlt⟩
      refine ⟨z :: us, vs, rfl, ?_, ?_⟩
      · intro e he
        rcases List.mem_cons.mp he with rfl | he
        · exact hlt
        · exact hus e he
      · simp only [if_neg (by omega : ¬ rmemcmpBelow (t.key (.elem z)) k t.keySize = 0),
          if_neg (by omega : ¬ 0 < rmemcmpBelow (t.key (.elem z)) k t.keySize)]
        simpa using hres
    · refine ⟨[], z :: zs, rfl, by simp, .inr ⟨z, zs, rfl, by omega, ?_⟩⟩
      by_cases h0 : rmemcmpBelow (t.key (.elem z)) k t.keySize = 0
      · simp only [if_pos h0]
      · simp only [if_neg h0, if_pos (by omega : 0 < rmemcmpBelow (t.key (.elem z)) k t.keySize)]

lemma listSearchFrom_mono {h x : Slot E} {c : SearchCtx E} {r : Option (Slot E) × SearchCtx E} {j : Nat}
    (hr : listSearchFrom t.links h true (hashTableSearchElem t k) fuel x c = .ok r) :
    listSearchFrom t.links h true (hashTableSearchElem t k) (fuel + j) x c = .ok r := by
  induction fuel generalizing x c with
  | zero => cases hr
  | succ fuel ih =>
    rw [Nat.add_right_comm]
    rw [listSearchFrom] at hr ⊢
    split at hr
    · next hx => rwa [if_pos hx]
    · next hx =>
      rw [if_neg hx]
      simp only at hr ⊢
      split at hr
      · next h0 => rwa [if_pos h0]
      · next h0 =>
        rw [if_neg h0]
        split at hr
        · next h1 => rwa [if_pos h1]
        · next h1 =>
          rw [if_neg h1]
          exact ih hr

/-- A search cuts the bucket in two. Before the cut are the smaller keys. Behind it is the element
    with the key, followed by larger keys, or there are larger keys only. -/
inductive Cut (t : Table E) (k : Nat → UInt8) (es : List E) : Bool × Slot E → Prop where
  | found {e : E} {ys zs : List E} : es = ys ++ e :: zs →
    bytes t.keySize (t.key (.elem e)) = bytes t.keySize k → Cut t k es (true, .elem e)
  | missing {ys zs : List E} : es = ys ++ zs → (∀ a ∈ ys, rmemcmpBelow (t.key (.elem a)) k t.keySize < 0) →
    (∀ b ∈ zs, 0 < rmemcmpBelow (t.key (.elem b)) k t.keySize) →
    Cut t k es (false, (ys.map Slot.elem).getLastD (.bucket (t.hIndex k)))

lemma hashTableSearchKeyInBucket_cut (hb : Buckets t lists) (hh : t.Hashed)
    (hfuel : (lists (t.hIndex k)).length < fuel) :
    ∃ r, hashTableSearchKeyInBucket fuel t (.bucket (t.hIndex k)) k = .ok r ∧
      Cut t k (lists (t.hIndex k)) r := by
  have hi := hh.index_lt k
  have hr := hb.ring _ hi
  have hs := hb.sorted _ hi
  have hfl : flink t.links (.bucket (t.hIndex k)) =
      ((lists (t.hIndex k)).map Slot.elem).headD (.bucket (t.hIndex k)) :=
    (Ring.joined (y := []) (by simpa using hr)).1
  obtain ⟨us, vs, hes, hus, hres⟩ := listSearchFrom_eq (k := k) [] hh (by simpa using hr) hs
    hfuel ⟨.bucket (t.hIndex k), 0⟩ ⟨rfl, Int.le_refl 0⟩
  rw [hashTableSearchKeyInBucket, listSearchForElement, hfl]
  rcases hres with ⟨rfl, c', hrun, hpl, hle⟩ | ⟨v, ws, rfl, hge, hrun⟩
  · rw [hrun]
    refine ⟨_, rfl, ?_⟩
    have := Cut.missing (t := t) (k := k) hes hus (by simp)
    simpa [if_neg (by omega : ¬ c'.result > 0), hpl] using this
  · rw [hrun]
    by_cases h0 : rmemcmpBelow (t.key (.elem v)) k t.keySize = 0
    · refine ⟨_, ?_, .found hes (rmemcmpBelow_eq_zero.mp h0)⟩
      simp [h0, ensure]
    · have hpos : rmemcmpBelow (t.key (.elem v)) k t.keySize > 0 := by omega
      have hbl : blink t.links (.elem v) = (us.map Slot.elem).getLastD (.bucket (t.hIndex k)) := by
        rw [hes, map_append, map_cons] at hr
        exact hr.joined.2
      simp only [if_neg h0, bind_okay]
      refine ⟨_, rfl, ?_⟩
      simp only [if_pos hpos, hbl]
      refine .missing hes hus fun b hb' => ?_
      rcases List.mem_cons.mp hb' with rfl | hb'
      · exact hpos
      · -- what comes behind a larger key is larger still
        rw [hes] at hs
        have hvb : t.cmp v b < 0 :=
          (List.pairwise_cons.mp (List.pairwise_append.mp hs).2.1).1 b hb'
        by_contra hle
        have hkv : rmemcmpBelow k (t.key (.elem v)) t.keySize < 0 := by
          rw [rmemcmpBelow_swap]
          omega
        have hkb := rmemcmpBelow_trans hkv hvb
        rw [rmemcmpBelow_swap] at hkb
        omega

lemma hashTableSearchKeyInBucket_eq (hb : Buckets t lists) (hh : t.Hashed) :
    ∃ r, Cut t k (lists (t.hIndex k)) r ∧ ∀ fuel > (lists (t.hIndex k)).length,
      hashTableSearchKeyInBucket fuel t (.bucket (t.hIndex k)) k = .ok r := by
  obtain ⟨r, hr, hc⟩ := hashTableSearchKeyInBucket_cut (k := k) hb hh (Nat.lt_succ_self _)
  refine ⟨r, hc, fun fuel hfuel => ?_⟩
  obtain ⟨j, rfl⟩ := Nat.exists_eq_add_of_le (Nat.succ_le_of_lt hfuel)
  rw [hashTableSearchKeyInBucket, listSearchForElement] at hr ⊢
  obtain ⟨x, hx, hr⟩ := bind_ok.mp hr
  rw [listSearchFrom_mono hx]
  exact hr

end Search

section Change

variable {l' : Links (Slot E)} {es : List E} {n j : Nat}

lemma Buckets.apart (hb : Buckets t lists) (hi : i < t.maxKeys) (hj : j < t.maxKeys) (hij : j ≠ i) {x : Slot E}
    (hx : x ∈ .bucket j :: (lists j).map Slot.elem) : x ∉ .bucket i :: (lists i).map Slot.elem := by
  intro hx'
  simp only [mem_cons, mem_map] at hx hx'
  rcases hx with rfl | ⟨e, he, rfl⟩
  · rcases hx' with hx' | ⟨_, _, hx'⟩
    · exact hij (Slot.bucket.inj hx')
    · cases hx'
  · rcases hx' with hx' | ⟨f, hf, hx'⟩
    · cases hx'
    · cases hx'
      exact hij ((hb.index j hj e he).symm.trans (hb.index i hi e hf))

lemma sorted_insert (hs : (ys ++ zs).Pairwise fun a b => t.cmp a b < 0)
    (hy : ∀ a ∈ ys, t.cmp a e < 0) (hz : ∀ b ∈ zs, t.cmp e b < 0) :
    (ys ++ e :: zs).Pairwise fun a b => t.cmp a b < 0 := by
  obtain ⟨h1, h2, h3⟩ := List.pairwise_append.mp hs
  refine List.pairwise_append.mpr ⟨h1, List.pairwise_cons.mpr ⟨hz, h2⟩, fun a ha b hb => ?_⟩
  rcases List.mem_cons.mp hb with rfl | hb
  · exact hy a ha
  · exact h3 a ha b hb

variable [DecidableEq E]

lemma Buckets.change (hb : Buckets t lists) (hring : Ring l' (.bucket i) (es.map Slot.elem))
    (hsame : ∀ j < t.maxKeys, j ≠ i → ∀ x ∈ .bucket j :: (lists j).map Slot.elem, SameLinks t.links l' x)
    (hindex : ∀ e ∈ es, t.hIndex (t.key (.elem e)) = i)
    (hsorted : es.Pairwise fun a b => t.cmp a b < 0) :
    Buckets { t with links := l', numberOfElements := n } (update lists i es) := by
  constructor
  · intro j hj
    by_cases hij : j = i
    · subst hij
      rwa [update_self]
    · rw [update_of_ne hij]
      exact (hb.ring j hj).congr (hsame j hj hij)
  · intro j hj e he
    by_cases hij : j = i
    · subst hij
      rw [update_self] at he
      exact hindex e he
    · rw [update_of_ne hij] at he
      exact hb.index j hj e he
  · intro j hj
    by_cases hij : j = i
    · subst hij
      rwa [update_self]
    · rw [update_of_ne hij]
      exact hb.sorted j hj

omit [DecidableEq E] in
lemma member_update (hb : Buckets t lists) (hi : i < t.maxKeys) (x : E) :
    Member { t with links := l', numberOfElements := n } (update lists i es) x ↔
      x ∈ es ∨ Member t lists x ∧ x ∉ lists i := by
  constructor
  · rintro ⟨j, hj, hx⟩
    by_cases hij : j = i
    · subst hij
      rw [update_self] at hx
      exact .inl hx
    · rw [update_of_ne hij] at hx
      refine .inr ⟨⟨j, hj, hx⟩, fun hx' => hij ?_⟩
      exact (hb.index j hj x hx).symm.trans (hb.index i hi x hx')
  · rintro (hx | ⟨⟨j, hj, hx⟩, hx'⟩)
    · exact ⟨i, hi, by rwa [update_self]⟩
    · refine ⟨j, hj, ?_⟩
      rw [update_of_ne]
      · exact hx
      · rintro rfl
        exact hx' hx

omit [DecidableEq E] in
lemma not_mem_bucket (hnew : ¬ Member t lists e) (hj : j < t.maxKeys) :
    Slot.elem e ∉ .bucket j :: (lists j).map Slot.elem := by
  intro hx
  simp only [mem_cons, mem_map, reduceCtorEq, false_or] at hx
  obtain ⟨f, hf, hfe⟩ := hx
  cases hfe
  exact hnew ⟨j, hj, hf⟩

section

variable (hb : Buckets t lists) (hi : i < t.maxKeys)
include hb hi

lemma Buckets.insert_missing (he : t.hIndex (t.key (.elem e)) = i) (hnew : ¬ Member t lists e)
    (hes : lists i = ys ++ zs) (hy : ∀ a ∈ ys, t.cmp a e < 0) (hz : ∀ b ∈ zs, 0 < t.cmp b e) :
    Buckets
      { t with
        links := insertHeadList t.links ((ys.map Slot.elem).getLastD (.bucket i)) (.elem e)
        numberOfElements := n } (update lists i (ys ++ e :: zs)) := by
  have hr := hb.ring i hi
  have hs := hb.sorted i hi
  rw [hes, map_append] at hr
  rw [hes] at hs
  have hxi := not_mem_bucket hnew hi
  rw [hes, map_append] at hxi
  have hl := insertHeadList_ring separate_links hr (fun _ _ => trivial) hxi trivial
  refine hb.change ?_ ?_ ?_ (sorted_insert hs hy fun b hb => ?_)
  · rw [map_append, map_cons]
    exact hl.ring hr (fun _ _ => trivial) hxi
  · intro j hj hij x hxj
    refine hl.same trivial (fun hxe => not_mem_bucket hnew hj (hxe ▸ hxj)) ?_
    have := hb.apart hi hj hij hxj
    rwa [hes, map_append] at this
  · intro f hf
    rcases List.mem_append.mp hf with hf | hf
    · exact hb.index i hi f (by rw [hes]; simp [hf])
    · rcases List.mem_cons.mp hf with rfl | hf
      · exact he
      · exact hb.index i hi f (by rw [hes]; simp [hf])
  · rw [Table.cmp, rmemcmpBelow_swap]
    have := hz b hb
    rw [Table.cmp] at this
    omega

lemma Buckets.remove (hes : lists i = ys ++ e :: zs) :
    Buckets { t with links := (removeEntryList t.links (.elem e)).1, numberOfElements := n }
      (update lists i (ys ++ zs)) := by
  have hr := hb.ring i hi
  have hs := hb.sorted i hi
  rw [hes, map_append, map_cons] at hr
  rw [hes] at hs
  have hu := removeEntryList_ring separate_links hr fun _ _ => trivial
  refine hb.change ?_ ?_ ?_ ?_
  · rw [map_append]
    exact hu.ring hr fun _ _ => trivial
  · intro j hj hij x hxj
    refine hu.same trivial fun hx => hb.apart hi hj hij hxj ?_
    rw [hes]
    simp only [map_append, map_cons, mem_cons, mem_append] at hx ⊢
    exact hx.imp_right fun hx => hx.imp_right .inr
  · intro f hf
    refine hb.index i hi f ?_
    rw [hes]
    simp only [mem_append, mem_cons] at hf ⊢
    exact hf.imp_right .inr
  · exact hs.sublist (List.Sublist.append_left (sublist_cons_self e zs) ys)

lemma Buckets.replace (he : t.hIndex (t.key (.elem e)) = i) (hnew : ¬ Member t lists e)
    (hes : lists i = ys ++ f :: zs) (hk : t.keyOf f = t.keyOf e) :
    Buckets
      { t with
        links := (removeEntryList (insertHeadList t.links (.elem f) (.elem e)) (.elem f)).1
        numberOfElements := n } (update lists i (ys ++ e :: zs)) := by
  have hr := hb.ring i hi
  have hxi := not_mem_bucket hnew hi
  have hsplit : (lists i).map Slot.elem = (ys ++ [f]).map Slot.elem ++ zs.map Slot.elem := by
    rw [hes]
    simp
  rw [hsplit] at hr hxi
  have hl := insertHeadList_ring separate_links hr (fun _ _ => trivial) hxi trivial
  have hr1 := hl.ring hr (fun _ _ => trivial) hxi
  rw [map_append, map_singleton, getLastD_concat] at hl
  rw [map_append, map_singleton, getLastD_concat, append_assoc, singleton_append] at hr1
  have hu := removeEntryList_ring separate_links hr1 fun _ _ => trivial
  refine hb.change ?_ ?_ ?_ ?_
  · rw [map_append, map_cons]
    exact hu.ring hr1 fun _ _ => trivial
  · intro j hj hij x hxj
    have hxe : x ≠ .elem e := fun hxe => not_mem_bucket hnew hj (hxe ▸ hxj)
    have hxi := hb.apart hi hj hij hxj
    rw [hsplit] at hxi
    have h1 := hl.flink x trivial (fun h => hxi (by simp [h])) hxe
    have h2 := hl.blink x trivial (fun h => hxi (h ▸ headD_mem_ring _ _ _)) hxe
    have hxi' : x ∉ .bucket i :: (ys.map Slot.elem ++ .elem e :: zs.map Slot.elem) := by
      intro hx'
      simp only [map_append, map_cons, map_nil, mem_cons, mem_append,
        not_mem_nil, or_false] at hx' hxi
      tauto
    have h3 := hu.same trivial hxi'
    exact ⟨h3.1.trans h1, h3.2.trans h2⟩
  · intro x hx
    rcases List.mem_append.mp hx with hx | hx
    · exact hb.index i hi x (by rw [hes]; simp [hx])
    · rcases List.mem_cons.mp hx with rfl | hx
      · exact he
      · exact hb.index i hi x (by rw [hes]; simp [hx])
  · -- the new element compares like the old one
    have hs := hb.sorted i hi
    have hag := bytes_eq_iff.mp hk
    rw [hes] at hs
    refine sorted_insert (hs.sublist (List.Sublist.append_left (sublist_cons_self f zs) ys))
      (fun a ha => ?_) fun b hb => ?_
    · have := (List.pairwise_append.mp hs).2.2 a ha f (by simp)
      rwa [Table.cmp, rmemcmpBelow_congr (fun _ _ => rfl) hag] at this
    · have := (List.pairwise_cons.mp (List.pairwise_append.mp hs).2.1).1 b hb
      rwa [Table.cmp, rmemcmpBelow_congr hag fun _ _ => rfl] at this

end

omit [DecidableEq E] in
lemma Buckets.forget (hb : Buckets t lists) (hout : ¬ Member t lists e) {key' : Slot E → Nat → UInt8}
    (hl : ∀ y, y ≠ .elem e → l'.flink y = t.links.flink y ∧ l'.blink y = t.links.blink y ∧ key' y = t.key y) :
    Buckets { t with links := l', key := key' } lists := by
  have hne : ∀ j < t.maxKeys, ∀ x ∈ lists j, Slot.elem x ≠ .elem e := by
    intro j hj x hx hxe
    cases hxe
    exact hout ⟨j, hj, hx⟩
  constructor
  · intro j hj
    refine (hb.ring j hj).congr fun x hx => ?_
    have hxe : x ≠ .elem e := fun hxe => not_mem_bucket hout hj (hxe ▸ hx)
    exact ⟨(hl x hxe).1, (hl x hxe).2.1⟩
  · intro j hj x hx
    have := hb.index j hj x hx
    rwa [← (hl _ (hne j hj x hx)).2.2] at this
  · intro j hj
    refine (hb.sorted j hj).imp_of_mem fun {a b} ha hb' h => ?_
    rwa [Table.cmp, ← (hl _ (hne j hj a ha)).2.2, ← (hl _ (hne j hj b hb')).2.2] at h

end Change

end HAL9000.HashTable
