import HAL9000.HashTable.Buckets
import HAL9000.Lib.Keyed
import HAL9000.Lib.Reach

/-!
# The hash table is a finite map

`Represents t m` relates a table to the finite map it stands for. The calls on the table and the
operations `Op.spec` on the map give the same answers, and keep them related. `Pair` runs the two side
by side.
-/

namespace HAL9000.HashTable
open Lib LinkMem Function List

abbrev KeyMap (E : Type) := Finmap fun _ : List UInt8 => E

/-- The calls on a table, and a user who gives an element another key. -/
inductive Op (E : Type) where
  | insert (e : E)
  | remove (key : Nat → UInt8)
  | removeEntry (e : E)
  | lookup (key : Nat → UInt8)
  | clear (freeFunction : Table E → Slot E → Table E)
  | rekey (e : E) (key : Nat → UInt8)

variable {E : Type} [DecidableEq E]

def Table.next (fuel : Nat) (t : Table E) : Op E → Exec (Table E × Option (Slot E))
  | .insert e => hashTableInsert fuel t (.elem e)
  | .remove key => hashTableRemove fuel t key
  | .removeEntry e => pure (hashTableRemoveEntry t (.elem e), none)
  | .lookup key => do
    let r ← hashTableLookup fuel t key
    pure (t, r)
  | .clear freeFunction => do
    let t ← hashTableClear fuel t freeFunction
    pure (t, none)
  | .rekey e key => pure ({ t with key := update t.key (.elem e) key }, none)

def Op.spec (t : Table E) (m : KeyMap E) : Op E → KeyMap E × Option E
  | .insert e => (m.insert (t.keyOf e) e, m.lookup (t.keyOf e))
  | .remove key => (m.erase (bytes t.keySize key), m.lookup (bytes t.keySize key))
  | .removeEntry e => (m.erase (t.keyOf e), none)
  | .lookup key => (m, m.lookup (bytes t.keySize key))
  | .clear _ => (∅, none)
  | .rekey _ _ => (m, none)

def FreesOnly (freeFunction : Table E → Slot E → Table E) : Prop :=
  ∀ t x, ∃ l key', freeFunction t x = { t with links := l, key := key' } ∧
    ∀ y ≠ x, l.flink y = t.links.flink y ∧ l.blink y = t.links.blink y ∧ key' y = t.key y

/-- Elements that are in the table are not inserted again, elements that are not are not removed, and
    keys of elements in the table do not change. -/
def Op.Legal (t : Table E) (m : KeyMap E) : Op E → Prop
  | .insert e => ∀ k, m.lookup k ≠ some e
  | .removeEntry e => m.lookup (t.keyOf e) = some e
  | .clear freeFunction => FreesOnly freeFunction
  | .rekey e _ => ∀ k, m.lookup k ≠ some e
  | _ => True

/-- The number of elements fits into a `DWORD` after the call. -/
def Op.Counted (t : Table E) : Op E → Prop
  | .insert _ => t.numberOfElements < maxDword
  | _ => True

def Represents (t : Table E) (m : KeyMap E) : Prop :=
  ∃ lists, Buckets t lists ∧ Keyed t.keyOf (Member t lists) m ∧ t.numberOfElements = m.keys.card

variable {t t' : Table E} {m : KeyMap E} {lists : Nat → List E} {e : E} {i fuel : Nat}
  {k : Nat → UInt8} {o : Op E} {a : Option (Slot E)}

section Lookup

section

omit [DecidableEq E]

lemma Cut.missing_key {es ys zs : List E} (hes : es = ys ++ zs)
    (hy : ∀ a ∈ ys, rmemcmpBelow (t.key (.elem a)) k t.keySize < 0)
    (hz : ∀ b ∈ zs, 0 < rmemcmpBelow (t.key (.elem b)) k t.keySize) :
    ∀ x ∈ es, t.keyOf x ≠ bytes t.keySize k := by
  intro x hx hk
  have h0 := rmemcmpBelow_eq_zero.mpr hk
  rw [hes] at hx
  rcases List.mem_append.mp hx with hx | hx
  · have := hy x hx
    omega
  · have := hz x hx
    omega

lemma Member.mem_bucket (hb : Buckets t lists) (hh : t.Hashed) {x : E} (hx : Member t lists x)
    (hk : t.keyOf x = bytes t.keySize k) : x ∈ lists (t.hIndex k) := by
  obtain ⟨j, hj, hx⟩ := hx
  rwa [← hh.index_congr _ _ hk, hb.index j hj x hx]

lemma hashTableSearchKeyInBucket_lookup (hb : Buckets t lists) (hh : t.Hashed)
    (hm : Keyed t.keyOf (Member t lists) m) {r : Bool × Slot E}
    (hc : Cut t k (lists (t.hIndex k)) r) :
    (if r.1 then some r.2 else none) = (m.lookup (bytes t.keySize k)).map Slot.elem := by
  cases hc with
  | @found e ys zs hes hk =>
    have hx : Member t lists e := ⟨_, hh.index_lt k, by rw [hes]; simp⟩
    rw [(hm _ e).mpr ⟨hx, hk⟩]
    rfl
  | missing hes hy hz =>
    rw [hm.lookup_none fun x hx hk => Cut.missing_key hes hy hz x (hx.mem_bucket hb hh hk) hk]
    rfl

end

lemma hashTableLookup_eq (hb : Buckets t lists) (hh : t.Hashed)
    (hm : Keyed t.keyOf (Member t lists) m) (hfuel : (lists (t.hIndex k)).length < fuel) :
    hashTableLookup fuel t k = .ok ((m.lookup (bytes t.keySize k)).map Slot.elem) := by
  obtain ⟨r, hc, hr⟩ := hashTableSearchKeyInBucket_eq hb hh
  rw [hashTableLookup, hr fuel hfuel, ← hashTableSearchKeyInBucket_lookup hb hh hm hc]
  rfl

end Lookup

section Calls

omit [DecidableEq E] in
lemma member_iff (l' : Links (Slot E)) (hb : Buckets t lists) (hh : t.Hashed) {es : List E} {n : Nat}
    {P : E → Prop} (hes : ∀ x, x ∈ es ↔ P x ∨ x ∈ lists (t.hIndex k) ∧ t.keyOf x ≠ bytes t.keySize k)
    (x : E) :
    Member { t with links := l', numberOfElements := n } (update lists (t.hIndex k) es) x ↔
      P x ∨ Member t lists x ∧ t.keyOf x ≠ bytes t.keySize k := by
  rw [member_update hb (hh.index_lt k), hes]
  constructor
  · rintro ((hx | ⟨hx, hk⟩) | ⟨hx, hout⟩)
    · exact .inl hx
    · exact .inr ⟨⟨_, hh.index_lt k, hx⟩, hk⟩
    · exact .inr ⟨hx, fun hk => hout (hx.mem_bucket hb hh hk)⟩
  · rintro (hx | ⟨hx, hk⟩)
    · exact .inl (.inl hx)
    · by_cases hin : x ∈ lists (t.hIndex k)
      · exact .inl (.inr ⟨hin, hk⟩)
      · exact .inr ⟨hx, hin⟩

omit [DecidableEq E] in
lemma Buckets.mem_others (hb : Buckets t lists) (hh : t.Hashed) {ys zs : List E}
    (hes : lists (t.hIndex k) = ys ++ e :: zs) (hk : t.keyOf e = bytes t.keySize k) (x : E) :
    x ∈ ys ∨ x ∈ zs ↔ x ∈ lists (t.hIndex k) ∧ t.keyOf x ≠ bytes t.keySize k := by
  have hi := hh.index_lt k
  have hmem : ∀ y ∈ lists (t.hIndex k), Member t lists y := fun y hy => ⟨_, hi, hy⟩
  have he : Member t lists e := hmem e (by rw [hes]; simp)
  have hself : t.cmp e e = 0 := rmemcmpBelow_eq_zero.mpr rfl
  have hs := hb.sorted _ hi
  rw [hes] at hs
  constructor
  · intro hx
    have hxm : x ∈ lists (t.hIndex k) := by
      rw [hes, mem_append, mem_cons]
      exact hx.imp_right .inr
    refine ⟨hxm, fun hxk => ?_⟩
    obtain rfl := hb.keyOf_inj hh (hmem x hxm) he (hxk.trans hk.symm)
    rcases hx with hx | hx
    · have := (List.pairwise_append.mp hs).2.2 x hx x (by simp)
      omega
    · have := (List.pairwise_cons.mp (List.pairwise_append.mp hs).2.1).1 x hx
      omega
  · rintro ⟨hx, hxk⟩
    rw [hes, mem_append, mem_cons] at hx
    rcases hx with hx | rfl | hx
    · exact .inl hx
    · exact absurd hk hxk
    · exact .inr hx

variable (hb : Buckets t lists) (hh : t.Hashed) (hm : Keyed t.keyOf (Member t lists) m)
  (hn : t.numberOfElements = m.keys.card)
include hb hh hm hn

lemma hashTableInsert_spec (hnew : ¬ Member t lists e) (hsmall : t.numberOfElements < maxDword) :
    ∃ l n, (∀ fuel > (lists (t.hIndex (t.key (.elem e)))).length,
        hashTableInsert fuel t (.elem e) = .ok ({ t with links := l, numberOfElements := n },
          (m.lookup (t.keyOf e)).map Slot.elem)) ∧
      n < 2 ^ 32 ∧
      Represents { t with links := l, numberOfElements := n } (m.insert (t.keyOf e) e) := by
  have hi := hh.index_lt (t.key (.elem e))
  obtain ⟨r, hc, hr⟩ := hashTableSearchKeyInBucket_eq (k := t.key (.elem e)) hb hh
  have hlook := hashTableSearchKeyInBucket_lookup hb hh hm hc
  change _ = (m.lookup (t.keyOf e)).map Slot.elem at hlook
  rw [← hlook]
  unfold maxDword at hsmall
  cases hc with
  | @found f ys zs hes hk =>
    have hf : m.lookup (t.keyOf e) = some f := (hm _ f).mpr ⟨⟨_, hi, by rw [hes]; simp⟩, hk⟩
    refine ⟨_, t.numberOfElements, fun fuel hfuel => ?_, by omega, ⟨_, hb.replace hi rfl hnew hes hk, ?_, ?_⟩⟩
    · rw [hashTableInsert]
      simp only
      rw [ensure_pos hi, bind_okay, hr fuel hfuel]
      rfl
    · refine hm.insert (member_iff _ hb hh fun x => ?_)
      rw [← hb.mem_others hh hes hk, mem_append, mem_cons]
      tauto
    · rw [card_keys_replace hf]
      exact hn
  | @missing ys zs hes hy hz =>
    have hnone : m.lookup (t.keyOf e) = none := by
      cases h : m.lookup (t.keyOf e) with
      | none => rfl
      | some x => simp [h] at hlook
    refine ⟨_, t.numberOfElements + 1, fun fuel hfuel => ?_, by omega,
      ⟨_, hb.insert_missing hi rfl hnew hes hy hz, ?_, ?_⟩⟩
    · rw [hashTableInsert]
      simp only
      rw [ensure_pos hi, bind_okay, hr fuel hfuel, ← wadd_eq (w := 32) (by omega)]
      rfl
    · refine hm.insert (member_iff _ hb hh fun x => ?_)
      have hkey := Cut.missing_key hes hy hz x
      rw [mem_append, mem_cons]
      rw [hes, mem_append] at hkey ⊢
      tauto
    · rw [card_keys_insert hnone, ← hn]

lemma hashTableRemoveEntry_spec (hlt : t.numberOfElements < 2 ^ 32) {ys zs : List E}
    (hes : lists (t.hIndex (t.key (.elem e))) = ys ++ e :: zs) :
    ∃ l n, hashTableRemoveEntry t (.elem e) = { t with links := l, numberOfElements := n } ∧
      Buckets { t with links := l, numberOfElements := n }
        (update lists (t.hIndex (t.key (.elem e))) (ys ++ zs)) ∧
      Keyed t.keyOf (Member t (update lists (t.hIndex (t.key (.elem e))) (ys ++ zs)))
        (m.erase (t.keyOf e)) ∧
      n = (m.erase (t.keyOf e)).keys.card := by
  have hi := hh.index_lt (t.key (.elem e))
  have he : m.lookup (t.keyOf e) = some e := (hm _ e).mpr ⟨⟨_, hi, by rw [hes]; simp⟩, rfl⟩
  have hcard := card_keys_erase he
  refine ⟨_, _, rfl, hb.remove hi hes, hm.erase fun x => ?_, ?_⟩
  · have hothers : ∀ x, x ∈ ys ++ zs ↔ False ∨ x ∈ lists (t.hIndex (t.key (.elem e))) ∧
        t.keyOf x ≠ bytes t.keySize (t.key (.elem e)) := by
      intro x
      rw [← hb.mem_others hh hes rfl, mem_append, false_or]
    have := member_iff (P := fun _ => False) t.links (n := t.numberOfElements) hb hh hothers x
    rwa [false_or] at this
  · rw [wsub_eq hlt (by omega)]
    omega

end Calls

section Clear

/-- The iterator has left the first buckets behind, which are empty, and is at the start of the next
    one. -/
structure At (t : Table E) (lists : Nat → List E) (it : HashIterator E) : Prop where
  done : ∀ j < it.keyIndex, lists j = []
  here : it.keyIndex < t.maxKeys → it.currentKeyIterator =
    ⟨.bucket it.keyIndex, ((lists it.keyIndex).map Slot.elem).headD (.bucket it.keyIndex)⟩

omit [DecidableEq E] in
lemma Buckets.flink_bucket (hb : Buckets t lists) (hi : i < t.maxKeys) :
    t.links.flink (.bucket i) = ((lists i).map Slot.elem).headD (.bucket i) :=
  (Ring.joined (y := []) (by simpa using hb.ring i hi)).1

omit [DecidableEq E] in
lemma Buckets.flink_elem (ys : List E) (hb : Buckets t lists) (hi : i < t.maxKeys) {zs : List E}
    (hes : lists i = ys ++ e :: zs) :
    t.links.flink (.elem e) = (zs.map Slot.elem).headD (.bucket i) := by
  have hr := hb.ring i hi
  rw [hes, append_cons, map_append, map_append] at hr
  have := hr.joined.1
  rwa [map_singleton, getLastD_concat] at this

lemma hashTableIteratorFrom_spec (hb : Buckets t lists) {it : HashIterator E} (hat : At t lists it)
    (hfuel : t.maxKeys < it.keyIndex + fuel) :
    ((hashTableIteratorFrom t fuel it).1 = none ∧ ∀ j < t.maxKeys, lists j = []) ∨
      ∃ e j zs, j < t.maxKeys ∧ lists j = e :: zs ∧ (∀ j' < j, lists j' = []) ∧
        hashTableIteratorFrom t fuel it =
          (some (.elem e), ⟨j, ⟨.bucket j, (zs.map Slot.elem).headD (.bucket j)⟩⟩) := by
  induction fuel generalizing it with
  | zero => exact .inl ⟨rfl, fun j hj => hat.done j (by omega)⟩
  | succ fuel ih =>
    rw [hashTableIteratorFrom]
    by_cases hlt : it.keyIndex < t.maxKeys
    · rw [if_pos hlt, hat.here hlt, listIteratorNext]
      cases hes : lists it.keyIndex with
      | nil =>
        rw [map_nil, headD_nil, if_neg (not_not.mpr rfl)]
        refine ih ⟨fun j hj => ?_, fun hlt' => ?_⟩ (by simp only; omega)
        · by_cases hj' : j = it.keyIndex
          · rw [hj', hes]
          · simp only at hj
            exact hat.done j (by omega)
        · simp only at hlt' ⊢
          rw [listIteratorInit]
          exact congrArg _ (hb.flink_bucket hlt')
      | cons e zs =>
        refine .inr ⟨e, it.keyIndex, zs, hlt, hes, hat.done, ?_⟩
        rw [map_cons, headD_cons, if_pos (by simp)]
        simp only [flink, hb.flink_elem [] hlt hes]
    · rw [if_neg hlt]
      exact .inl ⟨rfl, fun j hj => hat.done j (by omega)⟩

/-- Nothing has changed but the memory of elements, and the number of elements. -/
structure Table.Same (t t' : Table E) : Prop where
  maxKeys : t'.maxKeys = t.maxKeys
  keySize : t'.keySize = t.keySize
  hashFunc : t'.hashFunc = t.hashFunc

omit [DecidableEq E] in
lemma Table.Same.hashed (hs : t.Same t') (hh : t.Hashed) : t'.Hashed := by
  have hi : t'.hIndex = t.hIndex := by
    funext k
    rw [Table.hIndex, Table.hIndex, hs.hashFunc, hs.keySize, hs.maxKeys]
  constructor
  · rw [hs.keySize]
    exact hh.keySize_pos
  · rw [hs.keySize]
    exact hh.keySize_lt
  · rw [hi, hs.maxKeys]
    exact hh.index_lt
  · rw [hi, hs.keySize]
    exact hh.index_congr

omit [DecidableEq E] in
lemma Keyed.forget (l' : Links (Slot E)) {key' : Slot E → Nat → UInt8}
    (hm : Keyed t.keyOf (Member t lists) m) (hout : ¬ Member t lists e)
    (hk : ∀ y, y ≠ .elem e → key' y = t.key y) :
    Keyed (Table.keyOf { t with links := l', key := key' })
      (Member { t with links := l', key := key' } lists) m := by
  intro k x
  rw [hm k x]
  refine and_congr_right fun hx => ?_
  have hne : Slot.elem x ≠ .elem e := by
    intro hxe
    cases hxe
    exact hout hx
  simp only [Table.keyOf, hk _ hne]

lemma hashTableClearFrom_spec {freeFunction : Table E → Slot E → Table E}
    (hf : FreesOnly freeFunction) {it : HashIterator E} (hh : t.Hashed) (hb : Buckets t lists)
    (hm : Keyed t.keyOf (Member t lists) m) (hn : t.numberOfElements = m.keys.card)
    (hlt : t.numberOfElements < 2 ^ 32) (hat : At t lists it) (hfuel : m.keys.card < fuel) :
    ∃ t', hashTableClearFrom freeFunction fuel t it = .ok t' ∧ Represents t' ∅ ∧ t.Same t' := by
  induction fuel generalizing t m lists it with
  | zero => omega
  | succ fuel ih =>
    rw [hashTableClearFrom, hashTableIteratorNext]
    rcases hashTableIteratorFrom_spec hb hat
      (show t.maxKeys < it.keyIndex + (t.maxKeys + 1) by omega) with
      ⟨hnone, hempty⟩ | ⟨e, j, zs, hj, hes, hdone, hsome⟩
    · have hno : ∀ e, ¬ Member t lists e := by
        rintro e ⟨j, hj, he⟩
        rw [hempty j hj] at he
        cases he
      obtain ⟨r, it', hr⟩ : ∃ r it', hashTableIteratorFrom t (t.maxKeys + 1) it = (r, it') :=
        ⟨_, _, rfl⟩
      rw [hr] at hnone ⊢
      obtain rfl : r = none := hnone
      have hm0 := hm.eq_empty hno
      rw [hm0] at hm hn
      exact ⟨t, rfl, ⟨lists, hb, hm, hn⟩, rfl, rfl, rfl⟩
    · rw [hsome]
      simp only
      have hindex : t.hIndex (t.key (.elem e)) = j := hb.index j hj e (by rw [hes]; simp)
      have he : m.lookup (t.keyOf e) = some e := (hm _ e).mpr ⟨⟨j, hj, by rw [hes]; simp⟩, rfl⟩
      have hcard := card_keys_erase he
      obtain ⟨l, n, hrem, hb1, hm1, hn1⟩ := hashTableRemoveEntry_spec hb hh hm hn hlt
        (show lists (t.hIndex (t.key (.elem e))) = [] ++ e :: zs by rw [hindex, hes]; rfl)
      rw [hindex] at hb1 hm1
      rw [hrem]
      have hout : ¬ Member t (update lists j ([] ++ zs)) e := by
        intro hx
        have := (hm1 (t.keyOf e) e).mpr ⟨hx, rfl⟩
        rw [Finmap.lookup_erase] at this
        cases this
      obtain ⟨l', key', hfree, hrest⟩ := hf { t with links := l, numberOfElements := n } (.elem e)
      rw [hfree]
      have hb2 := hb1.forget hout hrest
      have hm2 := Keyed.forget l' hm1 hout fun y hy => (hrest y hy).2.2
      obtain ⟨t', hr, hrep, hsame⟩ := ih
        (t := { t with links := l', numberOfElements := n, key := key' }) (m := m.erase (t.keyOf e))
        (Table.Same.hashed (t := t) ⟨rfl, rfl, rfl⟩ hh) hb2 hm2 hn1 (by simp only; omega)
        (show At _ _ ⟨j, ⟨.bucket j, (zs.map Slot.elem).headD (.bucket j)⟩⟩ from ⟨fun j' hj' => by
            rw [update_of_ne (by simp only at hj'; omega)]
            exact hdone j' hj',
          fun _ => by simp⟩) (by omega)
      exact ⟨t', hr, hrep, hsame.maxKeys, hsame.keySize, hsame.hashFunc⟩

lemma hashTableClearFrom_mono {freeFunction : Table E → Slot E → Table E} {it : HashIterator E}
    {j : Nat} (hr : hashTableClearFrom freeFunction fuel t it = .ok t') :
    hashTableClearFrom freeFunction (fuel + j) t it = .ok t' := by
  induction fuel generalizing t it with
  | zero => cases hr
  | succ fuel ih =>
    rw [Nat.add_right_comm]
    rw [hashTableClearFrom] at hr ⊢
    split at hr
    · exact hr
    · exact ih hr

end Clear

section Runs

structure Pair (E : Type) where
  table : Table E
  map : KeyMap E

def Step (s : Pair E) (o : Op E) (s' : Pair E) : Prop :=
  (∃ a n, ∀ fuel ≥ n, s.table.next fuel o = .ok (s'.table, a)) ∧ s'.map = (o.spec s.table s.map).1

/-- A new table, with any number of buckets, any key size and any hash function that only looks at the
    key and returns the index of a bucket. -/
def Fresh (s : Pair E) : Prop := s.map = ∅ ∧ ∃ maxKeys keySize hashFunc links key, keySize < 2 ^ 32 ∧
    (∀ k, hashFunc k keySize maxKeys < maxKeys) ∧
    (∀ k k', bytes keySize k = bytes keySize k' → hashFunc k keySize maxKeys = hashFunc k' keySize maxKeys) ∧
    hashTableInit maxKeys keySize hashFunc links key = .ok s.table

structure Sound (s : Pair E) : Prop where
  hashed : s.table.Hashed
  represents : Represents s.table s.map
  small : s.table.numberOfElements < 2 ^ 32

omit [DecidableEq E] in
lemma Sound.not_member {s : Pair E} (hm : Keyed s.table.keyOf (Member s.table lists) s.map)
    (hout : ∀ k, s.map.lookup k ≠ some e) : ¬ Member s.table lists e :=
  fun he => hout _ ((hm _ e).mpr ⟨he, rfl⟩)

lemma Sound.next {s : Pair E} (hs : Sound s) (hlegal : o.Legal s.table s.map) (hcount : o.Counted s.table) :
    ∃ t' n, (∀ fuel ≥ n, s.table.next fuel o = .ok (t', (o.spec s.table s.map).2.map Slot.elem)) ∧
      Sound ⟨t', (o.spec s.table s.map).1⟩ := by
  obtain ⟨hh, ⟨lists, hb, hm, hn⟩, hlt⟩ := hs
  cases o with
  | insert e =>
    obtain ⟨l, n, hr, hsmall, hrep⟩ := hashTableInsert_spec hb hh hm hn (Sound.not_member hm hlegal)
      hcount
    exact ⟨_, _, hr, Table.Same.hashed (t := s.table) ⟨rfl, rfl, rfl⟩ hh, hrep, hsmall⟩
  | remove k =>
    cases hk : s.map.lookup (bytes s.table.keySize k) with
    | none =>
      refine ⟨s.table, (lists (s.table.hIndex k)).length + 1, fun fuel hfuel => ?_, hh, ?_, hlt⟩
      · rw [Table.next, hashTableRemove, hashTableLookup_eq hb hh hm hfuel, Op.spec, hk]
        rfl
      · have herase : s.map.erase (bytes s.table.keySize k) = s.map := by
          refine Finmap.ext_lookup fun k' => ?_
          by_cases hkk : k' = bytes s.table.keySize k
          · rw [hkk, Finmap.lookup_erase, hk]
          · exact Finmap.lookup_erase_ne hkk
        simp only [Op.spec, herase]
        exact ⟨lists, hb, hm, hn⟩
    | some e =>
      obtain ⟨he, hke⟩ := (hm _ e).mp hk
      have hmem := he.mem_bucket hb hh hke
      have hindex : s.table.hIndex (s.table.key (.elem e)) = s.table.hIndex k := hh.index_congr _ _ hke
      obtain ⟨ys, zs, hes⟩ := append_of_mem hmem
      obtain ⟨l, n, hrem, hb', hm', hn'⟩ := hashTableRemoveEntry_spec hb hh hm hn hlt
        (by rw [hindex]; exact hes)
      have hcard := card_keys_erase (hke ▸ hk)
      refine ⟨{ s.table with links := l, numberOfElements := n },
        (lists (s.table.hIndex k)).length + 1, fun fuel hfuel => ?_,
        Table.Same.hashed (t := s.table) ⟨rfl, rfl, rfl⟩ hh, ?_, ?_⟩
      · rw [Table.next, hashTableRemove, hashTableLookup_eq hb hh hm hfuel, Op.spec, hk, ← hrem]
        rfl
      · rw [hke] at hm' hn'
        exact ⟨_, hb', hm', hn'⟩
      · simp only
        omega
  | removeEntry e =>
    obtain ⟨⟨i, hi, he⟩, _⟩ := (hm _ e).mp hlegal
    have hindex := hb.index i hi e he
    obtain ⟨ys, zs, hes⟩ := append_of_mem he
    obtain ⟨l, n, hrem, hb', hm', hn'⟩ := hashTableRemoveEntry_spec hb hh hm hn hlt
      (by rw [hindex]; exact hes)
    have hcard := card_keys_erase hlegal
    refine ⟨{ s.table with links := l, numberOfElements := n }, 0, fun fuel _ => ?_,
      Table.Same.hashed (t := s.table) ⟨rfl, rfl, rfl⟩ hh, ⟨_, hb', hm', hn'⟩, ?_⟩
    · rw [Table.next, hrem]
      rfl
    · simp only
      omega
  | lookup k =>
    refine ⟨s.table, (lists (s.table.hIndex k)).length + 1, fun fuel hfuel => ?_, hh, ⟨lists, hb, hm, hn⟩, hlt⟩
    rw [Table.next, hashTableLookup_eq hb hh hm hfuel]
    rfl
  | clear freeFunction =>
    have hpos : 0 < s.table.maxKeys := (Nat.zero_le _).trans_lt (hh.index_lt fun _ => 0)
    obtain ⟨t', hr, hrep, hsame⟩ := hashTableClearFrom_spec hlegal hh hb hm hn hlt
      (show At s.table lists (hashTableIteratorInit s.table) from
        ⟨nofun, fun _ => congrArg _ (hb.flink_bucket hpos)⟩) (Nat.lt_succ_self _)
    refine ⟨t', s.map.keys.card + 1, fun fuel hfuel => ?_, hsame.hashed hh, hrep, ?_⟩
    · obtain ⟨j, rfl⟩ := Nat.exists_eq_add_of_le hfuel
      rw [Table.next, hashTableClear, hashTableClearFrom_mono hr]
      rfl
    · obtain ⟨_, _, _, hn'⟩ := hrep
      simp only [hn', Finmap.keys_empty, Finset.card_empty]
      omega
  | rekey e key =>
    have hout := Sound.not_member hm hlegal
    have hk : ∀ y, y ≠ .elem e → update s.table.key (.elem e) key y = s.table.key y :=
      fun y hy => update_of_ne hy ..
    refine ⟨_, 0, fun fuel _ => rfl, Table.Same.hashed (t := s.table) ⟨rfl, rfl, rfl⟩ hh,
      ⟨lists, hb.forget hout fun y hy => ⟨rfl, rfl, hk y hy⟩, Keyed.forget _ hm hout hk, hn⟩, hlt⟩

lemma initEntries_ring {links : Links (Slot E)} {n : Nat} (hi : i < n) :
    Ring (initEntries links n) (.bucket i) [] := by
  induction n with
  | zero => omega
  | succ n ih =>
    by_cases hin : i = n
    · subst hin
      exact initializeListHead_ring separate_links trivial
    · have hr := ih (by omega)
      have hne : Slot.bucket i ≠ (.bucket n : Slot E) := fun h => hin (Slot.bucket.inj h)
      refine hr.congr fun x hx => ?_
      rw [mem_singleton] at hx
      subst hx
      exact ⟨update_of_ne hne .., update_of_ne hne ..⟩

lemma Fresh.sound {s : Pair E} (hf : Fresh s) (h0 : 0 < s.table.keySize) : Sound s := by
  obtain ⟨hmap, maxKeys, keySize, hashFunc, links, key, hks, hlt, hcongr, hinit⟩ := hf
  obtain ⟨_, _, hinit⟩ := bind_ok.mp hinit
  have ht := Except.ok.inj hinit
  rw [← ht] at h0
  obtain ⟨table, map⟩ := s
  subst hmap ht
  refine ⟨⟨h0, hks, hlt, hcongr⟩, ⟨fun _ => [], ⟨fun i hi => initEntries_ring hi, nofun, ?_⟩, ?_, ?_⟩, ?_⟩
  · exact fun _ _ => List.Pairwise.nil
  · refine Keyed.empty ?_
    rintro e ⟨_, _, he⟩
    cases he
  · simp
  · simp only
    omega

/-- The call is legal, and the number of elements still fits into a `DWORD`. -/
def Op.Fits (s : Pair E) (o : Op E) : Prop := o.Legal s.table s.map ∧ o.Counted s.table

/-- A table of keys that are not empty behaves as a finite map, as long as the number of its elements
    fits into a `DWORD`: every call returns, with the answer of the map, and the number of elements is
    the number of keys. -/
theorem table_refines_map {s : Pair E}
    (hr : Reach (fun s => Fresh s ∧ 0 < s.table.keySize) Step (fun s o => o.Fits s) s) :
    s.table.numberOfElements = s.map.keys.card ∧
      ∀ o : Op E, o.Fits s → ∃ t' n, ∀ fuel ≥ n,
        s.table.next fuel o = .ok (t', (o.spec s.table s.map).2.map Slot.elem) := by
  have hs : Sound s := by
    refine hr.invariant (fun s hs => hs.1.sound hs.2) ?_
    rintro s o s' hs ⟨hlegal, hcount⟩ ⟨⟨a, n, hstep⟩, hmap⟩
    obtain ⟨t', n', hnext, hs'⟩ := hs.next hlegal hcount
    have heq := (hstep (max n n') (Nat.le_max_left _ _)).symm.trans
      (hnext (max n n') (Nat.le_max_right _ _))
    obtain ⟨table', map'⟩ := s'
    simp only at hmap heq
    rw [hmap, (Prod.mk.inj (Except.ok.inj heq)).1]
    exact hs'
  obtain ⟨_, _, _, hn⟩ := hs.represents
  refine ⟨hn, fun o ho => ?_⟩
  obtain ⟨t', n, hnext, _⟩ := hs.next ho.1 ho.2
  exact ⟨t', n, hnext⟩

lemma hashTableInsert_mono {x : Slot E} {r : Table E × Option (Slot E)} {j : Nat}
    (hr : hashTableInsert fuel t x = .ok r) : hashTableInsert (fuel + j) t x = .ok r := by
  rw [hashTableInsert] at hr ⊢
  simp only at hr ⊢
  obtain ⟨_, hp, hr⟩ := bind_ok.mp hr
  rw [hp, bind_okay]
  obtain ⟨y, hy, hr⟩ := bind_ok.mp hr
  rw [hashTableSearchKeyInBucket, listSearchForElement] at hy ⊢
  obtain ⟨z, hz, hy⟩ := bind_ok.mp hy
  rw [listSearchFrom_mono hz]
  exact bind_ok.mpr ⟨y, hy, hr⟩

lemma step_insert {s : Pair E} (hr : hashTableInsert fuel s.table (.elem e) = .ok (t', a)) :
    Step s (.insert e) ⟨t', s.map.insert (s.table.keyOf e) e⟩ := by
  refine ⟨⟨a, fuel, fun fuel' hfuel => ?_⟩, rfl⟩
  obtain ⟨j, rfl⟩ := Nat.exists_eq_add_of_le hfuel
  exact hashTableInsert_mono hr

def twoElements (keySize : Nat) : Exec (Table Bool) :=
  hashTableInit 1 keySize (fun _ _ _ => 0) ⟨id, id⟩ fun x _ => if x = .elem true then 1 else 0

lemma fresh_twoElements {keySize : Nat} (hk : keySize < 2 ^ 32) {t : Table Bool}
    (ht : twoElements keySize = .ok t) : Fresh ⟨t, ∅⟩ :=
  ⟨rfl, 1, keySize, _, _, _, hk, fun _ => Nat.one_pos, fun _ _ _ => rfl, ht⟩

def insertBoth (keySize : Nat) : Exec (Table Bool × Table Bool × Table Bool) := do
  let t ← twoElements keySize
  let r ← hashTableInsert 3 t (.elem false)
  let r' ← hashTableInsert 3 r.1 (.elem true)
  pure (t, r.1, r'.1)

lemma reach_insertBoth {keySize : Nat} (hk : keySize < 2 ^ 32) {t t1 t2 : Table Bool}
    (h : insertBoth keySize = .ok (t, t1, t2)) (h0 : t.numberOfElements < maxDword)
    (h1 : t1.numberOfElements < maxDword) :
    Reach (fun s => Fresh s ∧ s.table = t) Step (fun s o => o.Fits s)
      ⟨t2, ((∅ : KeyMap Bool).insert (t.keyOf false) false).insert (t1.keyOf true) true⟩ := by
  obtain ⟨t, ht, h⟩ := bind_ok.mp h
  obtain ⟨⟨t1, a1⟩, hr1, h⟩ := bind_ok.mp h
  obtain ⟨⟨t2, a2⟩, hr2, h⟩ := bind_ok.mp h
  cases h
  have hfit1 : Op.Fits ⟨t, ∅⟩ (.insert false) := by
    refine ⟨fun k hlook => ?_, h0⟩
    rw [Finmap.lookup_empty] at hlook
    cases hlook
  have hfit2 : Op.Fits ⟨t1, (∅ : KeyMap Bool).insert (t.keyOf false) false⟩ (.insert true) := by
    refine ⟨fun k hlook => ?_, h1⟩
    by_cases hkk : k = t.keyOf false
    · rw [hkk, Finmap.lookup_insert] at hlook
      cases hlook
    · rw [Finmap.lookup_insert_of_ne _ hkk, Finmap.lookup_empty] at hlook
      cases hlook
  exact .step (.step (.start ⟨fresh_twoElements hk ht, rfl⟩) hfit1 (step_insert hr1)) hfit2
    (step_insert hr2)

/-- Two keys of one byte. -/
theorem table_refines_map_twoElements :
    ∃ s : Pair Bool, Reach (fun s => Fresh s ∧ 0 < s.table.keySize) Step (fun s o => o.Fits s) s ∧
      s.table.numberOfElements = 2 ∧ s.table.numberOfElements = s.map.keys.card ∧
      ∀ o : Op Bool, o.Fits s → ∃ t' n, ∀ fuel ≥ n,
        s.table.next fuel o = .ok (t', (o.spec s.table s.map).2.map Slot.elem) := by
  obtain ⟨⟨t, t1, t2⟩, hs, h0, h1, hk, hn⟩ : ∃ r, insertBoth 1 = .ok r ∧ r.1.numberOfElements < maxDword ∧
      r.2.1.numberOfElements < maxDword ∧ r.1.keySize = 1 ∧ r.2.2.numberOfElements = 2 := exists_ok (by decide)
  have hr := (reach_insertBoth (by decide) hs h0 h1).start_mono
    (fun s => Fresh s ∧ 0 < s.table.keySize) (by
      rintro s ⟨hf, rfl⟩
      exact ⟨hf, hk.symm ▸ Nat.one_pos⟩)
  exact ⟨_, hr, hn, table_refines_map hr⟩

/-- With empty keys the comparison looks at `2 ^ 32` bytes behind them, and takes them for
    different. -/
theorem empty_keys_differ : ∃ s : Pair Bool, Reach Fresh Step (fun s o => o.Fits s) s ∧
      s.table.numberOfElements = 2 ∧ s.map.keys.card = 1 := by
  obtain ⟨⟨t, t1, t2⟩, hs, h0, h1, hk, hk1, hn⟩ : ∃ r, insertBoth 0 = .ok r ∧ r.1.numberOfElements < maxDword ∧
      r.2.1.numberOfElements < maxDword ∧ r.1.keyOf false = [] ∧ r.2.1.keyOf true = [] ∧
        r.2.2.numberOfElements = 2 := exists_ok (by decide)
  have hr := (reach_insertBoth (by decide) hs h0 h1).start_mono Fresh fun s hf => hf.1
  refine ⟨_, hr, hn, ?_⟩
  simp only [hk, hk1]
  rw [card_keys_replace (Finmap.lookup_insert _), card_keys_insert (Finmap.lookup_empty _)]
  rfl

end Runs

end HAL9000.HashTable

