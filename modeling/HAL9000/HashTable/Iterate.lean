import HAL9000.HashTable.Refine

/-!
# The hash table: going through its elements

`HashTableIteratorNext` reads the head of a bucket whenever it goes on to the next one, and behind the last bucket
it goes on, too. So the elements are returned one after the other, but the call behind the last of them reads one
head more than there are.
-/

namespace HAL9000.HashTable
open Lib LinkMem List

variable {E : Type}

def elementsFrom (t : Table E) (lists : Nat → List E) (i : Nat) : List E :=
  (range' i (t.maxKeys - i)).flatMap lists

/-- An iterator and the elements that are still to come. -/
inductive Position (t : Table E) (lists : Nat → List E) : HashIterator E → List E → Prop where
  | inside {i : Nat} {ys zs : List E} : i < t.maxKeys → lists i = ys ++ zs →
    Position t lists ⟨i, .bucket i, (zs.map Slot.elem).headD (.bucket i)⟩ (zs ++ elementsFrom t lists (i + 1))
  | behind {lit : ListIterator (Slot E)} : Position t lists ⟨t.maxKeys, lit⟩ []

variable {t : Table E} {lists : Nat → List E} {it : HashIterator E} {e : E} {rest ys zs : List E}
  {fuel heads i k : Nat}

lemma elementsFrom_lt (hi : i < t.maxKeys) : elementsFrom t lists i = lists i ++ elementsFrom t lists (i + 1) := by
  rw [elementsFrom, elementsFrom, show t.maxKeys - i = t.maxKeys - (i + 1) + 1 by omega, range'_succ,
    flatMap_cons]

lemma elementsFrom_end : elementsFrom t lists t.maxKeys = [] := by
  rw [elementsFrom, Nat.sub_self]
  rfl

lemma mem_elementsFrom : e ∈ elementsFrom t lists 0 ↔ Member t lists e := by
  simp [elementsFrom, Member, mem_flatMap, mem_range'_1]

lemma Buckets.nodup_elementsFrom (hb : Buckets t lists) : (elementsFrom t lists 0).Nodup := by
  refine List.nodup_flatMap.mpr ⟨fun i hi => ?_, ?_⟩
  · have := mem_range'_1.mp hi
    exact List.Nodup.of_map _ (List.nodup_cons.mp (hb.ring i (by omega)).nodup).2
  · refine List.Pairwise.imp_of_mem (fun {i j} hi hj hij => ?_) (nodup_range' 1)
    have := mem_range'_1.mp hi
    have := mem_range'_1.mp hj
    exact fun e he he' => hij ((hb.index i (by omega) e he).symm.trans (hb.index j (by omega) e he'))

variable [DecidableEq E]

/-- The loop of `HashTableIteratorNext`, where so many heads of buckets may be read. -/
def iteratorFromWithin (t : Table E) (heads : Nat) : Nat → HashIterator E → Exec (Option (Slot E) × HashIterator E)
  | 0, it => pure (none, it)
  | fuel + 1, it =>
    if it.keyIndex < t.maxKeys then
      match listIteratorNext t.links it.currentKeyIterator with
      | (some entry, lit) => pure (some entry, { it with currentKeyIterator := lit })
      | (none, _) =>
        if it.keyIndex + 1 < heads then
          iteratorFromWithin t heads fuel
            ⟨it.keyIndex + 1, listIteratorInit t.links (.bucket (it.keyIndex + 1))⟩
        else throw .wild
    else pure (none, it)

def iteratorNextWithin (t : Table E) (heads : Nat) (it : HashIterator E) :
    Exec (Option (Slot E) × HashIterator E) :=
  iteratorFromWithin t heads (t.maxKeys + 1) it

def nextCalls (next : HashIterator E → Exec (Option (Slot E) × HashIterator E)) :
    Nat → HashIterator E → Exec (List (Option (Slot E)))
  | 0, _ => pure []
  | k + 1, it => do
    let (entry, it) ← next it
    let entries ← nextCalls next k it
    pure (entry :: entries)

lemma iteratorNextWithin_eq (hheads : t.maxKeys < heads) (it : HashIterator E) :
    iteratorNextWithin t heads it = .ok (hashTableIteratorNext t it) := by
  rw [iteratorNextWithin, hashTableIteratorNext]
  generalize t.maxKeys + 1 = fuel
  induction fuel generalizing it with
  | zero => rfl
  | succ fuel ih =>
    rw [iteratorFromWithin, hashTableIteratorFrom]
    by_cases hlt : it.keyIndex < t.maxKeys
    · rw [if_pos hlt, if_pos hlt, if_pos (by omega)]
      obtain ⟨entry | _, lit⟩ := listIteratorNext t.links it.currentKeyIterator
      · exact ih _
      · rfl
    · rw [if_neg hlt, if_neg hlt]
      rfl

lemma Buckets.listIteratorInit_eq (hb : Buckets t lists) (hi : i < t.maxKeys) :
    listIteratorInit t.links (.bucket i) = ⟨.bucket i, ((lists i).map Slot.elem).headD (.bucket i)⟩ :=
  congrArg _ (hb.flink_bucket hi)

lemma iteratorFromWithin_inside (hb : Buckets t lists) (hheads : t.maxKeys ≤ heads) (hi : i < t.maxKeys)
    (hes : lists i = ys ++ zs) (hfuel : t.maxKeys - i < fuel) :
    (∃ e rest it', zs ++ elementsFrom t lists (i + 1) = e :: rest ∧ Position t lists it' rest ∧
      it'.keyIndex < t.maxKeys ∧
      iteratorFromWithin t heads fuel ⟨i, .bucket i, (zs.map Slot.elem).headD (.bucket i)⟩ =
        .ok (some (.elem e), it')) ∨
    zs ++ elementsFrom t lists (i + 1) = [] ∧
      iteratorFromWithin t heads fuel ⟨i, .bucket i, (zs.map Slot.elem).headD (.bucket i)⟩ =
        if t.maxKeys < heads then .ok (none, ⟨t.maxKeys, listIteratorInit t.links (.bucket t.maxKeys)⟩)
        else .error .wild := by
  induction fuel generalizing i ys zs with
  | zero => omega
  | succ fuel ih =>
    rw [iteratorFromWithin, if_pos hi]
    cases zs with
    | cons e zs =>
      refine .inl ⟨e, _, _, rfl, .inside hi (hes.trans (append_cons ..)), hi, ?_⟩
      rw [map_cons, headD_cons, listIteratorNext, if_pos (by simp)]
      dsimp only
      rw [show flink t.links (.elem e) = _ from hb.flink_elem ys hi hes, pure_okay]
    | nil =>
      rw [map_nil, headD_nil, listIteratorNext, if_neg (not_not.mpr rfl), nil_append]
      dsimp only
      by_cases hlast : i + 1 < t.maxKeys
      · rw [if_pos (by omega), hb.listIteratorInit_eq hlast, elementsFrom_lt hlast]
        exact ih hlast (nil_append _).symm (by omega)
      · have hend : i + 1 = t.maxKeys := by omega
        rw [hend]
        refine .inr ⟨elementsFrom_end, ?_⟩
        by_cases hmore : t.maxKeys < heads
        · rw [if_pos hmore, if_pos hmore]
          cases fuel with
          | zero => rfl
          | succ fuel => rw [iteratorFromWithin, if_neg (Nat.lt_irrefl _), pure_okay]
        · rw [if_neg hmore, if_neg hmore]
          rfl

lemma nextCalls_eq (hb : Buckets t lists) (hheads : t.maxKeys ≤ heads) (hat : Position t lists it rest) :
    (k ≤ rest.length ∨ t.maxKeys < heads → nextCalls (iteratorNextWithin t heads) k it =
      .ok ((List.range k).map fun j => rest[j]?.map Slot.elem)) ∧
    (it.keyIndex < t.maxKeys → rest.length < k → heads = t.maxKeys →
      nextCalls (iteratorNextWithin t heads) k it = .error .wild) := by
  induction k generalizing it rest with
  | zero => exact ⟨fun _ => rfl, fun _ h _ => absurd h (Nat.not_lt_zero _)⟩
  | succ k ih =>
    rw [nextCalls, iteratorNextWithin, range_succ_eq_map, map_cons, map_map]
    cases hat with
    | behind =>
      rw [iteratorFromWithin, if_neg (Nat.lt_irrefl _), pure_okay, bind_okay]
      refine ⟨fun h => ?_, fun h _ _ => absurd h (Nat.lt_irrefl _)⟩
      dsimp only
      rw [(ih .behind).1 (.inr (h.resolve_left (by simp))), bind_okay]
      rfl
    | inside hi hes =>
      obtain ⟨e, rest, it', hrest, hat, hlt, hrun⟩ | ⟨hrest, hrun⟩ :=
        iteratorFromWithin_inside hb hheads hi hes (Nat.lt_succ_of_le (Nat.sub_le ..))
      · rw [hrun, bind_okay, hrest]
        dsimp only
        refine ⟨fun h => ?_, fun _ hlen heq => ?_⟩
        · rw [(ih hat).1 (h.imp_left Nat.le_of_succ_le_succ), bind_okay]
          rfl
        · rw [(ih hat).2 hlt (Nat.lt_of_succ_lt_succ hlen) heq]
          rfl
      · rw [hrun, hrest]
        refine ⟨fun h => ?_, fun _ _ heq => ?_⟩
        · rw [if_pos (h.resolve_left (by simp)), bind_okay]
          dsimp only
          rw [(ih .behind).1 (.inr (h.resolve_left (by simp))), bind_okay]
          rfl
        · rw [if_neg (by omega)]
          rfl

/-- The elements are returned each of them once, and then nothing more. But no head is read behind the last one if
    and only if there are not more calls than elements. -/
theorem hashTableIteratorNext_reads_iff (hb : Buckets t lists) (hpos : 0 < t.maxKeys) (k : Nat) :
    (elementsFrom t lists 0).Nodup ∧ (∀ e, e ∈ elementsFrom t lists 0 ↔ Member t lists e) ∧
    nextCalls (fun it => .ok (hashTableIteratorNext t it)) k (hashTableIteratorInit t) =
      .ok ((List.range k).map fun j => (elementsFrom t lists 0)[j]?.map Slot.elem) ∧
    (nextCalls (iteratorNextWithin t t.maxKeys) k (hashTableIteratorInit t) =
        .ok ((List.range k).map fun j => (elementsFrom t lists 0)[j]?.map Slot.elem) ↔
      k ≤ (elementsFrom t lists 0).length) := by
  have hat : Position t lists (hashTableIteratorInit t) (elementsFrom t lists 0) := by
    rw [hashTableIteratorInit, hb.listIteratorInit_eq hpos, elementsFrom_lt hpos]
    exact .inside hpos (nil_append _).symm
  refine ⟨hb.nodup_elementsFrom, fun e => mem_elementsFrom, ?_, fun hrun => ?_, fun hk => ?_⟩
  · rw [← funext (iteratorNextWithin_eq (Nat.lt_succ_self _))]
    exact (nextCalls_eq hb (Nat.le_succ _) hat).1 (.inr (Nat.lt_succ_self _))
  · by_contra hk
    rw [(nextCalls_eq hb le_rfl hat).2 hpos (Nat.lt_of_not_le hk) rfl] at hrun
    cases hrun
  · exact (nextCalls_eq hb le_rfl hat).1 (.inl hk)

/-- Three buckets, of which the second one is empty. -/
def spacedTable : Table Bool where
  maxKeys := 3
  keySize := 1
  numberOfElements := 2
  hashFunc key _ _ := (key 0).toNat
  links :=
    let other : Slot Bool → Slot Bool := fun s => if s = .bucket 0 then .elem false
      else if s = .elem false then .bucket 0 else if s = .bucket 2 then .elem true
      else if s = .elem true then .bucket 2 else s
    ⟨other, other⟩
  key s _ := if s = .elem true then 2 else 0

lemma spacedTable_buckets : Buckets spacedTable fun i =>
    if i = 0 then [false] else if i = 2 then [true] else [] where
  ring := by decide
  index := by decide
  sorted := by decide

/-- Two calls for the two elements. -/
theorem hashTableIteratorNext_reads_two :
    nextCalls (iteratorNextWithin spacedTable 3) 2 (hashTableIteratorInit spacedTable) =
      .ok [some (.elem false), some (.elem true)] :=
  (hashTableIteratorNext_reads_iff spacedTable_buckets (by decide) 2).2.2.2.mpr (by decide)

/-- A bucket with one element. -/
def oneElement : Table Unit where
  maxKeys := 1
  keySize := 1
  numberOfElements := 1
  hashFunc _ _ _ := 0
  links :=
    let other : Slot Unit → Slot Unit := fun s => if s = .bucket 0 then .elem () else .bucket 0
    ⟨other, other⟩
  key _ _ := 0

/-- The second call returns nothing, as it should, but it reads the head of a second bucket. -/
theorem hashTableIteratorNext_reads_behind :
    nextCalls (fun it => .ok (hashTableIteratorNext oneElement it)) 2 (hashTableIteratorInit oneElement) =
        .ok [some (.elem ()), none] ∧
      nextCalls (iteratorNextWithin oneElement oneElement.maxKeys) 2 (hashTableIteratorInit oneElement) =
        .error .wild := by
  exact ⟨rfl, rfl⟩

end HAL9000.HashTable
