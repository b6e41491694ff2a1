import HAL9000.Lib.Exec
import HAL9000.Lib.Links

/-!
# Linked lists

Port of `CommonLib/src/list.c`. A `LIST_ENTRY` is a pair of links somewhere in memory; where its links
are kept differs from user to user, so the functions are written over `LinkMem M L`, memories `M` that
hold the links of entries `L`. The consistency checks that only debug builds make are left out.

On entries that do not overlap (`Separate`) the functions turn rings into rings.
-/

namespace HAL9000
open Lib Function

/-- Memories that hold the links of list entries (C `LIST_ENTRY`). -/
class LinkMem (M : Type) (L : outParam Type) where
  flink : M → L → L
  blink : M → L → L
  setFlink : M → L → L → M
  setBlink : M → L → L → M

def LinkMem.links {M L : Type} [LinkMem M L] (m : M) : Links L := ⟨flink m, blink m⟩

/-- Links alone are such a memory. -/
instance {L : Type} [DecidableEq L] : LinkMem (Links L) L where
  flink := Links.flink
  blink := Links.blink
  setFlink l x y := { l with flink := update l.flink x y }
  setBlink l x y := { l with blink := update l.blink x y }

open LinkMem

section Code

variable {M L : Type} [LinkMem M L]

/-- An empty list (C `InitializeListHead`). -/
def initializeListHead (m : M) (listHead : L) : M := setFlink (setBlink m listHead listHead) listHead listHead

/-- C `IsListEmpty`. -/
def isListEmpty [DecidableEq L] (m : M) (listHead : L) : Bool := flink m listHead = listHead

/-- Unlink an entry; the result says whether the list is empty now (C `RemoveEntryList`). -/
def removeEntryList [DecidableEq L] (m : M) (entry : L) : M × Bool :=
  let f := flink m entry
  let b := blink m entry
  let m := setFlink m b f
  let m := setBlink m f b
  (m, f = b)

/-- Unlink the first entry and return it, or the head itself if there is none
    (C `RemoveHeadList`). -/
def removeHeadList (m : M) (listHead : L) : M × L :=
  let entry := flink m listHead
  let f := flink m entry
  let m := setFlink m listHead f
  let m := setBlink m f listHead
  (m, entry)

/-- Link an entry in before another one, or at the end of a list (C `InsertTailList`). -/
def insertTailList (m : M) (listHead entry : L) : M :=
  let b := blink m listHead
  let m := setFlink m entry listHead
  let m := setBlink m entry b
  let m := setFlink m b entry
  setBlink m listHead entry

/-- Link an entry in behind another one, or at the start of a list (C `InsertHeadList`). -/
def insertHeadList (m : M) (listHead entry : L) : M :=
  let f := flink m listHead
  let m := setFlink m entry f
  let m := setBlink m entry listHead
  let m := setBlink m f entry
  setFlink m listHead entry

/-- The loop of `InsertOrderedList`: the first entry from `current` on that comes after the new one,
    or the head. -/
def insertOrderedFrom [DecidableEq L] (m : M) (listHead : L) (before : L → Exec Bool) : Nat → L → Exec L
  | 0, _ => throw .fuel
  | fuel + 1, current => do
    if current = listHead then pure current
    else if ← before current then pure current
    else insertOrderedFrom m listHead before fuel (flink m current)

/-- Link an entry in before the first one that it is smaller than; `before` compares the new entry
    with one of the list (C `InsertOrderedList`). -/
def insertOrderedList [DecidableEq L] (fuel : Nat) (m : M) (listHead entry : L)
    (before : L → Exec Bool) : Exec M := do
  let current ← insertOrderedFrom m listHead before fuel (flink m listHead)
  pure (insertTailList m current entry)

/-- What `InsertOrderedList` does to the entries of a list. -/
def insertOrdered {T : Type} (before : T → T → Bool) (t : T) : List T → List T
  | [] => [t]
  | u :: us => if before t u then t :: u :: us else u :: insertOrdered before t us

/-- The loop of `ListSearchForElement`, from `current` on. The comparison may note something down in
    its context. -/
def listSearchFrom [DecidableEq L] {C : Type} (m : M) (listHead : L) (isListOrdered : Bool)
    (compareFunction : L → C → Int × C) : Nat → L → C → Exec (Option L × C)
  | 0, _, _ => throw .fuel
  | fuel + 1, current, c =>
    if current = listHead then pure (none, c)
    else
      let (cmpResult, c) := compareFunction current c
      if cmpResult = 0 then pure (some current, c)
      else if isListOrdered && decide (cmpResult > 0) then pure (none, c)
      else listSearchFrom m listHead isListOrdered compareFunction fuel (flink m current) c

/-- Search a list, up to the first larger entry if it is ordered (C `ListSearchForElement`). -/
def listSearchForElement [DecidableEq L] {C : Type} (fuel : Nat) (m : M) (listHead : L)
    (isListOrdered : Bool) (compareFunction : L → C → Int × C) (c : C) : Exec (Option L × C) :=
  listSearchFrom m listHead isListOrdered compareFunction fuel (flink m listHead) c

/-- C `SUCCEEDED`, of a status as the number that it is. -/
def succeeded (status : Nat) : Bool := 0 == status &&& 1 <<< 31

/-- The loop of `ForEachElementExecute`, from `current` on, with the status of the last call. -/
def forEachFrom [DecidableEq L] (listHead : L) (function : L → M → Nat × M) (allMustSucceed : Bool) :
    Nat → L → Nat → M → Exec (Nat × M)
  | 0, _, _, _ => throw .fuel
  | fuel + 1, current, status, m =>
    if current = listHead then pure (status, m)
    else
      let (status, m) := function current m
      if allMustSucceed && !succeeded status then pure (status, m)
      else forEachFrom listHead function allMustSucceed fuel (flink m current) status m

/-- Call a function for the elements of a list (C `ForEachElementExecute`). -/
def forEachElementExecute [DecidableEq L] (fuel : Nat) (m : M) (listHead : L)
    (function : L → M → Nat × M) (allMustSucceed : Bool) : Exec (Nat × M) :=
  forEachFrom listHead function allMustSucceed fuel (flink m listHead) 0 m

/-- An iterator over a list (C `LIST_ITERATOR`). -/
structure ListIterator (L : Type) where
  listHead : L
  currentEntry : L

/-- C `ListIteratorInit`. -/
def listIteratorInit (m : M) (list : L) : ListIterator L := ⟨list, flink m list⟩

/-- The next entry, if there is one (C `ListIteratorNext`). -/
def listIteratorNext [DecidableEq L] (m : M) (it : ListIterator L) : Option L × ListIterator L :=
  if it.currentEntry ≠ it.listHead then
    (some it.currentEntry, { it with currentEntry := flink m it.currentEntry })
  else (none, it)

end Code

/-- The entries do not overlap in memory: storing a link to one of them in one of them changes that
    link only. -/
structure Separate (M : Type) {L : Type} [LinkMem M L] (S : L → Prop) : Prop where
  flink_setFlink : ∀ {m : M} {x v}, S x → S v → flink (setFlink m x v) x = v
  flink_setFlink_ne : ∀ {m : M} {x v y}, S x → S y → y ≠ x → flink (setFlink m x v) y = flink m y
  flink_setBlink : ∀ {m : M} {x v y}, S x → S y → flink (setBlink m x v) y = flink m y
  blink_setBlink : ∀ {m : M} {x v}, S x → S v → blink (setBlink m x v) x = v
  blink_setBlink_ne : ∀ {m : M} {x v y}, S x → S y → y ≠ x → blink (setBlink m x v) y = blink m y
  blink_setFlink : ∀ {m : M} {x v y}, S x → S y → blink (setFlink m x v) y = blink m y

lemma separate_links {L : Type} [DecidableEq L] : Separate (Links L) (fun _ : L => True) where
  flink_setFlink := fun _ _ => update_self ..
  flink_setFlink_ne := fun _ _ h => update_of_ne h ..
  flink_setBlink := fun _ _ => rfl
  blink_setBlink := fun _ _ => update_self ..
  blink_setBlink_ne := fun _ _ h => update_of_ne h ..
  blink_setFlink := fun _ _ => rfl

section Rings

variable {M L : Type} [LinkMem M L] {S : L → Prop} {m m' : M} {h e p q x : L} {ys zs xs y z : List L}

def SameLinks (m m' : M) (x : L) : Prop := flink m' x = flink m x ∧ blink m' x = blink m x

lemma ring_frame (hr : Ring (links m) h xs) (hs : ∀ x ∈ h :: xs, SameLinks m m' x) : Ring (links m') h xs :=
  hr.congr hs

/-- `e` went in between `p` and `q`, and nothing else was written among the entries `S`. -/
structure LinkedIn (S : L → Prop) (m m' : M) (p e q : L) : Prop where
  left : (links m').Joined p e
  right : (links m').Joined e q
  flink : ∀ x, S x → x ≠ p → x ≠ e → flink m' x = flink m x
  blink : ∀ x, S x → x ≠ q → x ≠ e → blink m' x = blink m x

/-- `p` and `q` became neighbours, and nothing else was written among the entries `S`. -/
structure Unlinked (S : L → Prop) (m m' : M) (p q : L) : Prop where
  joined : (links m').Joined p q
  flink : ∀ x, S x → x ≠ p → flink m' x = flink m x
  blink : ∀ x, S x → x ≠ q → blink m' x = blink m x

lemma initializeListHead_ring (sep : Separate M S) (hS : S h) : Ring (links (initializeListHead m h)) h [] :=
  ring_nil_iff.mpr ⟨sep.flink_setFlink hS hS, (sep.blink_setFlink hS hS).trans (sep.blink_setBlink hS hS)⟩

lemma insertTailList_linkedIn (sep : Separate M S) (hq : S q) (hp : S (blink m q)) (he : S e)
    (hqe : q ≠ e) (hpe : blink m q ≠ e) :
    LinkedIn S m (insertTailList m q e) (blink m q) e q := by
  generalize hp' : blink m q = p at *
  have e' : insertTailList m q e =
      setBlink (setFlink (setBlink (setFlink m e q) e p) p e) q e := by
    simp only [insertTailList, hp']
  rw [e']
  refine ⟨⟨?_, ?_⟩, ⟨?_, ?_⟩, ?_, ?_⟩
  · exact (sep.flink_setBlink hq hp).trans (sep.flink_setFlink hp he)
  · change blink _ e = p
    rw [sep.blink_setBlink_ne hq he hqe.symm, sep.blink_setFlink hp he, sep.blink_setBlink he hp]
  · change flink _ e = q
    rw [sep.flink_setBlink hq he, sep.flink_setFlink_ne hp he hpe.symm, sep.flink_setBlink he he,
      sep.flink_setFlink he hq]
  · exact sep.blink_setBlink hq he
  · intro x hx hxp hxe
    rw [sep.flink_setBlink hq hx, sep.flink_setFlink_ne hp hx hxp, sep.flink_setBlink he hx,
      sep.flink_setFlink_ne he hx hxe]
  · intro x hx hxq hxe
    rw [sep.blink_setBlink_ne hq hx hxq, sep.blink_setFlink hp hx, sep.blink_setBlink_ne he hx hxe,
      sep.blink_setFlink he hx]

lemma insertHeadList_linkedIn (sep : Separate M S) (hp : S p) (hq : S (flink m p)) (he : S e)
    (hpe : p ≠ e) (hqe : flink m p ≠ e) :
    LinkedIn S m (insertHeadList m p e) p e (flink m p) := by
  generalize hq' : flink m p = q at *
  have e' : insertHeadList m p e =
      setFlink (setBlink (setBlink (setFlink m e q) e p) q e) p e := by
    simp only [insertHeadList, hq']
  rw [e']
  refine ⟨⟨?_, ?_⟩, ⟨?_, ?_⟩, ?_, ?_⟩
  · exact sep.flink_setFlink hp he
  · change blink _ e = p
    rw [sep.blink_setFlink hp he, sep.blink_setBlink_ne hq he hqe.symm, sep.blink_setBlink he hp]
  · change flink _ e = q
    rw [sep.flink_setFlink_ne hp he hpe.symm, sep.flink_setBlink hq he, sep.flink_setBlink he he,
      sep.flink_setFlink he hq]
  · exact (sep.blink_setFlink hp hq).trans (sep.blink_setBlink hq he)
  · intro x hx hxp hxe
    rw [sep.flink_setFlink_ne hp hx hxp, sep.flink_setBlink hq hx, sep.flink_setBlink he hx,
      sep.flink_setFlink_ne he hx hxe]
  · intro x hx hxq hxe
    rw [sep.blink_setFlink hp hx, sep.blink_setBlink_ne hq hx hxq, sep.blink_setBlink_ne he hx hxe,
      sep.blink_setFlink he hx]

lemma unlinked_of_set (sep : Separate M S) (hp : S p) (hq : S q) :
    Unlinked S m (setBlink (setFlink m p q) q p) p q where
  joined := ⟨(sep.flink_setBlink hq hp).trans (sep.flink_setFlink hp hq), sep.blink_setBlink hq hp⟩
  flink := fun _ hx hxp => (sep.flink_setBlink hq hx).trans (sep.flink_setFlink_ne hp hx hxp)
  blink := fun _ hx hxq => (sep.blink_setBlink_ne hq hx hxq).trans (sep.blink_setFlink hp hx)

lemma headD_mem_ring (h : L) (ys zs : List L) : zs.headD h ∈ h :: (ys ++ zs) := by
  have := headD_mem h zs
  simp only [List.mem_append, List.mem_cons, List.not_mem_nil, or_false] at this ⊢
  tauto

lemma getLastD_mem_ring (h : L) (ys zs : List L) : ys.getLastD h ∈ h :: (ys ++ zs) := by
  have := getLastD_mem h ys
  simp only [List.mem_append, List.mem_cons] at this ⊢
  tauto

lemma LinkedIn.ring (hl : LinkedIn S m m' (y.getLastD h) e (z.headD h)) (hr : Ring (links m) h (y ++ z))
    (hS : ∀ x ∈ h :: (y ++ z), S x) (he : e ∉ h :: (y ++ z)) : Ring (links m') h (y ++ e :: z) := by
  refine hr.insert he hl.left hl.right ?_ ?_
  · intro x hx hxp
    exact hl.flink x (hS x hx) hxp (fun e' => he (e' ▸ hx))
  · intro x hx hxq
    exact hl.blink x (hS x hx) hxq (fun e' => he (e' ▸ hx))

lemma LinkedIn.same (hl : LinkedIn S m m' (ys.getLastD h) e (zs.headD h)) (hx : S x) (hxe : x ≠ e)
    (hxr : x ∉ h :: (ys ++ zs)) : SameLinks m m' x := by
  refine ⟨hl.flink x hx ?_ hxe, hl.blink x hx ?_ hxe⟩
  · exact fun e' => hxr (e' ▸ getLastD_mem_ring h ys zs)
  · exact fun e' => hxr (e' ▸ headD_mem_ring h ys zs)

lemma Unlinked.ring (hu : Unlinked S m m' (y.getLastD h) (z.headD h)) (hr : Ring (links m) h (y ++ e :: z))
    (hS : ∀ x ∈ h :: (y ++ z), S x) : Ring (links m') h (y ++ z) :=
  hr.remove hu.joined (fun x hx hxp => hu.flink x (hS x hx) hxp)
    (fun x hx hxq => hu.blink x (hS x hx) hxq)

lemma Unlinked.same (hu : Unlinked S m m' (y.getLastD h) (z.headD h)) (hx : S x) (hxr : x ∉ h :: (y ++ z)) :
    SameLinks m m' x := by
  refine ⟨hu.flink x hx ?_, hu.blink x hx ?_⟩
  · exact fun e' => hxr (e' ▸ getLastD_mem_ring h y z)
  · exact fun e' => hxr (e' ▸ headD_mem_ring h y z)

variable (sep : Separate M S)
include sep

lemma insertTailList_ring (hr : Ring (links m) h (y ++ z)) (hS : ∀ x ∈ h :: (y ++ z), S x)
    (he : e ∉ h :: (y ++ z)) (hSe : S e) :
    LinkedIn S m (insertTailList m (z.headD h) e) (y.getLastD h) e (z.headD h) := by
  have hb : blink m (z.headD h) = y.getLastD h := hr.joined.2
  have hl := insertTailList_linkedIn (m := m) (e := e) sep (hS _ (headD_mem_ring h y z))
    (by rw [hb]; exact hS _ (getLastD_mem_ring h y z)) hSe
    (fun e' => he (e' ▸ headD_mem_ring h y z))
    (by rw [hb]; exact fun e' => he (e' ▸ getLastD_mem_ring h y z))
  rwa [hb] at hl

lemma insertHeadList_ring (hr : Ring (links m) h (ys ++ zs)) (hS : ∀ x ∈ h :: (ys ++ zs), S x)
    (he : e ∉ h :: (ys ++ zs)) (hSe : S e) :
    LinkedIn S m (insertHeadList m (ys.getLastD h) e) (ys.getLastD h) e (zs.headD h) := by
  have hf : flink m (ys.getLastD h) = zs.headD h := hr.joined.1
  have hl := insertHeadList_linkedIn (m := m) (e := e) sep (hS _ (getLastD_mem_ring h ys zs))
    (by rw [hf]; exact hS _ (headD_mem_ring h ys zs)) hSe
    (fun e' => he (e' ▸ getLastD_mem_ring h ys zs))
    (by rw [hf]; exact fun e' => he (e' ▸ headD_mem_ring h ys zs))
  rwa [hf] at hl

lemma removeHeadList_ring (hr : Ring (links m) h (e :: z)) (hS : ∀ x ∈ h :: (e :: z), S x) :
    (removeHeadList m h).2 = e ∧ Unlinked S m (removeHeadList m h).1 h (z.headD h) := by
  have h1 : flink m h = e := (Ring.joined (y := []) (z := e :: z) hr).1
  have h2 : flink m e = z.headD h := (Ring.joined (y := [e]) (z := z) hr).1
  have hq : S (z.headD h) := hS _ (headD_mem_ring h [e] z)
  refine ⟨h1, ?_⟩
  have e' : (removeHeadList m h).1 = setBlink (setFlink m h (z.headD h)) (z.headD h) h := by
    simp only [removeHeadList, h1, h2]
  rw [e']
  exact unlinked_of_set sep (hS h (by simp)) hq

lemma removeHeadList_empty (hr : Ring (links m) h []) (hS : S h) :
    (removeHeadList m h).2 = h ∧ ∀ x, S x → SameLinks m (removeHeadList m h).1 x := by
  obtain ⟨h1, h2⟩ := ring_nil_iff.mp hr
  replace h1 : flink m h = h := h1
  replace h2 : blink m h = h := h2
  refine ⟨h1, ?_⟩
  have e' : (removeHeadList m h).1 = setBlink (setFlink m h h) h h := by
    simp only [removeHeadList, h1]
  rw [e']
  have hu := unlinked_of_set (m := m) sep hS hS
  intro x hx
  by_cases hxh : x = h
  · subst hxh
    exact ⟨hu.joined.1.trans h1.symm, hu.joined.2.trans h2.symm⟩
  · exact ⟨hu.flink x hx hxh, hu.blink x hx hxh⟩

lemma removeEntryList_ring [DecidableEq L] (hr : Ring (links m) h (ys ++ e :: zs))
    (hS : ∀ x ∈ h :: (ys ++ zs), S x) : Unlinked S m (removeEntryList m e).1 (ys.getLastD h) (zs.headD h) := by
  have h1 : blink m e = ys.getLastD h := hr.joined.2
  have hr' : Ring (links m) h ((ys ++ [e]) ++ zs) := by simpa using hr
  have h2 : flink m e = zs.headD h := by
    have := hr'.joined.1
    rwa [List.getLastD_concat] at this
  have e' : (removeEntryList m e).1 =
      setBlink (setFlink m (ys.getLastD h) (zs.headD h)) (zs.headD h) (ys.getLastD h) := by
    simp only [removeEntryList, h1, h2]
  rw [e']
  exact unlinked_of_set sep (hS _ (getLastD_mem_ring h ys zs)) (hS _ (headD_mem_ring h ys zs))

end Rings

section ForEach

variable {M L : Type} [LinkMem M L] {f : L → M → Nat × M} {m : M} {h : L} {xs : List L} {fuel : Nat}

/-- Call a function for each of the elements: what the calls return, and the memory behind them. -/
def calls (f : L → M → Nat × M) : List L → M → List Nat × M
  | [], m => ([], m)
  | x :: xs, m => ((f x m).1 :: (calls f xs (f x m).2).1, (calls f xs (f x m).2).2)

/-- The first call that fails is the last one, and its status is returned. -/
def StopsAtFailure (f : L → M → Nat × M) (xs : List L) (m : M) (r : Nat × M) : Prop :=
  (r.2 = (calls f xs m).2 ∧ succeeded r.1 = true ∧ ∀ s ∈ (calls f xs m).1, succeeded s = true) ∨
  ∃ ys x zs, xs = ys ++ x :: zs ∧ (∀ s ∈ (calls f ys m).1, succeeded s = true) ∧
    r = f x (calls f ys m).2 ∧ succeeded r.1 = false

def KeepsRing (f : L → M → Nat × M) (h : L) (xs : List L) : Prop :=
  ∀ x ∈ xs, ∀ m, Ring (links m) h xs → Ring (links (f x m).2) h xs

variable [DecidableEq L]

lemma forEachFrom_eq {zs : List L} (ys : List L) (status : Nat) (hkeep : KeepsRing f h (ys ++ zs))
    (hring : Ring (links m) h (ys ++ zs)) (hfuel : zs.length < fuel) :
    forEachFrom h f false fuel (zs.headD h) status m =
      .ok ((calls f zs m).1.getLastD status, (calls f zs m).2) ∧
    (succeeded status = true → ∃ r, forEachFrom h f true fuel (zs.headD h) status m = .ok r ∧
      StopsAtFailure f zs m r) := by
  induction zs generalizing ys m status fuel with
  | nil =>
    obtain ⟨fuel, rfl⟩ := Nat.exists_eq_add_of_lt hfuel
    rw [forEachFrom, forEachFrom, List.headD_nil, if_pos rfl, if_pos rfl]
    exact ⟨rfl, fun hs => ⟨_, rfl, .inl ⟨rfl, hs, by simp [calls]⟩⟩⟩
  | cons x zs ih =>
    obtain ⟨fuel, rfl⟩ : ∃ k, fuel = k + 1 := ⟨fuel - 1, by omega⟩
    have hx : x ≠ h := fun heq => (List.nodup_cons.mp hring.nodup).1 (heq ▸ by simp)
    have hring' := hkeep x (by simp) m hring
    rw [List.append_cons] at hkeep hring'
    have hnext : flink (f x m).2 x = zs.headD h := by
      have := hring'.joined.1
      rwa [List.getLastD_concat] at this
    obtain ⟨hany, hall⟩ := ih (ys ++ [x]) (f x m).1 hkeep hring' (by simpa using hfuel)
    rw [forEachFrom, forEachFrom, List.headD_cons, if_neg hx, if_neg hx]
    dsimp only
    rw [hnext, Bool.false_and, if_neg Bool.false_ne_true, hany, Bool.true_and]
    refine ⟨by rw [calls, List.getLastD_cons], fun _ => ?_⟩
    by_cases hs : succeeded (f x m).1 = true
    · obtain ⟨r, hr, hstop⟩ := hall hs
      rw [hs, Bool.not_true, if_neg Bool.false_ne_true]
      refine ⟨r, hr, ?_⟩
      obtain ⟨hmem, hok, hgood⟩ | ⟨us, y, vs, rfl, hgood, hcall, hfail⟩ := hstop
      · exact .inl ⟨hmem, hok, List.forall_mem_cons.mpr ⟨hs, hgood⟩⟩
      · exact .inr ⟨x :: us, y, vs, rfl, List.forall_mem_cons.mpr ⟨hs, hgood⟩, hcall, hfail⟩
    · rw [Bool.not_eq_true] at hs
      rw [hs, Bool.not_false, if_pos rfl]
      exact ⟨_, rfl, .inr ⟨[], x, zs, rfl, by simp [calls], rfl, hs⟩⟩

/-- If all calls must succeed, the first failure is returned. Otherwise there is a call for every element, and the
    result says whether one of them has succeeded if and only if not only others than the last have. -/
theorem forEachElementExecute_any_iff (hkeep : KeepsRing f h xs) (hring : Ring (links m) h xs)
    (hfuel : xs.length < fuel) :
    (∃ r, forEachElementExecute fuel m h f true = .ok r ∧ StopsAtFailure f xs m r) ∧
    ∃ status, forEachElementExecute fuel m h f false = .ok (status, (calls f xs m).2) ∧
      ((succeeded status = true ↔ xs = [] ∨ ∃ s ∈ (calls f xs m).1, succeeded s = true) ↔
        ((∃ s ∈ (calls f xs m).1, succeeded s = true) → ∃ s ∈ (calls f xs m).1.getLast?, succeeded s = true)) := by
  have hhead : flink m h = xs.headD h := (Ring.joined (y := []) hring).1
  obtain ⟨hany, hall⟩ := forEachFrom_eq [] 0 hkeep hring hfuel
  rw [forEachElementExecute, forEachElementExecute, hhead]
  refine ⟨hall rfl, _, hany, ?_⟩
  cases xs with
  | nil => simp [calls, succeeded]
  | cons x xs =>
    generalize hss : (calls f (x :: xs) m).1 = ss
    have hne : ss ≠ [] := by
      rw [← hss]
      exact List.cons_ne_nil _ _
    rw [List.getLastD_eq_getLast?, List.getLast?_eq_some_getLast hne]
    have hlast := List.getLast_mem hne
    simp only [Option.getD_some, reduceCtorEq, false_or, Option.mem_some_iff, exists_eq_left']
    exact ⟨fun hiff hsome => hiff.mpr hsome, fun hlast' => ⟨fun hs => ⟨_, hlast, hs⟩, hlast'⟩⟩

def twoLinks : Links Nat := ⟨fun x => (x + 1) % 3, fun x => (x + 2) % 3⟩

def failsFor (y x : Nat) (m : Links Nat) : Nat × Links Nat := (if x = y then 1 <<< 31 else 0, m)

/-- The call for the first element fails. -/
theorem forEachElementExecute_any_last :
    ∃ status, forEachElementExecute 3 twoLinks 0 (failsFor 1) false = .ok (status, twoLinks) ∧
      (succeeded status = true ↔ [1, 2] = [] ∨ ∃ s ∈ [1 <<< 31, 0], succeeded s = true) := by
  have hring : Ring (links twoLinks) 0 [1, 2] := by decide
  obtain ⟨-, status, hrun, hiff⟩ := forEachElementExecute_any_iff (f := failsFor 1) (fun _ _ _ hring => hring) hring
    (show [1, 2].length < 3 by decide)
  exact ⟨status, hrun, hiff.mpr fun _ => ⟨0, rfl, rfl⟩⟩

/-- The call for the first element succeeds, but the status of the last one is returned. -/
theorem forEachElementExecute_forgets :
    forEachElementExecute 3 twoLinks 0 (failsFor 2) false = .ok (1 <<< 31, twoLinks) ∧
      (calls (failsFor 2) [1, 2] twoLinks).1 = [0, 1 <<< 31] ∧ Ring twoLinks 0 [1, 2] ∧
      succeeded 0 = true ∧ succeeded (1 <<< 31) = false := by
  refine ⟨rfl, rfl, by decide, rfl, rfl⟩

end ForEach

end HAL9000
