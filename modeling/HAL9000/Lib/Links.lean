import Mathlib.Data.List.Chain

/-!
# Doubly linked rings

`Links L` gives every node its forward and backward link. `Ring l h xs` says that the nodes `xs` form
a ring with the head `h`: following the forward links from `h` one meets `xs` and comes back to `h`,
the backward links are the inverse, and no node occurs twice.

A ring is changed in one of two ways, by a node that goes in between two neighbours (`Ring.insert`)
and by a node that leaves (`Ring.remove`). Both are stated over the links before and after, so that
they apply however the links are stored. `Ring.congr` is the frame rule.
-/

namespace Lib
open List

structure Links (L : Type) where
  flink : L → L
  blink : L → L

variable {L : Type} {l l' : Links L} {h : L}

def Links.Joined (l : Links L) (x y : L) : Prop := l.flink x = y ∧ l.blink y = x

def Links.Path (l : Links L) (c : List L) : Prop := List.IsChain l.Joined c

structure Ring (l : Links L) (h : L) (xs : List L) : Prop where
  path : l.Path (h :: (xs ++ [h]))
  nodup : (h :: xs).Nodup

instance [DecidableEq L] : DecidableRel l.Joined := fun x y =>
  inferInstanceAs (Decidable (l.flink x = y ∧ l.blink y = x))

instance [DecidableEq L] (h : L) (xs : List L) : Decidable (Ring l h xs) :=
  decidable_of_iff (List.IsChain l.Joined (h :: (xs ++ [h])) ∧ (h :: xs).Nodup)
    ⟨fun hr => ⟨hr.1, hr.2⟩, fun hr => ⟨hr.path, hr.nodup⟩⟩

lemma Links.Path.congr {c : List L} (hp : l.Path c) (hf : ∀ x ∈ c.dropLast, l'.flink x = l.flink x)
    (hb : ∀ y ∈ c.tail, l'.blink y = l.blink y) : l'.Path c := by
  induction c with
  | nil => exact List.IsChain.nil
  | cons x c ih =>
    cases c with
    | nil => exact List.IsChain.singleton x
    | cons y c =>
      obtain ⟨⟨h1, h2⟩, hp⟩ := List.isChain_cons_cons.mp hp
      refine List.isChain_cons_cons.mpr ⟨⟨?_, ?_⟩, ih hp ?_ ?_⟩
      · rw [hf x (by simp), h1]
      · rw [hb y (by simp), h2]
      · intro z hz
        exact hf z (by simp [hz])
      · intro z hz
        exact hb z (mem_cons_of_mem _ hz)

lemma Ring.congr {xs : List L} (hr : Ring l h xs)
    (hs : ∀ x ∈ h :: xs, l'.flink x = l.flink x ∧ l'.blink x = l.blink x) : Ring l' h xs := by
  refine ⟨hr.path.congr ?_ ?_, hr.nodup⟩
  · intro x hx
    rw [← cons_append, dropLast_concat] at hx
    exact (hs x hx).1
  · intro x hx
    refine (hs x ?_).2
    simpa [or_comm] using hx

lemma ring_nil_iff : Ring l h [] ↔ l.flink h = h ∧ l.blink h = h := by
  constructor
  · intro hr
    exact (List.isChain_cons_cons.mp hr.path).1
  · intro hj
    exact ⟨List.isChain_cons_cons.mpr ⟨hj, List.IsChain.singleton h⟩, by simp⟩

section Position

/-! A place in the ring `h, ys ++ zs` lies between `ys.getLastD h` and `zs.headD h`. -/

variable {h e : L} {ys zs : List L}

lemma dropLast_append_getLastD (h : L) (ys : List L) : (h :: ys).dropLast ++ [ys.getLastD h] = h :: ys := by
  rw [← getLast_eq_getLastD (cons_ne_nil h ys), dropLast_concat_getLast]

lemma headD_cons_tail (h : L) (zs : List L) : zs.headD h :: (zs ++ [h]).tail = zs ++ [h] := by
  cases zs <;> rfl

lemma Ring.path_iff : l.Path (h :: ((ys ++ zs) ++ [h])) ↔
    l.Path (h :: ys) ∧ l.Joined (ys.getLastD h) (zs.headD h) ∧ l.Path (zs ++ [h]) := by
  have e : h :: ((ys ++ zs) ++ [h]) =
      (h :: ys).dropLast ++ ys.getLastD h :: zs.headD h :: (zs ++ [h]).tail := by
    rw [headD_cons_tail, append_cons (h :: ys).dropLast, dropLast_append_getLastD]
    simp
  unfold Links.Path
  rw [e, isChain_append_cons_cons, dropLast_append_getLastD, headD_cons_tail]

lemma Ring.joined {y z : List L} (hr : Ring l h (y ++ z)) : l.Joined (y.getLastD h) (z.headD h) :=
  (Ring.path_iff.mp hr.path).2.1

lemma getLastD_mem (h : L) (ys : List L) : ys.getLastD h ∈ h :: ys := by
  rw [← getLast_eq_getLastD (cons_ne_nil h ys)]
  exact getLast_mem (cons_ne_nil h ys)

lemma headD_mem (h : L) (zs : List L) : zs.headD h ∈ zs ++ [h] := by
  rw [← headD_cons_tail]
  exact mem_cons_self

lemma halves_congr (hnd : (h :: (ys ++ zs)).Nodup) (hleft : l.Path (h :: ys)) (hright : l.Path (zs ++ [h]))
    (hf : ∀ x ∈ h :: (ys ++ zs), x ≠ ys.getLastD h → l'.flink x = l.flink x)
    (hb : ∀ x ∈ h :: (ys ++ zs), x ≠ zs.headD h → l'.blink x = l.blink x) :
    l'.Path (h :: ys) ∧ l'.Path (zs ++ [h]) := by
  obtain ⟨hnd1, hndz, hdisj⟩ := List.nodup_append.mp (show ((h :: ys) ++ zs).Nodup by simpa using hnd)
  have hnd2 : (zs ++ [h]).Nodup := by
    refine List.nodup_append.mpr ⟨hndz, by simp, ?_⟩
    rintro x hx y hy rfl
    rw [mem_singleton] at hy
    exact hdisj h mem_cons_self x hx hy.symm
  refine ⟨hleft.congr ?_ ?_, hright.congr ?_ ?_⟩
  · intro x hx
    refine hf x ?_ ?_
    · have := dropLast_subset _ hx
      simp only [mem_cons, mem_append] at this ⊢
      tauto
    · rintro rfl
      rw [← dropLast_append_getLastD] at hnd1
      exact (List.nodup_append.mp hnd1).2.2 _ hx _ (by simp) rfl
  · intro y hy
    have hy : y ∈ ys := hy
    refine hb y (by simp [hy]) ?_
    rintro rfl
    rcases List.mem_append.mp (headD_mem h zs) with hz | hz
    · exact hdisj _ (mem_cons_of_mem _ hy) _ hz rfl
    · rw [mem_singleton] at hz
      rw [hz] at hy
      exact (List.nodup_cons.mp hnd1).1 hy
  · intro x hx
    rw [dropLast_concat] at hx
    refine hf x (by simp [hx]) ?_
    rintro rfl
    exact hdisj _ (getLastD_mem h ys) _ hx rfl
  · intro y hy
    refine hb y ?_ ?_
    · have := mem_of_mem_tail hy
      simp only [mem_cons, mem_append, not_mem_nil, or_false] at this ⊢
      tauto
    · rintro rfl
      rw [← headD_cons_tail] at hnd2
      exact (List.nodup_cons.mp hnd2).1 hy

/-- A node that goes in at a place of the ring. -/
theorem Ring.insert (hr : Ring l h (ys ++ zs)) (he : e ∉ h :: (ys ++ zs))
    (h1 : l'.Joined (ys.getLastD h) e) (h2 : l'.Joined e (zs.headD h))
    (hf : ∀ x ∈ h :: (ys ++ zs), x ≠ ys.getLastD h → l'.flink x = l.flink x)
    (hb : ∀ x ∈ h :: (ys ++ zs), x ≠ zs.headD h → l'.blink x = l.blink x) :
    Ring l' h (ys ++ e :: zs) := by
  obtain ⟨hl, _, hr'⟩ := Ring.path_iff.mp hr.path
  obtain ⟨hleft, hright⟩ := halves_congr hr.nodup hl hr' hf hb
  refine ⟨Ring.path_iff.mpr ⟨hleft, h1, ?_⟩, ?_⟩
  · unfold Links.Path at hright ⊢
    rw [← headD_cons_tail] at hright
    rw [cons_append, ← headD_cons_tail]
    exact List.isChain_cons_cons.mpr ⟨h2, hright⟩
  · have hperm : (h :: (ys ++ e :: zs)).Perm (e :: h :: (ys ++ zs)) := by
      rw [← cons_append, ← cons_append]
      exact perm_middle
    exact hperm.nodup_iff.mpr (List.nodup_cons.mpr ⟨he, hr.nodup⟩)

/-- A node that leaves the ring. -/
theorem Ring.remove (hr : Ring l h (ys ++ e :: zs)) (h1 : l'.Joined (ys.getLastD h) (zs.headD h))
    (hf : ∀ x ∈ h :: (ys ++ zs), x ≠ ys.getLastD h → l'.flink x = l.flink x)
    (hb : ∀ x ∈ h :: (ys ++ zs), x ≠ zs.headD h → l'.blink x = l.blink x) :
    Ring l' h (ys ++ zs) := by
  obtain ⟨hl, _, hr'⟩ := Ring.path_iff.mp hr.path
  have hright : l.Path (zs ++ [h]) := by
    rw [cons_append, ← headD_cons_tail] at hr'
    rw [← headD_cons_tail]
    exact (List.isChain_cons_cons.mp hr').2
  have hnd : (h :: (ys ++ zs)).Nodup := by
    refine List.Nodup.sublist ?_ hr.nodup
    exact List.Sublist.cons_cons h (List.Sublist.append_left (sublist_cons_self e zs) ys)
  obtain ⟨hleft, hright⟩ := halves_congr hnd hl hright hf hb
  exact ⟨Ring.path_iff.mpr ⟨hleft, h1, hright⟩, hnd⟩

end Position

end Lib
