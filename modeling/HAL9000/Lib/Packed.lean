import Mathlib.Algebra.BigOperators.Group.List.Basic
import Mathlib.Algebra.Ring.Nat
import Mathlib.Tactic.Common

/-!
# Intervals in a row

A list of things that take up an interval each, from `start` to `stop`, in a row between `lo` and `hi`
without overlaps: `Packed start stop lo hi es`. A place in the row, between the things `ys` and `zs`,
is the space from `lastStop stop lo ys` to `firstStart start hi zs`. Something that fits there may be
put there, and anything may be taken out.
-/

namespace Lib

section Defs

variable {E : Type} (start stop : E → Nat)

/-- Things in a row between `lo` and `hi`. -/
def Packed (lo hi : Nat) : List E → Prop
  | [] => lo ≤ hi
  | e :: es => lo ≤ start e ∧ start e ≤ stop e ∧ Packed (stop e) hi es

def lastStop (lo : Nat) : List E → Nat
  | [] => lo
  | e :: es => lastStop (stop e) es

def firstStart (hi : Nat) : List E → Nat
  | [] => hi
  | e :: _ => start e

def taken (es : List E) : Nat := (es.map fun e => stop e - start e).sum

end Defs

variable {E : Type} {start stop : E → Nat} {lo hi : Nat} {e f : E} {es ys zs : List E}

lemma Packed.le (h : Packed start stop lo hi es) : lo ≤ hi := by
  induction es generalizing lo with
  | nil => exact h
  | cons e es ih =>
    obtain ⟨h1, h2, h3⟩ := h
    have := ih h3
    omega

lemma packed_append : Packed start stop lo hi (ys ++ zs) ↔
    Packed start stop lo (lastStop stop lo ys) ys ∧ Packed start stop (lastStop stop lo ys) hi zs := by
  induction ys generalizing lo with
  | nil => exact ⟨fun h => ⟨(Nat.le_refl _), h⟩, fun h => h.2⟩
  | cons y ys ih =>
    simp only [List.cons_append, Packed, lastStop]
    rw [ih]
    tauto

lemma lastStop_concat : lastStop stop lo (es ++ [e]) = stop e := by
  induction es generalizing lo with
  | nil => rfl
  | cons y ys ih => exact ih

lemma lastStop_append_cons : lastStop stop lo (ys ++ e :: zs) = lastStop stop (stop e) zs := by
  induction ys generalizing lo with
  | nil => rfl
  | cons y ys ih => exact ih

lemma lastStop_append : lastStop stop lo (ys ++ zs) = lastStop stop (lastStop stop lo ys) zs := by
  induction ys generalizing lo with
  | nil => rfl
  | cons y ys ih => exact ih

lemma Packed.le_firstStart (h : Packed start stop lo hi es) : lo ≤ firstStart start hi es := by
  cases es with
  | nil => exact h
  | cons e es => exact h.1

lemma Packed.bound (h : Packed start stop lo hi (ys ++ zs)) : firstStart start hi zs ≤ hi := by
  have hz := (packed_append.mp h).2
  cases zs with
  | nil => exact Nat.le_refl _
  | cons e zs =>
    have := hz.2.2.le
    have := hz.2.1
    simp only [firstStart]
    omega

lemma Packed.shrink (h : Packed start stop lo hi es) : Packed start stop lo (lastStop stop lo es) es := by
  rw [← List.append_nil es] at h
  exact (packed_append.mp h).1

lemma Packed.widen {a b : Nat} (h : Packed start stop lo hi es) (hlo : a ≤ firstStart start b es)
    (hhi : hi ≤ b) : Packed start stop a b es := by
  induction es generalizing lo a with
  | nil => exact hlo
  | cons e es ih =>
    refine ⟨hlo, h.2.1, ih h.2.2 ?_⟩
    cases es with
    | nil => exact Nat.le_trans h.2.2 hhi
    | cons f es => exact h.2.2.1

lemma Packed.insert {y z : List E} (h : Packed start stop lo hi (y ++ z)) (h1 : lastStop stop lo y ≤ start e)
    (h2 : start e ≤ stop e) (h3 : stop e ≤ firstStart start hi z) :
    Packed start stop lo hi (y ++ e :: z) := by
  obtain ⟨hy, hz⟩ := packed_append.mp h
  exact packed_append.mpr ⟨hy, h1, h2, hz.widen h3 (Nat.le_refl _)⟩

lemma Packed.remove (h : Packed start stop lo hi (ys ++ e :: zs)) : Packed start stop lo hi (ys ++ zs) := by
  obtain ⟨hy, h1, h2, hz⟩ := packed_append.mp h
  refine packed_append.mpr ⟨hy, hz.widen ?_ (Nat.le_refl _)⟩
  have := hz.le_firstStart
  omega

lemma Packed.mem (h : Packed start stop lo hi es) (he : e ∈ es) :
    lo ≤ start e ∧ start e ≤ stop e ∧ stop e ≤ hi := by
  obtain ⟨ys, zs, rfl⟩ := List.append_of_mem he
  obtain ⟨hy, h1, h2, hz⟩ := packed_append.mp h
  have := hy.le
  have := hz.le
  exact ⟨by omega, h2, by omega⟩

lemma Packed.beside (h : Packed start stop lo hi (ys ++ e :: zs)) (hf : f ∈ ys ++ zs) :
    stop e ≤ start f ∨ stop f ≤ start e := by
  obtain ⟨hy, h1, h2, hz⟩ := packed_append.mp h
  rcases List.mem_append.mp hf with hf | hf
  · have := (hy.mem hf).2.2
    exact .inr (by omega)
  · exact .inl (hz.mem hf).1

lemma Packed.disjoint (h : Packed start stop lo hi es) (he : e ∈ es) (hf : f ∈ es) (hne : e ≠ f) :
    stop e ≤ start f ∨ stop f ≤ start e := by
  obtain ⟨ys, zs, rfl⟩ := List.append_of_mem he
  refine h.beside ?_
  rw [List.mem_append, List.mem_cons] at hf
  rw [List.mem_append]
  tauto

lemma Packed.pairwise (h : Packed start stop lo hi es) : es.Pairwise (fun a b => stop a ≤ start b) := by
  induction es generalizing lo with
  | nil => exact List.Pairwise.nil
  | cons e es ih => exact List.pairwise_cons.mpr ⟨fun f hf => (h.2.2.mem hf).1, ih h.2.2⟩

lemma taken_append : taken start stop (ys ++ zs) = taken start stop ys + taken start stop zs := by
  simp [taken]

lemma taken_cons : taken start stop (e :: zs) = (stop e - start e) + taken start stop zs := by
  simp [taken]

lemma Packed.taken_le (h : Packed start stop lo hi es) : lo + taken start stop es ≤ hi := by
  induction es generalizing lo with
  | nil => simpa [taken, Packed] using h
  | cons e es ih =>
    obtain ⟨h1, h2, h3⟩ := h
    have := ih h3
    rw [taken_cons]
    omega

lemma Packed.space_le (h : Packed start stop lo hi (ys ++ zs)) :
    firstStart start hi zs - lastStop stop lo ys + taken start stop (ys ++ zs) + lo ≤ hi := by
  obtain ⟨hy, hz⟩ := packed_append.mp h
  have h1 := hy.taken_le
  have h2 := hz.le_firstStart
  have h3 : firstStart start hi zs + taken start stop zs ≤ hi :=
    (hz.widen (a := firstStart start hi zs) (Nat.le_refl _) (Nat.le_refl _)).taken_le
  rw [taken_append]
  omega

end Lib
