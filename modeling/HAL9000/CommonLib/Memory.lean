import HAL9000.Lib.Word

/-!
# Byte buffers

Port of the functions of `CommonLib/src/cl_memory.c` that the modelled code uses. A pointer is
followed by the bytes from its address on, so it is a function from offsets to bytes. The buffers are
real ones: the checks for `NULL` are left out.
-/

namespace HAL9000
open Lib

/-- The loop of `cl_rmemcmp`, over the bytes below `i`. -/
def rmemcmpBelow (p1 p2 : Nat → UInt8) : Nat → Int
  | 0 => 0
  | i + 1 => if p1 i ≠ p2 i then (p1 i).toNat - (p2 i).toNat else rmemcmpBelow p1 p2 i

/-- Compare two buffers, starting with the last byte; `size - 1` is a `DWORD` (C `cl_rmemcmp`). -/
def clRmemcmp (ptr1 ptr2 : Nat → UInt8) (size : Nat) : Int := rmemcmpBelow ptr1 ptr2 (wsub 32 size 1 + 1)

/-- The number of bytes at the start of a buffer that are `value` (C `cl_memscan`). -/
def clMemscan (buffer : Nat → UInt8) (size : Nat) (value : UInt8) : Nat :=
  ((List.range size).takeWhile fun i => buffer i = value).length

/-- The first `n` bytes of a buffer. -/
def bytes (n : Nat) (p : Nat → UInt8) : List UInt8 := (List.range n).map p

lemma clMemscan_eq_size {p : Nat → UInt8} {n : Nat} {v : UInt8} (h : clMemscan p n v = n) : ∀ i < n, p i = v := by
  intro i hi
  have hsub := List.takeWhile_prefix (l := List.range n) fun i => decide (p i = v)
  have heq := hsub.eq_of_length (by rw [List.length_range]; exact h)
  have hall := List.all_takeWhile (l := List.range n) (p := fun i => decide (p i = v))
  rw [heq, List.all_eq_true] at hall
  exact of_decide_eq_true (hall i (List.mem_range.mpr hi))

section Compare

variable {p q r : Nat → UInt8} {n i : Nat}

lemma bytes_eq_iff : bytes n p = bytes n q ↔ ∀ i < n, p i = q i := by
  simp [bytes]

lemma clRmemcmp_eq (h0 : 0 < n) (hn : n < 2 ^ 32) : clRmemcmp p q n = rmemcmpBelow p q n := by
  rw [clRmemcmp, wsub_eq hn h0, Nat.sub_add_cancel h0]

lemma rmemcmpBelow_congr {p' q' : Nat → UInt8} (hp : ∀ i < n, p' i = p i) (hq : ∀ i < n, q' i = q i) :
    rmemcmpBelow p' q' n = rmemcmpBelow p q n := by
  induction n with
  | zero => rfl
  | succ n ih =>
    rw [rmemcmpBelow, rmemcmpBelow, hp n (by omega), hq n (by omega),
      ih (fun i hi => hp i (by omega)) fun i hi => hq i (by omega)]

lemma rmemcmpBelow_eq_zero : rmemcmpBelow p q n = 0 ↔ bytes n p = bytes n q := by
  rw [bytes_eq_iff]
  induction n with
  | zero => simp [rmemcmpBelow]
  | succ n ih =>
    have hb : (p n).toNat = (q n).toNat ↔ p n = q n := UInt8.toNat_inj
    rw [rmemcmpBelow]
    split
    · next hne =>
      refine iff_of_false ?_ fun h => hne (h n (by omega))
      intro h
      exact hne (hb.mp (by omega))
    · next heq =>
      rw [ih]
      refine ⟨fun h i hi => ?_, fun h i hi => h i (by omega)⟩
      by_cases hin : i = n
      · subst hin
        exact not_not.mp heq
      · exact h i (by omega)

lemma rmemcmpBelow_swap : rmemcmpBelow q p n = - rmemcmpBelow p q n := by
  induction n with
  | zero => rfl
  | succ n ih =>
    rw [rmemcmpBelow, rmemcmpBelow]
    by_cases h : p n = q n
    · rw [if_neg (not_not.mpr h.symm), if_neg (not_not.mpr h), ih]
    · rw [if_pos (Ne.symm h), if_pos h]
      omega

lemma rmemcmpBelow_trans (h1 : rmemcmpBelow p q n < 0) (h2 : rmemcmpBelow q r n < 0) : rmemcmpBelow p r n < 0 := by
  induction n with
  | zero => exact h1
  | succ n ih =>
    rw [rmemcmpBelow] at h1 h2 ⊢
    split at h1
    · next hpq =>
      split at h2
      · rw [if_pos]
        · omega
        · intro h
          rw [h] at h1
          omega
      · next hqr =>
        rw [← not_not.mp hqr, if_pos hpq]
        exact h1
    · next hpq =>
      rw [not_not.mp hpq]
      split at h2
      · next hqr =>
        rw [if_pos hqr]
        exact h2
      · next hqr =>
        rw [if_neg hqr]
        exact ih h1 h2

end Compare

end HAL9000
