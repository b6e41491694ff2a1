import Mathlib.Data.Nat.Bitwise
import Mathlib.Tactic.Common

/-!
# Machine words as naturals

Fixed-width unsigned arithmetic on `Nat`: `wadd`/`wsub` wrap around at `2 ^ w`, `wnot` is the
bitwise complement. The lemmas say when the wrap-around does not show, and what masking with a
complement does.
-/

namespace Lib

/-- Addition that wraps around at `2 ^ w`. -/
def wadd (w a b : Nat) : Nat := (a + b) % 2 ^ w

/-- Subtraction that wraps around at `2 ^ w`. -/
def wsub (w a b : Nat) : Nat := (a + (2 ^ w - b % 2 ^ w)) % 2 ^ w

/-- A `w`-bit word as a signed number. -/
def sint (w a : Nat) : Int := if a < 2 ^ (w - 1) then a else (a : Int) - 2 ^ w

/-- The complement of a `w`-bit word. -/
def wnot (w a : Nat) : Nat := 2 ^ w - 1 - a

lemma wadd_lt (w a b : Nat) : wadd w a b < 2 ^ w := Nat.mod_lt _ (Nat.two_pow_pos w)

lemma wsub_lt (w a b : Nat) : wsub w a b < 2 ^ w := Nat.mod_lt _ (Nat.two_pow_pos w)

lemma wadd_eq {w a b : Nat} (h : a + b < 2 ^ w) : wadd w a b = a + b := Nat.mod_eq_of_lt h

lemma wsub_eq {w a b : Nat} (ha : a < 2 ^ w) (h : b ≤ a) : wsub w a b = a - b := by
  unfold wsub
  have hb : b % 2 ^ w = b := Nat.mod_eq_of_lt (by omega)
  rw [hb, show a + (2 ^ w - b) = (a - b) + 2 ^ w by omega, Nat.add_mod_right]
  exact Nat.mod_eq_of_lt (by omega)

lemma and_wnot_add_and {w a m : Nat} (ha : a < 2 ^ w) (hm : m < 2 ^ w) : (a &&& wnot w m) + (a &&& m) = a := by
  -- the two parts have no bit in common, so their sum is their union
  have hz : (BitVec.ofNat w a &&& ~~~ BitVec.ofNat w m) &&& (BitVec.ofNat w a &&& BitVec.ofNat w m)
      = 0#w := by
    ext i hi
    simp only [BitVec.getElem_and, BitVec.getElem_not, BitVec.getElem_zero]
    cases (BitVec.ofNat w a)[i] <;> cases (BitVec.ofNat w m)[i] <;> rfl
  have hu : (BitVec.ofNat w a &&& ~~~ BitVec.ofNat w m) ||| (BitVec.ofNat w a &&& BitVec.ofNat w m)
      = BitVec.ofNat w a := by
    ext i hi
    simp only [BitVec.getElem_and, BitVec.getElem_not, BitVec.getElem_or]
    cases (BitVec.ofNat w a)[i] <;> cases (BitVec.ofNat w m)[i] <;> rfl
  have h := BitVec.toNat_add_of_and_eq_zero hz
  rw [BitVec.add_eq_or_of_and_eq_zero _ _ hz, hu] at h
  simpa [wnot, Nat.mod_eq_of_lt ha, Nat.mod_eq_of_lt hm] using h.symm

lemma and_wnot_le {w a m : Nat} (ha : a < 2 ^ w) (hm : m < 2 ^ w) :
    a &&& wnot w m ≤ a ∧ a ≤ (a &&& wnot w m) + m := by
  have h := and_wnot_add_and ha hm
  have hl : a &&& m ≤ m := Nat.and_le_right
  omega

lemma and_wnot_two_pow {w a k : Nat} (ha : a < 2 ^ w) (hk : k ≤ w) :
    a &&& wnot w (2 ^ k - 1) = a / 2 ^ k * 2 ^ k := by
  have hp : 2 ^ k ≤ 2 ^ w := Nat.pow_le_pow_right (by omega) hk
  have h0 : 0 < 2 ^ k := Nat.two_pow_pos k
  have h := and_wnot_add_and (m := 2 ^ k - 1) ha (by omega)
  rw [Nat.and_two_pow_sub_one_eq_mod] at h
  have hdm := Nat.div_add_mod' a (2 ^ k)
  omega

end Lib
