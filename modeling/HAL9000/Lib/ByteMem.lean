import Mathlib.Algebra.Ring.Nat
import Mathlib.Tactic.Common

/-!
# Byte memory

A memory is a function from addresses to bytes. `readLE` and `writeLE` access little-endian numbers of
a given width, `fill` stores one byte over a range, `copyTo` the bytes of a buffer. `Within W m m'` says
that `m'` differs from `m` in the bytes of the window `W` only. A read sees the last write of its own bytes, and
nothing of a change in a window it does not meet.
-/

namespace Lib

abbrev Mem := Nat → UInt8

/-- The little-endian number in the `n` bytes at `a`. -/
def readLE (m : Mem) (a : Nat) : Nat → Nat
  | 0 => 0
  | n + 1 => (m a).toNat + 256 * readLE m (a + 1) n

/-- Store `v` in the `n` bytes at `a`, little-endian. -/
def writeLE (m : Mem) (a n v : Nat) : Mem :=
  fun x => if a ≤ x ∧ x < a + n then UInt8.ofNat (v / 256 ^ (x - a)) else m x

/-- Store `b` in the `n` bytes at `a`. -/
def fill (m : Mem) (a n : Nat) (b : UInt8) : Mem :=
  fun x => if a ≤ x ∧ x < a + n then b else m x

/-- Store the first `n` bytes of a buffer at `a`. -/
def copyTo (m : Mem) (a n : Nat) (p : Mem) : Mem :=
  fun x => if a ≤ x ∧ x < a + n then p (x - a) else m x

def Span (a n x : Nat) : Prop := a ≤ x ∧ x < a + n

def Within (W : Nat → Prop) (m m' : Mem) : Prop := ∀ x, ¬ W x → m' x = m x

variable {m m' m'' p : Mem} {W W' : Nat → Prop} {a n v : Nat} {b : UInt8}

lemma Span.mono {c k x : Nat} (h : Span c k x) (ha : a ≤ c) (hn : c + k ≤ a + n) : Span a n x :=
  ⟨Nat.le_trans ha h.1, Nat.lt_of_lt_of_le h.2 hn⟩

lemma writeLE_within : Within (Span a n) m (writeLE m a n v) := fun _ hx => if_neg hx

lemma fill_within : Within (Span a n) m (fill m a n b) := fun _ hx => if_neg hx

lemma copyTo_within : Within (Span a n) m (copyTo m a n p) := fun _ hx => if_neg hx

lemma Within.refl (W : Nat → Prop) (m : Mem) : Within W m m := fun _ _ => rfl

lemma Within.mono {V : Nat → Prop} (h : Within W m m') (hW : ∀ x, W x → V x) : Within V m m' :=
  fun x hx => h x fun hw => hx (hW x hw)

lemma Within.trans (h : Within W m m') (h' : Within W m' m'') : Within W m m'' :=
  fun x hx => (h' x hx).trans (h x hx)

lemma Within.write (h : Within W m m') (hW : ∀ x, Span a n x → W x) : Within W m (writeLE m' a n v) :=
  h.trans (writeLE_within.mono hW)

lemma readLE_congr (h : ∀ x, Span a n x → m' x = m x) : readLE m' a n = readLE m a n := by
  induction n generalizing a with
  | zero => rfl
  | succ n ih =>
    have h0 := h a ⟨le_rfl, by omega⟩
    have h1 := ih (a := a + 1) fun x hx => h x (hx.mono (by omega) (by omega))
    rw [readLE, readLE, h0, h1]

lemma Within.readLE (h : Within W m m') (hd : ∀ x, Span a n x → ¬ W x) : Lib.readLE m' a n = Lib.readLE m a n :=
  readLE_congr fun x hx => h x (hd x hx)

lemma readLE_shift (m : Mem) (a b n : Nat) : readLE (fun i => m (a + i)) b n = readLE m (a + b) n := by
  induction n generalizing b with
  | zero => rfl
  | succ n ih => rw [readLE, readLE, ih, Nat.add_assoc]

/-- A copy of a copy is one copy. -/
lemma copyTo_copyTo {b w : Nat} (h : b + w ≤ n) :
    copyTo m a n (copyTo (fun i => m (a + i)) b w p) = copyTo m (a + b) w p := by
  funext x
  unfold copyTo
  by_cases hx : a ≤ x ∧ x < a + n
  · rw [if_pos hx]
    by_cases hw : a + b ≤ x ∧ x < a + b + w
    · rw [if_pos hw, if_pos (by omega), Nat.sub_sub]
    · rw [if_neg hw, if_neg (by omega)]
      exact congrArg m (Nat.add_sub_cancel' hx.1)
  · rw [if_neg hx, if_neg (by omega)]

/-- A number stored in a copy. -/
lemma copyTo_writeLE {b w : Nat} (h : b + w ≤ n) :
    copyTo m a n (writeLE (fun i => m (a + i)) b w v) = writeLE m (a + b) w v :=
  copyTo_copyTo (p := fun i => UInt8.ofNat (v / 256 ^ i)) h

lemma readLE_lt (m : Mem) (a n : Nat) : readLE m a n < 256 ^ n := by
  induction n generalizing a with
  | zero => exact Nat.one_pos
  | succ n ih =>
    have h0 := (m a).toNat_lt
    have h1 := ih (a + 1)
    rw [readLE, Nat.pow_succ]
    omega

lemma readLE_writeLE (m : Mem) (a : Nat) (h : v < 256 ^ n) : readLE (writeLE m a n v) a n = v := by
  -- the bytes from position `i` on make up what is left of the number
  suffices gen : ∀ k i, i + k = n → readLE (writeLE m a n v) (a + i) k = v / 256 ^ i by
    simpa using gen n 0 (by omega)
  intro k
  induction k with
  | zero =>
    intro i hi
    rw [readLE, Nat.div_eq_of_lt]
    simpa [← hi] using h
  | succ k ih =>
    intro i hi
    have hb : writeLE m a n v (a + i) = UInt8.ofNat (v / 256 ^ i) := by
      rw [writeLE, if_pos (by omega), Nat.add_sub_cancel_left]
    have e : v / 256 ^ (i + 1) = v / 256 ^ i / 256 := by
      rw [Nat.pow_succ, Nat.div_div_eq_div_mul]
    rw [readLE, hb, Nat.add_assoc, ih (i + 1) (by omega), UInt8.toNat_ofNat', e]
    exact Nat.mod_add_div _ _

end Lib
