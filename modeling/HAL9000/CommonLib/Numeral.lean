import HAL9000.CommonLib.Pointer
import HAL9000.CommonLib.String
import Mathlib.Data.Nat.Digits.Lemmas

/-!
# Numbers and their texts

Port of `itoa` and `atoi` (`CommonLib/src/strutils.c`). `itoa` writes the digits, the last one first, and turns
the text round by swapping bytes in place. `numeral` is the text it should write. It does, for every value but
the smallest signed one of 32 bits, whose negation is extended to 64 bits before its sign is lost. `atoi` finds
the value again from what `itoa` writes, whatever it is.
-/

namespace HAL9000.CString
open Lib Function List

/-- Exchange two bytes without a third one (C `swap`). -/
def swap (m : Mem) (a b : Nat) : Mem :=
  let m := update m a (m a ^^^ m b)
  let m := update m b (m b ^^^ m a)
  update m a (m a ^^^ m b)

/-- A signed 32-bit number, converted to 64 bits. -/
def signExtend (x : Nat) : Nat := if x < 2 ^ 31 then x else x + (2 ^ 64 - 2 ^ 32)

/-- The first part of `itoa`: is the value at the address negative, and what number are the digits of. -/
def itoaValue (bits : Nat) (signedValue is64BitValue : Bool) : Bool × Nat :=
  if is64BitValue then
    if signedValue && 0 > sint 64 (bits % 2 ^ 64) then (true, wsub 64 0 bits)
    else (false, bits % 2 ^ 64)
  else
    if signedValue && 0 > sint 32 (bits % 2 ^ 32) then (true, signExtend (wsub 32 0 bits))
    else (false, bits % 2 ^ 32)

def digitChar (digit : Nat) : UInt8 :=
  if digit > 9 then UInt8.ofNat (digit - 10) + 0x41 else UInt8.ofNat digit + 0x30

/-- The loop of `itoa`: write the digits, the last one first. The value has 64 bits, so with a base of at least 2
    it is 0 before the fuel is used up. -/
def itoaDigits (buffer base : Nat) : Nat → Mem → Nat → Nat → Exec (Mem × Nat)
  | 0, _, _, _ => throw .fuel
  | k + 1, m, index, value =>
    if value = 0 then pure (m, index)
    else itoaDigits buffer base k (update m (buffer + index) (digitChar (value % base))) (index + 1)
      (value / base)

/-- The last loop of `itoa`: turn the text round. -/
def reverseText (m : Mem) (buffer index : Nat) : Mem :=
  (List.range (index / 2)).foldl (fun m i => swap m (buffer + i) (buffer + (index - i - 1))) m

/-- Write the value `bits` to the buffer (C `itoa`). -/
def itoa (m : Mem) (bits : Nat) (signedValue : Bool) (buffer base : Nat) (is64BitValue : Bool) : Exec Mem := do
  ensure (buffer ≠ 0)
  ensure (base ≠ 0)
  let (negative, value) := itoaValue bits signedValue is64BitValue
  let (m, index) := if value = 0 then (update m buffer 0x30, 1) else (m, 0)
  let (m, index) ← itoaDigits buffer base 65 m index value
  let (m, index) := if negative then (update m (buffer + index) 0x2D, index + 1) else (m, index)
  pure (reverseText (update m (buffer + index) 0) buffer index)

/-- (C `isascii`) -/
def isAscii (c : UInt8) : Bool := 0x1F < c && c < 0x80

/-- The value of a digit, `MAX_BYTE` for any other character. -/
def charValue (c : UInt8) : Nat :=
  if 0x30 ≤ toLower c && toLower c ≤ 0x39 then (toLower c).toNat - 0x30
  else if 0x61 ≤ toLower c && toLower c ≤ 0x7A then (toLower c).toNat - 0x61 + 10
  else 0xFF

/-- The loop of `atoi`. -/
def atoiFrom (m : Mem) (buffer base : Nat) : Nat → Nat → Nat → Exec Nat
  | 0, _, _ => throw .fuel
  | k + 1, i, value =>
    if m (buffer + i) = 0 then pure value
    else do
      ensure (isAscii (m (buffer + i)))
      ensure (charValue (m (buffer + i)) < base)
      atoiFrom m buffer base k (wadd 32 i 1) ((value * base + charValue (m (buffer + i))) % 2 ^ 64)

/-- The value that is stored (C `atoi`). -/
def atoi (fuel : Nat) (m : Mem) (buffer base : Nat) (is64BitValue : Bool) : Exec Nat := do
  ensure (buffer ≠ 0)
  ensure (base ≠ 0)
  let negative := decide (m buffer = 0x2D)
  let value ← atoiFrom m buffer base fuel (if negative then 1 else 0) 0
  let value := if negative then wsub 64 0 value else value
  if is64BitValue then pure value
  else do
    ensure (negative ∨ value ≤ maxDword)
    pure (value % 2 ^ 32)

def valueOf (bits : Nat) (signedValue is64BitValue : Bool) : Int :=
  if signedValue then sint (if is64BitValue then 64 else 32) bits else bits

def digitsText (base n : Nat) : List UInt8 :=
  if n = 0 then [0x30] else ((Nat.digits base n).map digitChar).reverse

/-- The text of a number: a minus sign if it is negative, and the digits of its absolute value. -/
def numeral (base : Nat) (v : Int) : List UInt8 := (if v < 0 then [0x2D] else []) ++ digitsText base v.natAbs

/-- The text that `itoa` writes. -/
def itoaText (bits : Nat) (signedValue : Bool) (base : Nat) (is64BitValue : Bool) : List UInt8 :=
  (if (itoaValue bits signedValue is64BitValue).1 then [0x2D] else []) ++
    digitsText base (itoaValue bits signedValue is64BitValue).2

section Reverse

variable {m m' : Mem} {a b buffer n : Nat} {t : List UInt8}

lemma swap_eq (h : a ≠ b) : swap m a b = update (update m a (m b)) b (m a) := by
  have hxor : ∀ x y : UInt8, y ^^^ (x ^^^ y) = x := fun x y => by
    rw [UInt8.xor_comm x y, ← UInt8.xor_assoc, UInt8.xor_self, UInt8.zero_xor]
  have hxor' : ∀ x y : UInt8, x ^^^ y ^^^ x = y := fun x y => by
    rw [UInt8.xor_comm x y, UInt8.xor_assoc, UInt8.xor_self, UInt8.xor_zero]
  funext x
  simp only [swap]
  by_cases hxa : x = a
  · subst hxa
    simp [h, h.symm, hxor, hxor']
  · by_cases hxb : x = b
    · subst hxb
      simp [hxa, Ne.symm hxa, hxor]
    · simp [hxa, hxb]

lemma foldl_swap {k : Nat} (h : ∀ j < n, m (buffer + j) = t.getD j 0) (hk : k ≤ n / 2) :
    (∀ j < n, (List.range k).foldl (fun m i => swap m (buffer + i) (buffer + (n - i - 1))) m (buffer + j) =
      t.getD (if j < k ∨ n - 1 - j < k then n - 1 - j else j) 0) ∧
    Within (Span buffer n) m
      ((List.range k).foldl (fun m i => swap m (buffer + i) (buffer + (n - i - 1))) m) := by
  induction k with
  | zero =>
    refine ⟨fun j hj => ?_, Within.refl _ m⟩
    rw [if_neg (by omega)]
    exact h j hj
  | succ k ih =>
    obtain ⟨hget, hwithin⟩ := ih (by omega)
    rw [range_succ, foldl_append, foldl_cons, foldl_nil, swap_eq (by omega)]
    constructor
    · intro j hj
      by_cases hjb : j = n - k - 1
      · subst hjb
        rw [update_self, hget k (by omega), if_neg (by omega), if_pos (by omega)]
        exact congrArg (t.getD · 0) (by omega)
      · rw [update_of_ne (by omega)]
        by_cases hja : j = k
        · subst hja
          rw [update_self, hget _ (by omega), if_neg (by omega), if_pos (by omega)]
          exact congrArg (t.getD · 0) (by omega)
        · rw [update_of_ne (by omega), hget j hj]
          by_cases hin : j < k ∨ n - 1 - j < k
          · rw [if_pos hin, if_pos (by omega)]
          · rw [if_neg hin, if_neg (by omega)]
    · intro x hx
      rw [update_of_ne fun hxb => hx ⟨by omega, by omega⟩, update_of_ne fun hxa => hx ⟨by omega, by omega⟩]
      exact hwithin x hx

lemma reverseText_holds (h : Holds m buffer t) : Holds (reverseText m buffer t.length) buffer t.reverse ∧
      Within (Span buffer t.length) m (reverseText m buffer t.length) := by
  have hgetD : ∀ j < t.length, m (buffer + j) = t.getD j 0 := fun j hj => by
    rw [h j hj, getD_eq_getElem _ _ hj]
  obtain ⟨hget, hwithin⟩ := foldl_swap hgetD le_rfl
  refine ⟨fun j hj => ?_, hwithin⟩
  rw [length_reverse] at hj
  rw [reverseText, hget j hj, getElem_reverse]
  split
  · exact getD_eq_getElem _ _ (by omega)
  · have hmid : t.length - 1 - j = j := by omega
    simp only [hmid]
    exact getD_eq_getElem _ _ hj

end Reverse

section Itoa

variable {m m' : Mem} {buffer base index value k bits : Nat} {signedValue is64BitValue : Bool}

lemma itoaDigits_eq (hb : 2 ≤ base) (hv : value < 2 ^ k) : itoaDigits buffer base (k + 1) m index value =
      .ok (writeAt m (buffer + index) ((Nat.digits base value).map digitChar),
        index + (Nat.digits base value).length) := by
  induction k generalizing m index value with
  | zero =>
    obtain rfl : value = 0 := by omega
    rw [itoaDigits, if_pos rfl, Nat.digits_zero]
    rfl
  | succ k ih =>
    rw [itoaDigits]
    by_cases h0 : value = 0
    · subst h0
      rw [if_pos rfl, Nat.digits_zero]
      rfl
    · have hdiv : value / base < 2 ^ k := by
        refine Nat.div_lt_of_lt_mul (Nat.lt_of_lt_of_le hv ?_)
        rw [Nat.pow_succ, Nat.mul_comm]
        exact Nat.mul_le_mul_right _ hb
      have hdigits : Nat.digits base value = value % base :: Nat.digits base (value / base) :=
        Nat.digits_def' hb (Nat.pos_of_ne_zero h0)
      rw [if_neg h0, ih hdiv, hdigits, map_cons, writeAt, length_cons, Nat.add_assoc buffer,
        Nat.add_assoc index, Nat.add_comm 1]

lemma itoaValue_lt (bits : Nat) (signedValue is64BitValue : Bool) :
    (itoaValue bits signedValue is64BitValue).2 < 2 ^ 64 := by
  have h32 := Nat.mod_lt bits (Nat.two_pow_pos 32)
  have hsub := wsub_lt 32 0 bits
  rw [itoaValue]
  split
  · split
    · exact wsub_lt 64 0 bits
    · exact Nat.mod_lt _ (Nat.two_pow_pos 64)
  · split
    · dsimp only
      rw [signExtend]
      split
      · omega
      · omega
    · dsimp only
      omega

lemma digitChar_ne_zero {d : Nat} (h : d < 36) : digitChar d ≠ 0 := by
  revert d
  decide

lemma digitsText_ne_zero (hb : 2 ≤ base) (hb' : base ≤ 36) : ∀ c ∈ digitsText base value, c ≠ 0 := by
  intro c hc
  rw [digitsText] at hc
  split at hc
  · obtain rfl := List.mem_singleton.mp hc
    decide
  · rw [mem_reverse, mem_map] at hc
    obtain ⟨d, hd, rfl⟩ := hc
    exact digitChar_ne_zero (Nat.lt_of_lt_of_le (Nat.digits_lt_base hb hd) hb')

def reversedText (base : Nat) (negative : Bool) (value : Nat) : List UInt8 :=
  (if value = 0 then [0x30] else (Nat.digits base value).map digitChar) ++ if negative then [0x2D] else []

lemma reverse_reversedText (base : Nat) (negative : Bool) (value : Nat) :
    (reversedText base negative value).reverse = (if negative then [0x2D] else []) ++ digitsText base value := by
  have hsign : (if negative then [0x2D] else [] : List UInt8).reverse = if negative then [0x2D] else [] := by
    cases negative with
    | true => rfl
    | false => rfl
  rw [reversedText, reverse_append, hsign, digitsText]
  by_cases h0 : value = 0
  · rw [if_pos h0, if_pos h0]
    rfl
  · rw [if_neg h0, if_neg h0]

lemma itoa_eq (hbuf : buffer ≠ 0) (hb : 2 ≤ base) : itoa m bits signedValue buffer base is64BitValue =
      let t := reversedText base (itoaValue bits signedValue is64BitValue).1
        (itoaValue bits signedValue is64BitValue).2
      .ok (reverseText (update (writeAt m buffer t) (buffer + t.length) 0) buffer t.length) := by
  rw [itoa, ensure_pos hbuf, bind_okay, ensure_pos (by omega), bind_okay]
  have hlt := itoaValue_lt bits signedValue is64BitValue
  generalize itoaValue bits signedValue is64BitValue = v at hlt ⊢
  obtain ⟨negative, value⟩ := v
  dsimp only at hlt ⊢
  by_cases h0 : value = 0
  · subst h0
    rw [if_pos rfl]
    dsimp only
    rw [itoaDigits_eq hb (by decide), bind_okay, Nat.digits_zero]
    cases negative with
    | true => rfl
    | false => rfl
  · rw [if_neg h0]
    dsimp only
    rw [itoaDigits_eq hb hlt, bind_okay, reversedText, if_neg h0]
    cases negative with
    | true =>
      simp only [if_true, writeAt_append, writeAt, length_append, length_map, Nat.zero_add,
        Nat.add_zero, length_singleton]
      rfl
    | false =>
      simp only [Bool.false_eq_true, if_false, append_nil, length_map, Nat.zero_add, Nat.add_zero]
      rfl

lemma itoa_spells (m : Mem) (bits : Nat) (signedValue is64BitValue : Bool) (hbuf : buffer ≠ 0) (hb : 2 ≤ base)
    (hb' : base ≤ 36) :
    ∃ m', itoa m bits signedValue buffer base is64BitValue = .ok m' ∧
      Spells m' buffer (itoaText bits signedValue base is64BitValue) ∧
      Within (Span buffer ((itoaText bits signedValue base is64BitValue).length + 1)) m m' := by
  rw [itoa_eq hbuf hb, itoaText, ← reverse_reversedText]
  generalize ht : reversedText base (itoaValue bits signedValue is64BitValue).1
    (itoaValue bits signedValue is64BitValue).2 = t
  have hne : ∀ c ∈ t.reverse, c ≠ 0 := by
    rw [← ht, reverse_reversedText]
    intro c hc
    obtain hc | hc := List.mem_append.mp hc
    · split at hc
      · obtain rfl := List.mem_singleton.mp hc
        decide
      · cases hc
    · exact digitsText_ne_zero hb hb' c hc
  have hholds : Holds (update (writeAt m buffer t) (buffer + t.length) 0) buffer t := by
    intro i hi
    rw [update_of_ne (by omega)]
    exact holds_writeAt i hi
  obtain ⟨hrev, hwithin⟩ := reverseText_holds hholds
  refine ⟨_, rfl, spells_of_holds hrev hne ?_, fun x hx => ?_⟩
  · rw [length_reverse, hwithin _ fun h => by have := h.2; omega]
    exact update_self ..
  · rw [length_reverse] at hx
    rw [hwithin x fun h => hx (h.mono le_rfl (by omega)), update_of_ne fun h => hx ⟨by omega, by omega⟩]
    exact writeAt_within x fun h => hx (h.mono le_rfl (by omega))

end Itoa

section Values

variable {base bits n : Nat} {signedValue is64BitValue : Bool}

lemma charValue_digitChar {d : Nat} (h : d < 36) : charValue (digitChar d) = d := by
  revert d
  decide

def digitsOf (base n : Nat) : List Nat := if n = 0 then [0] else (Nat.digits base n).reverse

lemma digitsText_eq (base n : Nat) : digitsText base n = (digitsOf base n).map digitChar := by
  rw [digitsText, digitsOf]
  split
  · rfl
  · rw [map_reverse]

lemma digitsOf_lt (hb : 2 ≤ base) : ∀ d ∈ digitsOf base n, d < base := by
  intro d hd
  rw [digitsOf] at hd
  split at hd
  · obtain rfl := List.mem_singleton.mp hd
    omega
  · exact Nat.digits_lt_base hb (List.mem_reverse.mp hd)

lemma length_digitsOf (hb : 2 ≤ base) (hn : n < 2 ^ 64) : (digitsOf base n).length ≤ 64 := by
  rw [digitsOf]
  split
  · exact Nat.le_of_ble_eq_true rfl
  · rw [length_reverse, Nat.digits_length_le_iff hb]
    exact Nat.lt_of_lt_of_le hn (Nat.pow_le_pow_left hb 64)

lemma map_charValue_digitsText (hb : 2 ≤ base) (hb' : base ≤ 36) :
    (digitsText base n).map charValue = digitsOf base n := by
  rw [digitsText_eq, map_map]
  refine (map_congr_left fun d hd => ?_).trans (map_id _)
  exact charValue_digitChar (Nat.lt_of_lt_of_le (digitsOf_lt hb d hd) hb')

lemma digitsText_inj {n' : Nat} (hb : 2 ≤ base) (hb' : base ≤ 36) (hn : n ≠ 0) (hn' : n' ≠ 0)
    (h : digitsText base n = digitsText base n') : n = n' := by
  have hmap := congrArg (List.map charValue) h
  rw [map_charValue_digitsText hb hb', map_charValue_digitsText hb hb', digitsOf, digitsOf, if_neg hn,
    if_neg hn', reverse_inj] at hmap
  exact Nat.digits_inj_iff.mp hmap

def width (is64BitValue : Bool) : Nat := if is64BitValue then 64 else 32

lemma width_true : width true = 64 := rfl

lemma width_false : width false = 32 := rfl

lemma wsub_zero {w : Nat} (h0 : 0 < bits) (h : bits < 2 ^ w) : wsub w 0 bits = 2 ^ w - bits := by
  rw [wsub, Nat.mod_eq_of_lt h, Nat.zero_add]
  exact Nat.mod_eq_of_lt (by omega)

lemma itoaValue_eq (h : bits < 2 ^ width is64BitValue) : itoaValue bits signedValue is64BitValue =
      if signedValue && 0 > sint (width is64BitValue) bits then
        (true, if is64BitValue then wsub 64 0 bits else signExtend (wsub 32 0 bits))
      else (false, bits) := by
  cases is64BitValue with
  | true =>
    have hmod : bits % 2 ^ 64 = bits := Nat.mod_eq_of_lt h
    rw [itoaValue, hmod]
    rfl
  | false =>
    have hmod : bits % 2 ^ 32 = bits := Nat.mod_eq_of_lt h
    rw [itoaValue, hmod]
    rfl

lemma itoaValue_cases (signedValue : Bool) (h : bits < 2 ^ width is64BitValue) :
    (itoaValue bits signedValue is64BitValue = (false, bits) ∧ valueOf bits signedValue is64BitValue = bits) ∨
    (signedValue = true ∧ 2 ^ (width is64BitValue - 1) ≤ bits ∧
      valueOf bits signedValue is64BitValue = (bits : Int) - 2 ^ width is64BitValue ∧
      itoaValue bits signedValue is64BitValue =
        (true, if is64BitValue then 2 ^ 64 - bits else signExtend (2 ^ 32 - bits))) := by
  rw [itoaValue_eq h]
  cases signedValue with
  | false => exact .inl ⟨rfl, rfl⟩
  | true =>
    have hval : valueOf bits true is64BitValue = sint (width is64BitValue) bits := rfl
    rw [hval, Bool.true_and]
    by_cases hlt : bits < 2 ^ (width is64BitValue - 1)
    · have hsint : sint (width is64BitValue) bits = bits := if_pos hlt
      rw [hsint]
      exact .inl ⟨if_neg (by simp), rfl⟩
    · have hsint : sint (width is64BitValue) bits = (bits : Int) - 2 ^ width is64BitValue := if_neg hlt
      have hcast : (bits : Int) < 2 ^ width is64BitValue := by exact_mod_cast h
      have hpos : 0 < bits := Nat.lt_of_lt_of_le (Nat.two_pow_pos _) (Nat.le_of_not_lt hlt)
      refine .inr ⟨rfl, Nat.le_of_not_lt hlt, hsint, ?_⟩
      rw [hsint, if_pos (by simpa using hcast)]
      cases is64BitValue with
      | true => rw [if_pos rfl, if_pos rfl, wsub_zero (w := 64) hpos h]
      | false => rw [if_neg Bool.false_ne_true, if_neg Bool.false_ne_true, wsub_zero (w := 32) hpos h]

def Smallest (bits : Nat) (signedValue is64BitValue : Bool) : Prop :=
  signedValue = true ∧ is64BitValue = false ∧ bits = 2 ^ 31

lemma itoaText_eq_numeral (h : bits < 2 ^ width is64BitValue) (hmin : ¬ Smallest bits signedValue is64BitValue) :
    itoaText bits signedValue base is64BitValue = numeral base (valueOf bits signedValue is64BitValue) := by
  rw [itoaText, numeral]
  obtain ⟨hitoa, hval⟩ | ⟨hs, hle, hval, hitoa⟩ := itoaValue_cases signedValue h
  · rw [hitoa, hval]
    dsimp only
    rw [if_neg Bool.false_ne_true, if_neg (by omega)]
    rfl
  · have hlt : (bits : Int) < 2 ^ width is64BitValue := by exact_mod_cast h
    rw [hitoa, hval]
    dsimp only
    rw [if_pos rfl, if_pos (Int.sub_neg_of_lt hlt)]
    refine congrArg (fun n => [0x2D] ++ digitsText base n) ?_
    cases is64BitValue with
    | true =>
      rw [width_true] at hlt ⊢
      rw [if_pos rfl]
      omega
    | false =>
      have hne : bits ≠ 2 ^ 31 := fun hb => hmin ⟨hs, rfl, hb⟩
      rw [width_false] at hlt hle ⊢
      rw [if_neg Bool.false_ne_true, signExtend, if_pos (by omega)]
      omega

lemma itoaText_smallest : itoaText (2 ^ 31) true base false = 0x2D :: digitsText base (2 ^ 64 - 2 ^ 31) := rfl

lemma numeral_smallest : numeral base (valueOf (2 ^ 31) true false) = 0x2D :: digitsText base (2 ^ 31) := rfl

/-- `itoa` writes the numeral of the value, for every value but the smallest signed one of 32 bits. -/
theorem itoa_numeral_iff {m : Mem} {buffer : Nat} (hbuf : buffer ≠ 0) (hb : 2 ≤ base) (hb' : base ≤ 36)
    (h : bits < 2 ^ width is64BitValue) :
    (∃ m', itoa m bits signedValue buffer base is64BitValue = .ok m' ∧
      Spells m' buffer (numeral base (valueOf bits signedValue is64BitValue))) ↔
      ¬ Smallest bits signedValue is64BitValue := by
  obtain ⟨m', hrun, hspells, -⟩ := itoa_spells m bits signedValue is64BitValue hbuf hb hb'
  constructor
  · rintro ⟨m'', hrun', hspells'⟩ ⟨rfl, rfl, rfl⟩
    obtain rfl := Except.ok.inj (hrun.symm.trans hrun')
    have htext := hspells.unique hspells'
    rw [itoaText_smallest, numeral_smallest, List.cons.injEq] at htext
    exact absurd (digitsText_inj hb hb' (by decide) (by decide) htext.2) (by decide)
  · intro hmin
    rw [itoaText_eq_numeral h hmin] at hspells
    exact ⟨m', hrun, hspells⟩

end Values

/-- The text of 42. -/
theorem itoa_forty_two : ∃ m', itoa (fun _ => 0) 42 true 1 10 false = .ok m' ∧ Spells m' 1 (numeral 10 42) :=
  (itoa_numeral_iff (by decide) (by decide) (by decide) (show 42 < 2 ^ width false by decide)).mpr
    fun h => absurd h.2.2 (by decide)

/-- The smallest signed value of 32 bits is written as `"-18446744071562067968"`. -/
theorem itoa_smallest_wrong : ∃ m', itoa (fun _ => 0) 0x80000000 true 1 10 false = .ok m' ∧
      Spells m' 1 [0x2D, 0x31, 0x38, 0x34, 0x34, 0x36, 0x37, 0x34, 0x34, 0x30, 0x37, 0x31, 0x35, 0x36, 0x32,
        0x30, 0x36, 0x37, 0x39, 0x36, 0x38] ∧ valueOf 0x80000000 true false = -2147483648 :=
  exists_ok (by decide)

section Atoi

variable {m : Mem} {buffer base bits n i fuel value d : Nat} {signedValue is64BitValue : Bool} {ds : List Nat}

lemma isAscii_digitChar (h : d < 36) : isAscii (digitChar d) = true := by
  revert d
  decide

lemma digitChar_ne_minus (h : d < 36) : digitChar d ≠ 0x2D := by
  revert d
  decide

lemma atoiFrom_spells (hb : base ≤ 36) (h : Spells m (buffer + i) (ds.map digitChar)) (hds : ∀ d ∈ ds, d < base)
    (hi : i + ds.length < 2 ^ 32) (hfuel : ds.length < fuel) :
    atoiFrom m buffer base fuel i value = .ok (ds.foldl (fun v d => (v * base + d) % 2 ^ 64) value) := by
  induction ds generalizing i fuel value with
  | nil =>
    cases fuel with
    | zero => cases hfuel
    | succ k =>
      rw [atoiFrom, if_pos (spells_nil.mp h)]
      rfl
  | cons d ds ih =>
    cases fuel with
    | zero => cases hfuel
    | succ k =>
      rw [length_cons] at hi hfuel
      have hd : d < base := hds d mem_cons_self
      have hval : charValue (digitChar d) = d := charValue_digitChar (by omega)
      rw [atoiFrom, if_neg h.head_ne, h.1, ensure_pos (isAscii_digitChar (by omega)), bind_okay, hval,
        ensure_pos hd, bind_okay, wadd_eq (by omega), foldl_cons]
      exact ih (i := i + 1) h.2.2 (fun e he => hds e (mem_cons_of_mem d he)) (by omega) (by omega)

lemma foldr_digits (ds : List Nat) :
    ds.foldr (fun d v => (v * base + d) % 2 ^ 64) 0 = Nat.ofDigits base ds % 2 ^ 64 := by
  induction ds with
  | nil => rfl
  | cons d ds ih =>
    rw [foldr_cons, ih, Nat.ofDigits_cons, Nat.add_comm d, Nat.mul_comm base]
    conv_rhs => rw [Nat.add_mod, Nat.mul_mod]
    rw [Nat.add_mod, Nat.mul_mod, Nat.mod_mod]

lemma foldl_digitsOf (hn : n < 2 ^ 64) : (digitsOf base n).foldl (fun v d => (v * base + d) % 2 ^ 64) 0 = n := by
  rw [digitsOf]
  split
  · next h0 =>
    subst h0
    simp
  · rw [foldl_reverse, foldr_digits, Nat.ofDigits_digits, Nat.mod_eq_of_lt hn]

lemma atoi_spells (negative : Bool) (hbuf : buffer ≠ 0) (hb : 2 ≤ base) (hb' : base ≤ 36) (hn : n < 2 ^ 64)
    (h : Spells m buffer ((if negative then [0x2D] else []) ++ digitsText base n)) (hfuel : 66 ≤ fuel)
    (hsmall : is64BitValue = false → negative = false → n < 2 ^ 32) :
    atoi fuel m buffer base is64BitValue =
      .ok ((if negative then wsub 64 0 n else n) % 2 ^ width is64BitValue) := by
  have hlen := length_digitsOf hb hn
  rw [digitsText_eq] at h
  have hloop : atoiFrom m buffer base fuel (if negative then 1 else 0) 0 = .ok n := by
    rw [atoiFrom_spells hb' ?_ (digitsOf_lt (n := n) hb) ?_ (by omega), foldl_digitsOf hn]
    · cases negative with
      | true => exact h.2.2
      | false => exact h
    · split
      · omega
      · omega
  have hminus : decide (m buffer = 0x2D) = negative := by
    cases negative with
    | true => exact decide_eq_true h.1
    | false =>
      refine decide_eq_false ?_
      have hlt := digitsOf_lt (n := n) hb
      cases hds : digitsOf base n with
      | nil =>
        rw [digitsOf] at hds
        split at hds
        · cases hds
        · next h0 => exact absurd (List.reverse_eq_nil_iff.mp hds) (Nat.digits_ne_nil_iff_ne_zero.mpr h0)
      | cons d ds =>
        rw [hds] at h hlt
        rw [h.1]
        exact digitChar_ne_minus (Nat.lt_of_lt_of_le (hlt d mem_cons_self) hb')
  rw [atoi, ensure_pos hbuf, bind_okay, ensure_pos (by omega), bind_okay, hminus]
  dsimp only
  rw [hloop, bind_okay]
  have hbound : (if negative then wsub 64 0 n else n) < 2 ^ 64 := by
    split
    · exact wsub_lt 64 0 n
    · exact hn
  cases is64BitValue with
  | true =>
    refine (if_pos rfl).trans ?_
    rw [width_true, Nat.mod_eq_of_lt hbound]
    rfl
  | false =>
    refine (if_neg Bool.false_ne_true).trans ?_
    rw [ensure_pos, bind_okay]
    · rfl
    · cases negative with
      | true => exact .inl rfl
      | false => exact .inr (Nat.le_of_lt_succ (hsmall rfl rfl))

/-- What `itoa` writes, `atoi` reads back. -/
theorem atoi_itoa (hbuf : buffer ≠ 0) (hb : 2 ≤ base) (hb' : base ≤ 36) (h : bits < 2 ^ width is64BitValue)
    (hfuel : 66 ≤ fuel) :
    ∃ m', itoa m bits signedValue buffer base is64BitValue = .ok m' ∧
      atoi fuel m' buffer base is64BitValue = .ok bits := by
  obtain ⟨m', hrun, hspells, -⟩ := itoa_spells m bits signedValue is64BitValue hbuf hb hb'
  refine ⟨m', hrun, ?_⟩
  rw [itoaText] at hspells
  obtain ⟨hitoa, -⟩ | ⟨-, hle, -, hitoa⟩ := itoaValue_cases signedValue h
  · rw [hitoa] at hspells
    have hn : bits < 2 ^ 64 := Nat.lt_of_lt_of_le h (by cases is64BitValue <;> decide)
    rw [atoi_spells false hbuf hb hb' hn hspells hfuel fun h64 _ => by rw [h64] at h; exact h]
    exact congrArg Except.ok (Nat.mod_eq_of_lt h)
  · rw [hitoa] at hspells
    cases is64BitValue with
    | true =>
      rw [width_true] at h hle
      rw [atoi_spells true hbuf hb hb' (by rw [if_pos rfl]; omega) hspells hfuel fun _ hf => Bool.noConfusion hf]
      refine congrArg Except.ok ?_
      rw [if_pos rfl, if_pos rfl, width_true, wsub]
      omega
    | false =>
      rw [width_false] at h hle
      have hsign : signExtend (2 ^ 32 - bits) < 2 ^ 64 ∧ signExtend (2 ^ 32 - bits) % 2 ^ 32 = 2 ^ 32 - bits := by
        rw [signExtend]
        split
        · omega
        · omega
      rw [atoi_spells true hbuf hb hb' hsign.1 hspells hfuel fun _ hf => Bool.noConfusion hf]
      refine congrArg Except.ok ?_
      rw [if_pos rfl, width_false, wsub]
      omega

end Atoi

/-- The smallest value of 32 bits comes back. -/
theorem atoi_itoa_smallest :
    ∃ m', itoa (fun _ => 0) 0x80000000 true 1 10 false = .ok m' ∧ atoi 100 m' 1 10 false = .ok 0x80000000 :=
  atoi_itoa (by decide) (by decide) (by decide) (by decide) (by decide)

end HAL9000.CString
