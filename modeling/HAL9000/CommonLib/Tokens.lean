import HAL9000.CommonLib.Pointer
import HAL9000.CommonLib.String

/-!
# Counting and cutting elements

Port of `cl_strchr`, `cl_strcelem` and `cl_strtok_s` (`CommonLib/src/cl_string.c`) on strings in memory.
`cl_strchr` returns the start of the string if it finds nothing. `cl_strcelem` takes this for the end, so it also
stops at a delimiter at the start of what is left. `cl_strtok_s` returns an empty token there and goes on.
-/

namespace HAL9000.CString
open Lib Function List

/-- The loop of `cl_strchr`. The index is a `DWORD`: after `2 ^ 32` bytes it is 0 again, and the loop does not
    end. -/
def strchrFrom (m : Mem) (str : Nat) (c : UInt8) : Nat → Nat → Exec Nat
  | 0, _ => throw .fuel
  | k + 1, i =>
    if m (str + i) = 0 then pure str
    else if m (str + i) = c then pure (str + i)
    else strchrFrom m str c k (i + 1)

/-- (C `cl_strchr`) -/
def clStrchr (m : Mem) (str : Nat) (c : UInt8) : Exec Nat :=
  if str = 0 then pure 0 else strchrFrom m str c (2 ^ 32) 0

/-- The loop of `cl_strcelem`, with the next call of `cl_strchr`. -/
def strcelemFrom (m : Mem) (delimiter : UInt8) : Nat → Nat → Nat → Exec Nat
  | 0, _, _ => throw .fuel
  | fuel + 1, prevValue, noOfElements => do
    let curPosition ← clStrchr m prevValue delimiter
    if curPosition ≠ prevValue
      then strcelemFrom m delimiter fuel (curPosition + 1) (wadd 32 noOfElements 1)
      else pure noOfElements

/-- (C `cl_strcelem`) -/
def clStrcelem (fuel : Nat) (m : Mem) (string : Nat) (delimiter : UInt8) : Exec Nat :=
  if string = 0 then pure maxDword else strcelemFrom m delimiter fuel string 1

/-- The loop of `cl_strtok_s`: end the token at the first delimiter, and return where to go on. -/
def strtokFrom (m : Mem) (str : Nat) (delimiters : List UInt8) : Nat → Nat → Exec (Mem × Nat)
  | 0, _ => throw .fuel
  | k + 1, i =>
    if m (str + i) = 0 then pure (m, str + i)
    else if m (str + i) ∈ delimiters then pure (update m (str + i) 0, str + i + 1)
    else strtokFrom m str delimiters k (i + 1)

/-- The next token, 0 if there is none, and the new context (C `cl_strtok_s`). -/
def clStrtokS (m : Mem) (strToken : Nat) (delimiters : List UInt8) (context : Nat) : Exec (Mem × Nat × Nat) :=
  if context = 0 ∧ strToken = 0 then pure (m, 0, context)
  else
    let str := if context = 0 then strToken else context
    if m str = 0 then pure (m, 0, context)
    else do
      let (m, context) ← strtokFrom m str delimiters (2 ^ 32) 0
      pure (m, str, context)

/-- The number of tokens: the calls with the same context, until one returns `NULL`. -/
def tokens (m : Mem) (strToken : Nat) (delimiters : List UInt8) : Nat → Nat → Exec Nat
  | 0, _ => throw .fuel
  | fuel + 1, context => do
    let (m, token, context) ← clStrtokS m strToken delimiters context
    if token = 0 then pure 0
    else do
      let n ← tokens m strToken delimiters fuel context
      pure (n + 1)

/-- Every delimiter has another character in front of it. -/
def Separated (delimiter : UInt8) (s : List UInt8) : Prop :=
  (delimiter :: s).IsChain fun c d => ¬ (c = delimiter ∧ d = delimiter)

/-- The delimiters that are counted before the count stops; `inside` says that there are characters behind the
    last one. -/
def counted (delimiter : UInt8) : Bool → List UInt8 → Nat
  | _, [] => 0
  | inside, c :: s =>
    if c = delimiter then (if inside then counted delimiter false s + 1 else 0) else counted delimiter true s

section Lists

variable {d c : UInt8} {s t : List UInt8} {inside : Bool}

lemma findIdx?_notMem (h : d ∉ s) : s.findIdx? (· = d) = none :=
  findIdx?_eq_none_iff.mpr (by simpa using fun x hx => ne_of_mem_of_not_mem hx h)

lemma counted_le : counted d inside s ≤ s.count d := by
  induction s generalizing inside with
  | nil => exact le_rfl
  | cons c s ih =>
    rw [counted]
    split
    · next h =>
      subst h
      rw [count_cons_self]
      split
      · exact Nat.succ_le_succ ih
      · exact Nat.zero_le _
    · next h =>
      rw [count_cons_of_ne h]
      exact ih

lemma counted_eq_iff :
    counted d (decide (c ≠ d)) s = s.count d ↔ (c :: s).IsChain fun x y => ¬ (x = d ∧ y = d) := by
  induction s generalizing c with
  | nil => exact iff_of_true rfl (.singleton c)
  | cons e s ih =>
    rw [counted, isChain_cons_cons, ← ih]
    by_cases he : e = d
    · subst he
      rw [if_pos rfl, count_cons_self]
      by_cases hc : c = e
      · simp [hc]
      · simp [hc]
    · rw [if_neg he, count_cons_of_ne he]
      simp [he]

lemma counted_append (hd : d ∉ s) : counted d inside (s ++ t) = counted d (inside || !s.isEmpty) t := by
  induction s generalizing inside with
  | nil => simp
  | cons c s ih =>
    rw [mem_cons, not_or] at hd
    rw [cons_append, counted, if_neg (Ne.symm hd.1), ih hd.2]
    simp

lemma counted_half : 2 * counted d inside s ≤ s.length + if inside then 1 else 0 := by
  induction s generalizing inside with
  | nil => exact Nat.zero_le _
  | cons c s ih =>
    rw [counted, length_cons]
    split
    · split
      · have hrec : 2 * counted d false s ≤ s.length + if false then 1 else 0 := ih
        rw [if_neg Bool.false_ne_true] at hrec
        omega
      · exact Nat.zero_le _
    · have hrec : 2 * counted d true s ≤ s.length + if true then 1 else 0 := ih
      rw [if_pos rfl] at hrec
      omega

lemma exists_first {ds : List UInt8} (h : ∃ c ∈ s, c ∈ ds) :
    ∃ pre c t, s = pre ++ c :: t ∧ c ∈ ds ∧ ∀ x ∈ pre, x ∉ ds := by
  induction s with
  | nil =>
    obtain ⟨c, hc, -⟩ := h
    cases hc
  | cons x s ih =>
    by_cases hx : x ∈ ds
    · exact ⟨[], x, s, rfl, hx, fun y hy => absurd hy not_mem_nil⟩
    · obtain ⟨c, hc, hcds⟩ := h
      obtain rfl | hc := List.mem_cons.mp hc
      · exact absurd hcds hx
      · obtain ⟨pre, c, t, rfl, hc, hpre⟩ := ih ⟨c, hc, hcds⟩
        refine ⟨x :: pre, c, t, rfl, hc, fun y hy => ?_⟩
        obtain rfl | hy := List.mem_cons.mp hy
        · exact hx
        · exact hpre y hy

end Lists

section Count

variable {m : Mem} {str i k fuel n : Nat} {c d : UInt8} {s t pre : List UInt8}

/-- The loop finds what is found in the string. -/
lemma strchrFrom_spells (h : Spells m (str + i) s) (hk : s.length < k) :
    strchrFrom m str c k i = .ok ((s.findIdx? (· = c)).elim str (str + i + ·)) := by
  induction s generalizing i k with
  | nil =>
    cases k with
    | zero => cases hk
    | succ k => exact if_pos (spells_nil.mp h)
  | cons x s ih =>
    cases k with
    | zero => cases hk
    | succ k =>
      rw [length_cons] at hk
      rw [strchrFrom, if_neg h.head_ne, h.1, findIdx?_cons]
      by_cases hx : x = c
      · rw [if_pos hx, if_pos (decide_eq_true hx)]
        rfl
      · rw [if_neg hx, if_neg (by simpa using hx), ih (i := i + 1) h.2.2 (by omega)]
        cases s.findIdx? (· = c) with
        | none => rfl
        | some j => exact congrArg Except.ok (by dsimp only [Option.map_some, Option.elim_some]; omega)

/-- `cl_strchr` finds what is found in the string. -/
lemma clStrchr_spells (h0 : str ≠ 0) (h : Spells m str s) (hs : s.length < 2 ^ 32) :
    clStrchr m str c = .ok (str + HAL9000.clStrchr s c) := by
  rw [clStrchr, if_neg h0, strchrFrom_spells (i := 0) h hs, HAL9000.clStrchr]
  cases s.findIdx? (· = c) with
  | none => rfl
  | some j => rfl

section

variable (h0 : str ≠ 0) (h : Spells m str s) (hs : s.length < 2 ^ 32) (hf : s.length < fuel)
include h0 h hs hf

lemma strcelemFrom_spells (hn : n + counted d false s < 2 ^ 32) :
    strcelemFrom m d fuel str n = .ok (n + counted d false s) := by
  induction fuel generalizing str s n with
  | zero => cases hf
  | succ fuel ih =>
    rw [strcelemFrom, clStrchr_spells h0 h hs, bind_okay]
    by_cases hd : d ∈ s
    · obtain ⟨pre, t, rfl, hpre⟩ := eq_append_cons_of_mem hd
      have hfound : HAL9000.clStrchr (pre ++ d :: t) d = pre.length := by
        simp [HAL9000.clStrchr, findIdx?_append, findIdx?_notMem hpre, findIdx?_cons]
      rw [length_append, length_cons] at hs hf
      rw [hfound]
      rw [counted_append hpre, counted, if_pos rfl] at hn ⊢
      cases pre with
      | nil =>
        rw [if_neg (by simp)]
        simp
      | cons x pre =>
        simp only [isEmpty_cons, Bool.not_false, Bool.or_true, if_true] at hn ⊢
        rw [if_pos (by rw [length_cons]; omega), wadd_eq (by omega),
          ih (by omega) (Spells.behind h) (by omega) (by omega) (by omega), Nat.add_assoc, Nat.add_comm 1]
    · rw [HAL9000.clStrchr, findIdx?_notMem hd, if_neg (by simp)]
      have hzero : counted d false s = 0 := Nat.le_zero.mp (counted_le.trans (List.count_eq_zero.mpr hd).le)
      rw [hzero]
      rfl

lemma clStrcelem_spells : clStrcelem fuel m str d = .ok (1 + counted d false s) := by
  have hhalf : 2 * counted d false s ≤ s.length + if false then 1 else 0 := counted_half
  rw [if_neg Bool.false_ne_true] at hhalf
  rw [clStrcelem, if_neg h0, strcelemFrom_spells h0 h hs hf (by omega)]

end

lemma counted_eq_count_iff : counted d false s = s.count d ↔ Separated d s := by
  have h := counted_eq_iff (d := d) (c := d) (s := s)
  rwa [show decide (d ≠ d) = false by simp] at h

end Count

section Tokens

variable {m : Mem} {strToken context str i k fuel : Nat} {ds s t pre : List UInt8} {c : UInt8}

lemma strtokFrom_found (h : Spells m (str + i) (pre ++ c :: t)) (hpre : ∀ x ∈ pre, x ∉ ds) (hc : c ∈ ds)
    (hk : pre.length < k) : strtokFrom m str ds k i =
      .ok (update m (str + i + pre.length) 0, str + i + pre.length + 1) := by
  induction pre generalizing i k with
  | nil =>
    cases k with
    | zero => cases hk
    | succ k =>
      rw [strtokFrom, if_neg h.head_ne, h.1, if_pos hc, length_nil, pure_okay]
      rfl
  | cons x pre ih =>
    cases k with
    | zero => cases hk
    | succ k =>
      rw [length_cons] at hk
      rw [strtokFrom, if_neg h.head_ne, h.1, if_neg (hpre x mem_cons_self),
        ih (i := i + 1) h.2.2 (fun y hy => hpre y (mem_cons_of_mem x hy)) (by omega), length_cons,
        show str + (i + 1) + pre.length = str + i + (pre.length + 1) by omega]

lemma strtokFrom_none (h : Spells m (str + i) s) (hs : ∀ x ∈ s, x ∉ ds) (hk : s.length < k) :
    strtokFrom m str ds k i = .ok (m, str + i + s.length) := by
  induction s generalizing i k with
  | nil =>
    cases k with
    | zero => cases hk
    | succ k => rw [strtokFrom, if_pos (spells_nil.mp h), length_nil, Nat.add_zero, pure_okay]
  | cons x s ih =>
    cases k with
    | zero => cases hk
    | succ k =>
      rw [length_cons] at hk
      rw [strtokFrom, if_neg h.head_ne, h.1, if_neg (hs x mem_cons_self),
        ih (i := i + 1) h.2.2 (fun y hy => hs y (mem_cons_of_mem x hy)) (by omega), length_cons,
        show str + (i + 1) + s.length = str + i + (s.length + 1) by omega]

/-- Every delimiter ends a token, and so does the end of the string unless it is right behind a delimiter. -/
lemma tokens_spells (h0 : str ≠ 0) (hstr : (if context = 0 then strToken else context) = str)
    (h : Spells m str s) (hs : s.length < 2 ^ 32) (hf : s.length < fuel) :
    tokens m strToken ds fuel context =
      .ok (s.countP (· ∈ ds) + if s.getLast?.all (· ∈ ds) = true then 0 else 1) := by
  induction fuel generalizing m str context s with
  | zero => cases hf
  | succ fuel ih =>
    have hnull : ¬ (context = 0 ∧ strToken = 0) := by
      rintro ⟨hc, ht⟩
      rw [if_pos hc] at hstr
      exact h0 (hstr.symm.trans ht)
    rw [tokens, clStrtokS, if_neg hnull]
    dsimp only
    rw [hstr]
    cases s with
    | nil =>
      rw [if_pos (spells_nil.mp h)]
      rfl
    | cons x s =>
      rw [if_neg h.head_ne]
      by_cases hd : ∃ c ∈ x :: s, c ∈ ds
      · obtain ⟨pre, c, t, heq, hc, hpre⟩ := exists_first hd
        rw [heq] at h hs hf ⊢
        rw [length_append, length_cons] at hs hf
        have hrest : Spells (update m (str + 0 + pre.length) 0) (str + 0 + pre.length + 1) t :=
          h.behind.congr fun x hx => update_of_ne (by have := hx.1; omega) ..
        have hlast : (pre ++ c :: t).getLast?.all (· ∈ ds) = t.getLast?.all (· ∈ ds) := by
          rw [getLast?_append, getLast?_cons, Option.some_or]
          cases t.getLast? with
          | none => exact decide_eq_true hc
          | some e => rfl
        have hzero : pre.countP (· ∈ ds) = 0 := countP_eq_zero.mpr (by simpa using hpre)
        rw [strtokFrom_found (i := 0) h hpre hc (by omega), bind_okay, pure_okay, bind_okay, if_neg h0,
          ih (by omega) (if_neg (Nat.succ_ne_zero _)) hrest (by omega) (by omega), bind_okay, hlast, countP_append,
          hzero, countP_cons_of_pos (by simpa using hc)]
        exact congrArg Except.ok (by omega)
      · have hall : ∀ y ∈ x :: s, y ∉ ds := fun y hy hyds => hd ⟨y, hy, hyds⟩
        have hzero : (x :: s).countP (· ∈ ds) = 0 := countP_eq_zero.mpr (by simpa using hall)
        have hend : str + 0 + (x :: s).length ≠ 0 := by omega
        have hlast : ¬ (x :: s).getLast?.all (· ∈ ds) = true := by
          rw [getLast?_eq_some_getLast (cons_ne_nil x s), Option.all_some]
          simpa using hall _ (getLast_mem (cons_ne_nil x s))
        rw [strtokFrom_none (i := 0) h hall hs, bind_okay, pure_okay, bind_okay, if_neg h0,
          ih (s := []) hend (if_neg hend) h.last (by decide)
            (by rw [length_cons] at hf; exact Nat.zero_lt_of_lt (Nat.lt_of_succ_lt_succ hf)),
          bind_okay, hzero, if_neg hlast]
        rfl

end Tokens

end HAL9000.CString
