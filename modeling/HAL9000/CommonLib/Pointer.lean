import HAL9000.Lib.CString
import HAL9000.CommonLib.Base

/-!
# Functions on pointers

Port of `cl_memmove` (`CommonLib/src/cl_memory.c`) and of functions of `CommonLib/src/cl_string.c`. A pointer is
an address, 0 for `NULL`; `W` are the bytes that may be accessed.

`cl_memmove` copies the bytes one by one, the first one first. `Copied` is what is in memory then: a byte that
has been overwritten before it is read is read as it is overwritten.
-/

namespace HAL9000.CString
open Lib Function

/-- The loop of `cl_memmove`, with `k` bytes left. -/
def memmoveFrom (W : Nat → Prop) [DecidablePred W] (dst src : Nat) : Nat → Nat → Mem → Exec Mem
  | 0, _, m => pure m
  | k + 1, i, m => do
    let b ← peek W m (src + i)
    let m ← poke W m (dst + i) b
    memmoveFrom W dst src k (i + 1) m

/-- (C `cl_memmove`) -/
def clMemmove (W : Nat → Prop) [DecidablePred W] (m : Mem) (destination source count : Nat) : Exec Mem :=
  if destination = 0 ∨ source = 0 then pure m else memmoveFrom W destination source count 0 m

/-- The loop of `cl_strlen`. The index is a `DWORD`: after `2 ^ 32` bytes it is 0 again, and the loop does
    not end. -/
def strlenFrom (W : Nat → Prop) [DecidablePred W] (m : Mem) (str : Nat) : Nat → Nat → Exec Nat
  | 0, _ => throw .fuel
  | k + 1, i => do
    let c ← peek W m (str + i)
    if c = 0 then pure i else strlenFrom W m str k (i + 1)

/-- (C `cl_strlen`) -/
def clStrlen (W : Nat → Prop) [DecidablePred W] (m : Mem) (str : Nat) : Exec Nat := strlenFrom W m str (2 ^ 32) 0

/-- The loop of `cl_strlen_s`, with `k` bytes left. -/
def strlenSFrom (m : Mem) (str : Nat) : Nat → Nat → Nat
  | 0, i => i
  | k + 1, i => if m (str + i) = 0 then i else strlenSFrom m str k (i + 1)

/-- (C `cl_strlen_s`) -/
def clStrlenS (m : Mem) (str maxLen : Nat) : Nat := if str = 0 then maxDword else strlenSFrom m str maxLen 0

/-- The loop of `cl_strncpy`, with `k` characters left, and the terminator behind it. The bytes of `W` may be
    written. -/
def strncpyFrom (W : Nat → Prop) [DecidablePred W] (dst src : Nat) : Nat → Nat → Mem → Exec Mem
  | 0, i, m => poke W m (dst + i) 0
  | k + 1, i, m =>
    if m (src + i) = 0 then poke W m (dst + i) 0
    else do
      let m ← poke W m (dst + i) (m (src + i))
      strncpyFrom W dst src k (i + 1) m

/-- (C `cl_strncpy`) -/
def clStrncpy (W : Nat → Prop) [DecidablePred W] (m : Mem) (dst src length : Nat) : Exec Mem := do
  ensure (dst ≠ 0)
  ensure (src ≠ 0)
  ensure (length ≠ 0)
  strncpyFrom W dst src length 0 m

/-- The bytes of the source are in the destination, and nothing else has changed. -/
def Moved (m m' : Mem) (dst src n : Nat) : Prop := (∀ i < n, m' (dst + i) = m (src + i)) ∧ Within (Span dst n) m m'

/-- What copying `n` bytes one by one leaves in memory. -/
structure Copied (m m' : Mem) (dst src n : Nat) : Prop where
  bytes : ∀ i < n, m' (dst + i) = if Span dst i (src + i) then m' (src + i) else m (src + i)
  frame : Within (Span dst n) m m'

section Memmove

variable {W : Nat → Prop} [DecidablePred W] {m m' : Mem} {dst src n i k : Nat}

lemma Copied.zero (m : Mem) : Copied m m dst src 0 := ⟨fun _ h => absurd h (by omega), Within.refl _ _⟩

lemma Copied.step (h : Copied m m' dst src i) :
    Copied m (update m' (dst + i) (m' (src + i))) dst src (i + 1) := by
  refine ⟨fun j hj => ?_, fun x hx => ?_⟩
  · by_cases hji : j = i
    · subst hji
      rw [update_self]
      by_cases hspan : Span dst j (src + j)
      · rw [if_pos hspan, update_of_ne (by have := hspan.2; omega)]
      · rw [if_neg hspan]
        exact h.frame _ hspan
    · rw [update_of_ne (by omega), h.bytes j (by omega)]
      by_cases hspan : Span dst j (src + j)
      · rw [if_pos hspan, if_pos hspan, update_of_ne (by have := hspan.2; omega)]
      · rw [if_neg hspan, if_neg hspan]
  · rw [update_of_ne fun hxi => hx ⟨by omega, by omega⟩]
    exact h.frame x fun hspan => hx (hspan.mono le_rfl (by omega))

lemma memmoveFrom_copied {m₀ : Mem} (hW : ∀ j, i ≤ j → j < i + k → W (src + j) ∧ W (dst + j))
    (h : Copied m₀ m dst src i) :
    ∃ m', memmoveFrom W dst src k i m = .ok m' ∧ Copied m₀ m' dst src (i + k) := by
  induction k generalizing i m with
  | zero => exact ⟨m, rfl, h⟩
  | succ k ih =>
    obtain ⟨hsrc, hdst⟩ := hW i (by omega) (by omega)
    obtain ⟨m', hrun, hm'⟩ := ih (fun j h1 h2 => hW j (by omega) (by omega)) h.step
    rw [memmoveFrom, peek_pos hsrc, bind_okay, poke_pos hdst, bind_okay]
    refine ⟨m', hrun, ?_⟩
    rwa [show i + (k + 1) = i + 1 + k by omega]

lemma memmoveFrom_wild (hdst : ∀ j, i ≤ j → j < i + k → W (dst + j))
    (hsrc : ∃ j, i ≤ j ∧ j < i + k ∧ ¬ W (src + j)) : memmoveFrom W dst src k i m = .error .wild := by
  induction k generalizing i m with
  | zero =>
    obtain ⟨j, h1, h2, -⟩ := hsrc
    omega
  | succ k ih =>
    rw [memmoveFrom]
    by_cases hW : W (src + i)
    · rw [peek_pos hW, bind_okay, poke_pos (hdst i (by omega) (by omega)), bind_okay]
      refine ih (fun j h1 h2 => hdst j (by omega) (by omega)) ?_
      obtain ⟨j, h1, h2, hn⟩ := hsrc
      have hji : j ≠ i := fun hji => hn (hji ▸ hW)
      exact ⟨j, by omega, by omega, hn⟩
    · rw [peek_neg hW]
      rfl

lemma Copied.moved (h : Copied m m' dst src n) (hpos : dst ≤ src ∨ src + n ≤ dst) : Moved m m' dst src n := by
  refine ⟨fun i hi => ?_, h.frame⟩
  rw [h.bytes i hi, if_neg]
  rintro ⟨h1, h2⟩
  omega

lemma Copied.again (h : Copied m m' dst src n) (hlt : src < dst) (hn : dst < src + n) :
    m' (dst + (dst - src)) = m src := by
  have hsrc : src + (dst - src) = dst := by omega
  have h0 := h.bytes 0 (by omega)
  rw [if_neg fun hspan => by have := hspan.1; omega] at h0
  rw [h.bytes (dst - src) (by omega), hsrc, if_pos ⟨by omega, by omega⟩]
  exact h0

lemma clMemmove_copied (hd : dst ≠ 0) (hs : src ≠ 0) (hW : ∀ j < n, W (src + j) ∧ W (dst + j)) :
    ∃ m', clMemmove W m dst src n = .ok m' ∧ Copied m m' dst src n := by
  rw [clMemmove, if_neg (by omega)]
  obtain ⟨m', hrun, hm'⟩ := memmoveFrom_copied (m := m) (i := 0) (k := n) (fun j _ hj => hW j (by omega))
    (Copied.zero m)
  rw [Nat.zero_add] at hm'
  exact ⟨m', hrun, hm'⟩

end Memmove

section Strlen

variable {W : Nat → Prop} [DecidablePred W] {m : Mem} {str i k n : Nat} {s : List UInt8}

lemma strlenFrom_spells (h : Spells m (str + i) s) (hW : ∀ x, Span (str + i) (s.length + 1) x → W x)
    (hk : s.length < k) : strlenFrom W m str k i = .ok (i + s.length) := by
  induction s generalizing i k with
  | nil =>
    cases k with
    | zero => cases hk
    | succ k =>
      rw [strlenFrom, peek_pos (hW _ ⟨le_rfl, by simp⟩), bind_okay]
      exact if_pos h
  | cons c s ih =>
    cases k with
    | zero => cases hk
    | succ k =>
      rw [List.length_cons] at hk
      have hrec := ih (i := i + 1) h.2.2 (fun x hx => hW x ⟨by have := hx.1; omega, ?_⟩) (Nat.lt_of_succ_lt_succ hk)
      · rw [strlenFrom, peek_pos (hW _ ⟨le_rfl, by simp⟩), bind_okay, if_neg h.head_ne, hrec, List.length_cons]
        exact congrArg Except.ok (by omega)
      · have := hx.2
        rw [List.length_cons]
        omega

lemma clStrlen_spells (h : Spells m str s) (hW : ∀ x, Span str (s.length + 1) x → W x)
    (hs : s.length < 2 ^ 32) : clStrlen W m str = .ok s.length := by
  rw [clStrlen, strlenFrom_spells (i := 0) h hW hs, Nat.zero_add]

lemma strlenSFrom_le : strlenSFrom m str k i ≤ i + k := by
  induction k generalizing i with
  | zero => exact le_rfl
  | succ k ih =>
    rw [strlenSFrom]
    split
    · exact Nat.le_add_right ..
    · exact ih.trans (by omega)

lemma strlenSFrom_hasLength (h : HasLength m (str + i) n) : strlenSFrom m str k i = i + min n k := by
  induction k generalizing i n with
  | zero => rw [strlenSFrom, Nat.min_zero, Nat.add_zero]
  | succ k ih =>
    rw [strlenSFrom]
    cases n with
    | zero => exact (if_pos h.2).trans (by rw [Nat.zero_min, Nat.add_zero])
    | succ n =>
      have hrest : HasLength m (str + (i + 1)) n := by
        refine ⟨fun j hj => ?_, ?_⟩
        · rw [show str + (i + 1) + j = str + i + (j + 1) by omega]
          exact h.1 (j + 1) (by omega)
        · rw [show str + (i + 1) + n = str + i + (n + 1) by omega]
          exact h.2
      refine (if_neg (h.1 0 (Nat.succ_pos n))).trans ?_
      rw [ih hrest]
      omega

lemma clStrlenS_le (m : Mem) (maxLen : Nat) (h0 : str ≠ 0) : clStrlenS m str maxLen ≤ maxLen := by
  rw [clStrlenS, if_neg h0]
  exact strlenSFrom_le.trans (Nat.zero_add maxLen).le

lemma clStrlenS_hasLength {maxLen : Nat} (h0 : str ≠ 0) (h : HasLength m str n) :
    clStrlenS m str maxLen = min n maxLen := by
  rw [clStrlenS, if_neg h0, strlenSFrom_hasLength (i := 0) h, Nat.zero_add]

end Strlen

section Strncpy

variable {W : Nat → Prop} [DecidablePred W] {m : Mem} {dst src i k n : Nat}

lemma strncpy_stop (hW : W (dst + i)) (hne : ∀ j < i, m (dst + j) ≠ 0) (hi : i < n) :
    ∃ m', poke W m (dst + i) 0 = .ok m' ∧ HasLength m' dst i ∧ Within (Span dst n) m m' := by
  refine ⟨_, poke_pos hW, ⟨fun j hj => ?_, update_self ..⟩,
    fun x hx => update_of_ne (fun hxi => hx ⟨by omega, by omega⟩) ..⟩
  rw [update_of_ne (by omega)]
  exact hne j hj

lemma strncpyFrom_ok (src : Nat) (hW : ∀ x, Span dst n x → W x) (hn : i + k < n) (hne : ∀ j < i, m (dst + j) ≠ 0) :
    ∃ m' len, strncpyFrom W dst src k i m = .ok m' ∧ HasLength m' dst len ∧ len ≤ i + k ∧
      Within (Span dst n) m m' := by
  induction k generalizing i m with
  | zero =>
    obtain ⟨m', hrun, hm'⟩ := strncpy_stop (hW (dst + i) ⟨by omega, by omega⟩) hne hn
    exact ⟨m', i, hrun, hm'.1, le_rfl, hm'.2⟩
  | succ k ih =>
    have hWi : W (dst + i) := hW _ ⟨by omega, by omega⟩
    rw [strncpyFrom]
    by_cases h0 : m (src + i) = 0
    · rw [if_pos h0]
      obtain ⟨m', hrun, hm'⟩ := strncpy_stop (n := n) hWi hne (by omega)
      exact ⟨m', i, hrun, hm'.1, by omega, hm'.2⟩
    · rw [if_neg h0, poke_pos hWi, bind_okay]
      obtain ⟨m', len, hrun, hlen, hle, hin⟩ := ih (i := i + 1)
        (m := update m (dst + i) (m (src + i))) (by omega) fun j hj => by
          by_cases hji : j = i
          · rw [hji, update_self]
            exact h0
          · rw [update_of_ne (by omega)]
            exact hne j (by omega)
      refine ⟨m', len, hrun, hlen, by omega, Within.trans (fun x hx => ?_) hin⟩
      exact update_of_ne (fun hxi => hx ⟨by omega, by omega⟩) ..

lemma clStrncpy_ok (length : Nat) (hd : dst ≠ 0) (hs : src ≠ 0) (h0 : length ≠ 0)
    (hW : ∀ x, Span dst (length + 1) x → W x) :
    ∃ m' len, clStrncpy W m dst src length = .ok m' ∧ HasLength m' dst len ∧ len ≤ length ∧
      Within (Span dst (length + 1)) m m' := by
  obtain ⟨m', len, hrun, hlen, hle, hin⟩ := strncpyFrom_ok (i := 0) (k := length) (m := m) src hW (by omega)
    fun j hj => absurd hj (Nat.not_lt_zero j)
  refine ⟨m', len, ?_, hlen, by omega, hin⟩
  rw [clStrncpy, ensure_pos hd, bind_okay, ensure_pos hs, bind_okay, ensure_pos h0, bind_okay, hrun]

lemma strncpy_end {xs : List UInt8} (hW : W (dst + xs.length)) (hxs : Holds m dst xs) (hne : ∀ c ∈ xs, c ≠ 0) :
    ∃ m', poke W m (dst + xs.length) 0 = .ok m' ∧ Spells m' dst xs := by
  refine ⟨_, poke_pos hW, spells_iff.mpr ⟨fun i hi => ?_, hne, update_self ..⟩⟩
  rw [update_of_ne (by omega), hxs i hi]

lemma strncpyFrom_spells {ys : List UInt8} (xs : List UInt8) (hW : ∀ x, Span dst n x → W x)
    (hn : xs.length + k < n) (hxs : Holds m dst xs) (hne : ∀ c ∈ xs, c ≠ 0) (hys : Spells m (src + xs.length) ys)
    (hapart : ∀ x, Span src (xs.length + ys.length + 1) x → ¬ Span dst n x) :
    ∃ m', strncpyFrom W dst src k xs.length m = .ok m' ∧ Spells m' dst (xs ++ ys.take k) := by
  have hWi : W (dst + xs.length) := hW _ ⟨by omega, by omega⟩
  induction k generalizing xs ys m with
  | zero =>
    rw [List.take_zero, List.append_nil]
    exact strncpy_end hWi hxs hne
  | succ k ih =>
    cases ys with
    | nil =>
      rw [strncpyFrom, if_pos (spells_nil.mp hys), List.take_nil, List.append_nil]
      exact strncpy_end hWi hxs hne
    | cons y ys =>
      rw [List.length_cons] at hapart
      have hout : ∀ i ≤ xs.length + ys.length + 1, src + i ≠ dst + xs.length := fun i hi heq =>
        hapart (src + i) ⟨by omega, by omega⟩ (heq ▸ ⟨by omega, by omega⟩)
      rw [strncpyFrom, if_neg hys.head_ne, poke_pos hWi, bind_okay, hys.1, List.take_succ_cons, List.append_cons]
      have hlen : (xs ++ [y]).length = xs.length + 1 := List.length_append
      rw [← hlen]
      refine ih _ (by omega) (holds_append.mpr ⟨fun i hi => ?_, holds_cons.mpr ⟨update_self .., nofun⟩⟩) ?_ ?_ ?_ ?_
      · rw [update_of_ne (by omega), hxs i hi]
      · intro c hc
        rw [List.mem_append, List.mem_singleton] at hc
        exact hc.elim (hne c) fun hcy => hcy ▸ hys.2.1
      · rw [hlen]
        refine hys.2.2.move fun i hi => ?_
        rw [update_of_ne (by have := hout (xs.length + 1 + i) (by omega); omega)]
        congr 1
      · rw [hlen]
        exact fun x hx => hapart x (hx.mono le_rfl (by omega))
      · exact hW _ ⟨by omega, by omega⟩

lemma clStrncpy_spells {length : Nat} {t : List UInt8} (hd : dst ≠ 0) (hs : src ≠ 0) (h0 : length ≠ 0)
    (hW : ∀ x, Span dst (length + 1) x → W x) (ht : Spells m src t)
    (hapart : ∀ x, Span src (t.length + 1) x → ¬ Span dst (length + 1) x) :
    ∃ m', clStrncpy W m dst src length = .ok m' ∧ Spells m' dst (t.take length) ∧
      Within (Span dst (length + 1)) m m' := by
  obtain ⟨m', -, hrun, -, -, hin⟩ := clStrncpy_ok (m := m) length hd hs h0 hW
  obtain ⟨m'', hrun', hspells⟩ := strncpyFrom_spells [] (k := length) hW (by simp) nofun nofun ht
    (by rwa [List.length_nil, Nat.zero_add])
  refine ⟨m', hrun, ?_, hin⟩
  rw [clStrncpy, ensure_pos hd, bind_okay, ensure_pos hs, bind_okay, ensure_pos h0, bind_okay] at hrun
  cases hrun.symm.trans hrun'
  exact hspells

end Strncpy

/-- The bytes of the source are moved, whatever is in memory, unless a pointer is `NULL` or the destination
    starts inside the source. -/
theorem clMemmove_moved_iff (dst src n : Nat) :
    (∀ m, ∃ m', clMemmove (fun _ => True) m dst src n = .ok m' ∧ Moved m m' dst src n) ↔
      n = 0 ∨ dst = src ∨ dst ≠ 0 ∧ src ≠ 0 ∧ (dst < src ∨ src + n ≤ dst) := by
  have hall : ∀ j < n, True ∧ True := fun _ _ => ⟨trivial, trivial⟩
  constructor
  · intro h
    by_contra hno
    -- only the first byte of the source is 1
    obtain ⟨m', hrun, hbytes, -⟩ := h fun x => if x = src then 1 else 0
    by_cases hnull : dst = 0 ∨ src = 0
    · rw [clMemmove, if_pos hnull] at hrun
      obtain rfl := Except.ok.inj hrun
      have h0 := hbytes 0 (by omega)
      simp only [Nat.add_zero, if_true] at h0
      rw [if_neg (by omega)] at h0
      cases h0
    · obtain ⟨hd, hs⟩ := not_or.mp hnull
      obtain ⟨m'', hrun', hcopied⟩ := clMemmove_copied (W := fun _ => True)
        (m := fun x => if x = src then 1 else 0) hd hs hall
      obtain rfl := Except.ok.inj (hrun.symm.trans hrun')
      have hagain := hcopied.again (by omega) (by omega)
      rw [hbytes (dst - src) (by omega)] at hagain
      dsimp only at hagain
      rw [if_neg (by omega), if_pos rfl] at hagain
      cases hagain
  · rintro h m
    by_cases hnull : dst = 0 ∨ src = 0
    · rw [clMemmove, if_pos hnull]
      refine ⟨m, rfl, fun i hi => ?_, Within.refl _ m⟩
      rw [show dst = src by omega]
    · obtain ⟨hd, hs⟩ := not_or.mp hnull
      obtain ⟨m', hrun, hcopied⟩ := clMemmove_copied (W := fun _ => True) (m := m) hd hs hall
      refine ⟨m', hrun, ?_⟩
      by_cases h0 : n = 0
      · subst h0
        exact ⟨fun i hi => absurd hi (by omega), hcopied.frame⟩
      · exact hcopied.moved (by omega)

/-- Two bytes, moved up by one: the first one is lost. -/
theorem clMemmove_overlap : ∃ m m' : Mem, clMemmove (fun _ => True) m 2 1 2 = .ok m' ∧ ¬ Moved m m' 2 1 2 := by
  refine ⟨fun x => UInt8.ofNat x, _, rfl, fun h => ?_⟩
  have h1 := h.1 1 (by decide)
  revert h1
  decide

def textAt (s : List UInt8) : Mem := fun x => if x = 0 then 0 else s.getD (x - 1) 0

end HAL9000.CString
