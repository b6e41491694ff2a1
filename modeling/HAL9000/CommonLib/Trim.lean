import HAL9000.CommonLib.Pointer
import Mathlib.Data.List.DropRight

/-!
# Trimming

Port of `cl_strtrim` (`CommonLib/src/cl_string.c`). What is left in memory is the string without the
whitespace around it. But the shift to the left moves as many bytes as the string had with its leading
whitespace, so it reads behind the terminator when there is much of it.
-/

namespace HAL9000.CString
open Lib Function List

/-- (C `isspace`) -/
def isSpace (c : UInt8) : Bool := c == 0x20 || c == 0x09 || c == 0x0A || c == 0x0D

/-- The first loop of `cl_strtrim`: find the first character that is not a space. -/
def firstNonSpace (W : Nat → Prop) [DecidablePred W] (m : Mem) (string : Nat) : Nat → Nat → Exec Nat
  | 0, _ => throw .fuel
  | k + 1, i => do
    let c ← peek W m (string + i)
    if c = 0 then pure maxDword
    else if !isSpace c then pure i
    else firstNonSpace W m string k (i + 1)

/-- The second loop of `cl_strtrim`: put a zero byte behind the last character that is not a space. -/
def trimRight (W : Nat → Prop) [DecidablePred W] (m : Mem) (string startIndex lengthAfterRightTrim : Nat) :
    Nat → Exec (Mem × Nat)
  | 0 => pure (m, lengthAfterRightTrim)
  | i + 1 =>
    if i + 1 > startIndex then do
      let c ← peek W m (string + i)
      if !isSpace c then do
        let m ← poke W m (string + (i + 1)) 0
        pure (m, i + 1)
      else trimRight W m string startIndex lengthAfterRightTrim i
    else pure (m, lengthAfterRightTrim)

/-- (C `cl_strtrim`) -/
def clStrtrim (W : Nat → Prop) [DecidablePred W] (m : Mem) (string : Nat) : Exec Mem := do
  ensure (string ≠ 0)
  let startIndex ← firstNonSpace W m string (2 ^ 32) 0
  if startIndex = maxDword then poke W m string 0
  else do
    let length ← clStrlen W m string
    let (m, lengthAfterRightTrim) ← trimRight W m string startIndex length length
    if startIndex ≠ 0 then do
      ensure (lengthAfterRightTrim ≠ 0)
      clMemmove W m string (string + startIndex) lengthAfterRightTrim
    else pure m

def trimmed (s : List UInt8) : List UInt8 := (s.dropWhile isSpace).rdropWhile isSpace

/-- The number of whitespace characters at the start. -/
def leading (s : List UInt8) : Nat := (s.takeWhile isSpace).length

/-- The length up to the last character that is not a space. -/
def rightLength (s : List UInt8) : Nat := (s.rdropWhile isSpace).length

section Lists

variable {s : List UInt8} {i : Nat}

lemma blank_or_text (s : List UInt8) : (∀ c ∈ s, isSpace c = true) ∨ ∃ c ∈ s, isSpace c = false := by
  by_cases hex : ∃ c ∈ s, isSpace c = false
  · exact .inr hex
  · refine .inl fun c hc => ?_
    by_contra hcs
    exact hex ⟨c, hc, Bool.eq_false_iff.mpr hcs⟩

lemma leading_le (s : List UInt8) : leading s ≤ s.length := (List.takeWhile_prefix _).length_le

lemma rightLength_le (s : List UInt8) : rightLength s ≤ s.length := (List.rdropWhile_prefix ..).length_le

lemma leading_lt (h : ∃ c ∈ s, isSpace c = false) : leading s < s.length := by
  induction s with
  | nil =>
    obtain ⟨c, hc, -⟩ := h
    cases hc
  | cons d s ih =>
    rw [leading, takeWhile_cons]
    split
    · next hd =>
      obtain ⟨c, hc, hcs⟩ := h
      obtain rfl | hc := List.mem_cons.mp hc
      · cases hd.symm.trans hcs
      · exact Nat.succ_lt_succ (ih ⟨c, hc, hcs⟩)
    · simp

lemma isSpace_leading (h : leading s < s.length) : isSpace s[leading s] = false := by
  induction s with
  | nil => cases h
  | cons d s ih =>
    cases hd : isSpace d with
    | false =>
      have h0 : leading (d :: s) = 0 := by simp [leading, hd]
      simp only [h0, getElem_cons_zero, hd]
    | true =>
      have h1 : leading (d :: s) = leading s + 1 := by simp [leading, hd]
      simp only [h1, getElem_cons_succ]
      rw [h1, length_cons] at h
      exact ih (by omega)

lemma rdropWhile_append {p : UInt8 → Bool} {xs ys : List UInt8} (h : ∃ c ∈ ys, p c = false) :
    (xs ++ ys).rdropWhile p = xs ++ ys.rdropWhile p := by
  induction ys using reverseRecOn with
  | nil =>
    obtain ⟨c, hc, -⟩ := h
    cases hc
  | append_singleton ys y ih =>
    rw [← append_assoc]
    cases hy : p y with
    | true =>
      rw [rdropWhile_concat_pos _ _ _ hy, rdropWhile_concat_pos _ _ _ hy]
      refine ih ?_
      obtain ⟨c, hc, hcs⟩ := h
      obtain hc | hc := List.mem_append.mp hc
      · exact ⟨c, hc, hcs⟩
      · obtain rfl := List.mem_singleton.mp hc
        cases hy.symm.trans hcs
    | false =>
      rw [rdropWhile_concat_neg _ _ _ (by simp [hy]), rdropWhile_concat_neg _ _ _ (by simp [hy]),
        append_assoc]

lemma rdropWhile_eq_leading_trimmed (h : ∃ c ∈ s, isSpace c = false) :
    s.rdropWhile isSpace = s.takeWhile isSpace ++ trimmed s := by
  have hsplit : s.takeWhile isSpace ++ s.dropWhile isSpace = s := takeWhile_append_dropWhile
  obtain ⟨c, hc, hcs⟩ := h
  have hmem : c ∈ s.dropWhile isSpace := by
    rw [← hsplit] at hc
    obtain hc | hc := List.mem_append.mp hc
    · cases hcs.symm.trans (List.all_eq_true.mp all_takeWhile _ hc)
    · exact hc
  rw [trimmed, ← rdropWhile_append ⟨c, hmem, hcs⟩, hsplit]

lemma rdropWhile_eq_take (s : List UInt8) : s.rdropWhile isSpace = s.take (rightLength s) :=
  List.prefix_iff_eq_take.mp (List.rdropWhile_prefix ..)

lemma rightLength_eq (h : ∃ c ∈ s, isSpace c = false) : rightLength s = leading s + (trimmed s).length := by
  rw [rightLength, rdropWhile_eq_leading_trimmed h, length_append, leading]

lemma drop_leading (h : ∃ c ∈ s, isSpace c = false) : (s.take (rightLength s)).drop (leading s) = trimmed s := by
  rw [← rdropWhile_eq_take, rdropWhile_eq_leading_trimmed h]
  exact drop_left

lemma trimmed_blank (h : ∀ c ∈ s, isSpace c = true) : trimmed s = [] := by
  rw [trimmed, List.dropWhile_eq_nil_iff.mpr h, rdropWhile_nil]

lemma rightLength_blank (h : ∀ c ∈ s, isSpace c = true) : rightLength s = 0 := by
  rw [rightLength, (rdropWhile_eq_nil_iff ..).mpr h, length_nil]

end Lists

section Loops

variable {W : Nat → Prop} [DecidablePred W] {m m' : Mem} {string i k : Nat} {s : List UInt8}

lemma firstNonSpace_spells (h : Spells m (string + i) s) (hW : ∀ x, Span (string + i) (s.length + 1) x → W x)
    (hk : s.length < k) :
    firstNonSpace W m string k i = .ok (if s.all isSpace then maxDword else i + leading s) := by
  induction s generalizing i k with
  | nil =>
    cases k with
    | zero => cases hk
    | succ k =>
      rw [firstNonSpace, peek_pos (hW _ ⟨le_rfl, by simp⟩), bind_okay]
      exact if_pos h
  | cons c s ih =>
    cases k with
    | zero => cases hk
    | succ k =>
      rw [length_cons] at hk
      rw [firstNonSpace, peek_pos (hW _ ⟨le_rfl, by simp⟩), bind_okay, if_neg h.head_ne, h.1]
      cases hc : isSpace c with
      | false => simp [hc, leading]
      | true =>
        rw [Bool.not_true, if_neg Bool.false_ne_true,
          ih (i := i + 1) h.2.2 (fun x hx => hW x ⟨?_, ?_⟩) (Nat.lt_of_succ_lt_succ hk)]
        · simp only [all_cons, hc, Bool.true_and, leading, takeWhile_cons, if_true, length_cons]
          rw [show i + 1 + (s.takeWhile isSpace).length = i + ((s.takeWhile isSpace).length + 1) by omega]
        · have := hx.1
          omega
        · have := hx.2
          rw [length_cons]
          omega

lemma trimRight_spells {start n : Nat} (h : Spells m string s) (hW : ∀ x, Span string (s.length + 1) x → W x)
    (hi : i ≤ s.length) (hst : start < i) (hns : isSpace s[start] = false) :
    trimRight W m string start n i = .ok (update m (string + rightLength (s.take i)) 0,
      rightLength (s.take i)) := by
  induction i with
  | zero => cases hst
  | succ i ih =>
    have htake : s.take (i + 1) = s.take i ++ [s[i]] := (take_append_getElem (by omega)).symm
    rw [trimRight, if_pos hst, peek_pos (hW _ ⟨by omega, by omega⟩), bind_okay, h.get (by omega), htake]
    cases hc : isSpace s[i] with
    | false =>
      have hlen : rightLength (s.take i ++ [s[i]]) = i + 1 := by
        rw [rightLength, rdropWhile_concat_neg _ _ _ (by simp [hc]), length_append,
          length_take_of_le (by omega), length_singleton]
      rw [hlen, Bool.not_false, if_pos rfl, poke_pos (hW _ ⟨by omega, by omega⟩), bind_okay]
      rfl
    | true =>
      have hlen : rightLength (s.take i ++ [s[i]]) = rightLength (s.take i) := by
        rw [rightLength, rdropWhile_concat_pos _ _ _ hc, rightLength]
      have hne : start ≠ i := by
        rintro rfl
        cases hc.symm.trans hns
      rw [hlen, Bool.not_true, if_neg Bool.false_ne_true, ih (by omega) (by omega) hns]

section

variable (h0 : string ≠ 0) (h : Spells m string s) (hW : ∀ x, Span string (s.length + 1) x → W x)
  (hs : s.length < 2 ^ 32)
include h0 h hW hs

lemma clStrtrim_blank (hall : ∀ c ∈ s, isSpace c = true) : clStrtrim W m string = .ok (update m string 0) := by
  rw [clStrtrim, ensure_pos h0, bind_okay, firstNonSpace_spells (i := 0) h hW hs,
    if_pos (List.all_eq_true.mpr hall), bind_okay, if_pos rfl, poke_pos (hW _ ⟨le_rfl, by omega⟩)]

lemma clStrtrim_eq (hex : ∃ c ∈ s, isSpace c = false) :
    clStrtrim W m string = if leading s ≠ 0 then
      clMemmove W (update m (string + rightLength s) 0) string (string + leading s) (rightLength s)
      else .ok (update m (string + rightLength s) 0) := by
  have hall : ¬ s.all isSpace = true := by
    obtain ⟨c, hc, hcs⟩ := hex
    exact fun hall => Bool.false_ne_true (hcs.symm.trans (List.all_eq_true.mp hall c hc))
  have hlt := leading_lt hex
  have hright : s.take s.length = s := take_length
  have hloop := trimRight_spells (n := s.length) h hW le_rfl hlt (isSpace_leading hlt)
  rw [hright] at hloop
  rw [clStrtrim, ensure_pos h0, bind_okay, firstNonSpace_spells (i := 0) h hW hs, if_neg hall, bind_okay,
    if_neg (by rw [maxDword]; omega), clStrlen_spells h hW hs, bind_okay, Nat.zero_add, hloop, bind_okay]
  by_cases hz : leading s = 0
  · rw [if_neg (not_not.mpr hz)]
    exact if_neg (not_not.mpr hz)
  · rw [if_pos hz]
    refine (if_pos hz).trans ?_
    have hpos : rightLength s ≠ 0 := by
      rw [rightLength_eq hex]
      omega
    rw [ensure_pos hpos, bind_okay]

end

lemma Moved.spells {dst src n : Nat} (h : Moved m m' dst src n) (hs : Spells m src s) (hn : s.length < n) :
    Spells m' dst s := by
  obtain ⟨hget, hne, hend⟩ := spells_iff.mp hs
  refine spells_iff.mpr ⟨fun i hi => ?_, hne, ?_⟩
  · rw [h.1 i (by omega)]
    exact hget i hi
  · rw [h.1 s.length hn]
    exact hend

lemma spells_trimmed (h : Spells m string s) (hex : ∃ c ∈ s, isSpace c = false) :
    Spells (update m (string + rightLength s) 0) (string + leading s) (trimmed s) := by
  have hcut := (h.cut (rightLength_le s)).drop (i := leading s) (by
    rw [length_take_of_le (rightLength_le s), rightLength_eq hex]
    omega)
  rw [drop_leading hex] at hcut
  exact hcut

variable (h0 : string ≠ 0) (h : Spells m string s) (hs : s.length < 2 ^ 32)
include h0 h hs

lemma clStrtrim_ok (hW : ∀ x, Span string (s.length + 1) x → W x)
    (hread : ∀ x, Span string (leading s + rightLength s) x → W x) :
    ∃ m', clStrtrim W m string = .ok m' ∧ Spells m' string (trimmed s) ∧
      Within (Span string (s.length + 1)) m m' := by
  have hle := rightLength_le s
  obtain hall | hex := blank_or_text s
  · refine ⟨_, clStrtrim_blank h0 h hW hs hall, ?_, fun x hx => ?_⟩
    · rw [trimmed_blank hall]
      exact update_self ..
    · exact update_of_ne (fun hxa => hx ⟨by omega, by omega⟩) ..
  · have hcut : Within (Span string (s.length + 1)) m (update m (string + rightLength s) 0) :=
      fun x hx => update_of_ne (fun hxa => hx ⟨by omega, by omega⟩) ..
    have htrim := spells_trimmed h hex
    rw [clStrtrim_eq h0 h hW hs hex]
    by_cases hz : leading s = 0
    · rw [if_neg (not_not.mpr hz)]
      rw [hz] at htrim
      exact ⟨_, rfl, htrim, hcut⟩
    · rw [if_pos hz]
      obtain ⟨m', hrun, hcopied⟩ := clMemmove_copied (W := W)
        (m := update m (string + rightLength s) 0) (n := rightLength s)
        h0 (show string + leading s ≠ 0 by omega) (fun j hj =>
          ⟨hread _ ⟨by omega, by omega⟩, hW _ ⟨by omega, by omega⟩⟩)
      have hlen := rightLength_eq hex
      refine ⟨m', hrun, (hcopied.moved (.inl (by omega))).spells htrim (by omega), hcut.trans ?_⟩
      exact hcopied.frame.mono fun x hx => hx.mono le_rfl (by omega)

lemma clStrtrim_wild (hlong : s.length + 1 < leading s + rightLength s) :
    clStrtrim (Span string (s.length + 1)) m string = .error .wild := by
  have hle := rightLength_le s
  have hlead := leading_le s
  have hex : ∃ c ∈ s, isSpace c = false := by
    refine (blank_or_text s).resolve_left fun hall => ?_
    rw [rightLength_blank hall] at hlong
    omega
  rw [clStrtrim_eq h0 h (fun x hx => hx) hs hex, if_pos (by omega), clMemmove, if_neg (by omega)]
  refine memmoveFrom_wild (fun j _ hj => ⟨by omega, by omega⟩)
    ⟨rightLength s - 1, by omega, by omega, fun hspan => ?_⟩
  have := hspan.2
  omega

end Loops

/-- The string is trimmed in place, and the call keeps to the bytes of the string and its terminator if and
    only if there is at most one whitespace character more in front of it than behind it. -/
theorem clStrtrim_trims {m : Mem} {string : Nat} {s : List UInt8} (h0 : string ≠ 0) (h : Spells m string s)
    (hs : s.length < 2 ^ 32) :
    (∃ m', clStrtrim (fun _ => True) m string = .ok m' ∧ Spells m' string (trimmed s) ∧
      Within (Span string (s.length + 1)) m m') ∧
    ((∃ m', clStrtrim (Span string (s.length + 1)) m string = .ok m' ∧ Spells m' string (trimmed s) ∧
      Within (Span string (s.length + 1)) m m') ↔ leading s + rightLength s ≤ s.length + 1) := by
  refine ⟨clStrtrim_ok h0 h hs (fun _ _ => trivial) fun _ _ => trivial, ?_, fun hle => ?_⟩
  · rintro ⟨m', hrun, -⟩
    by_contra hlong
    cases (clStrtrim_wild h0 h hs (by omega)).symm.trans hrun
  · exact clStrtrim_ok h0 h hs (fun _ hx => hx) fun x hx => hx.mono le_rfl (by omega)

/-- In `" a "` the spaces are balanced. -/
theorem clStrtrim_balanced :
    ∃ m', clStrtrim (Span 1 4) (textAt [0x20, 0x61, 0x20]) 1 = .ok m' ∧ Spells m' 1 [0x61] := by
  obtain ⟨m', hrun, hspells, -⟩ := (clStrtrim_trims (m := textAt [0x20, 0x61, 0x20])
    (s := [0x20, 0x61, 0x20]) (show 1 ≠ 0 by decide) (by decide) (by decide)).2.mpr (by decide)
  exact ⟨m', hrun, hspells⟩

/-- In `"  a"` the byte behind the terminator is read. -/
theorem clStrtrim_reads_behind : Spells (textAt [0x20, 0x20, 0x61]) 1 [0x20, 0x20, 0x61] ∧
      clStrtrim (Span 1 4) (textAt [0x20, 0x20, 0x61]) 1 = .error .wild := by
  have h : Spells (textAt [0x20, 0x20, 0x61]) 1 [0x20, 0x20, 0x61] := by decide
  exact ⟨h, clStrtrim_wild (by decide) h (by decide) (by decide)⟩

end HAL9000.CString
