import HAL9000.CommonLib.Base

/-!
# Strings

Port of the functions of `CommonLib/src/cl_string.c` that the modelled code uses. A string is the list
of its characters, without the zero byte behind them. A pointer into a string is an index.
-/

namespace HAL9000
open Lib

/-- The letters of the two cases differ in one bit (C `tolower`). -/
def toLower (c : UInt8) : UInt8 := c ||| 0x20

/-- Where a character first occurs, and the start of the string if it does not (C `cl_strchr`). -/
def clStrchr (str : List UInt8) (c : UInt8) : Nat := (str.findIdx? (· = c)).getD 0

/-- The loop of `cl_strrchr`: `charIndex` is where the character was last seen. -/
def strrchrFrom (c : UInt8) : List UInt8 → Nat → Nat → Nat
  | [], _, charIndex => charIndex
  | d :: str, i, charIndex => strrchrFrom c str (i + 1) (if d = c then i else charIndex)

/-- Where a character last occurs, and the start of the string if it does not (C `cl_strrchr`). -/
def clStrrchr (str : List UInt8) (c : UInt8) : Nat := strrchrFrom c str 0 0

/-- Compare two strings, whatever the case; a `char` is signed (C `cl_stricmp`). -/
def clStricmp : List UInt8 → List UInt8 → Int
  | [], [] => 0
  | _ :: _, [] => 1
  | [], _ :: _ => -1
  | c :: str1, d :: str2 =>
    if (toLower c).toInt8 > (toLower d).toInt8 then 1
    else if (toLower c).toInt8 < (toLower d).toInt8 then -1
    else clStricmp str1 str2

/-- The string in a buffer of `n` bytes. -/
def stringOf (n : Nat) (buffer : Nat → UInt8) : List UInt8 := ((List.range n).map buffer).takeWhile (· ≠ 0)

lemma clStrchr_lt {s : List UInt8} {c : UInt8} (h : clStrchr s c ≠ 0) : clStrchr s c < s.length := by
  rw [clStrchr] at *
  cases hf : s.findIdx? (· = c) with
  | none => simp [hf] at h
  | some i => exact (List.findIdx?_eq_some_iff_getElem.mp hf).1

lemma stringOf_length_le (n : Nat) (buffer : Nat → UInt8) : (stringOf n buffer).length ≤ n := by
  rw [stringOf]
  refine (List.takeWhile_prefix _).length_le.trans ?_
  rw [List.length_map, List.length_range]

lemma clStricmp_eq_zero {s t : List UInt8} : clStricmp s t = 0 ↔ s.map toLower = t.map toLower := by
  induction s generalizing t with
  | nil =>
    cases t with
    | nil | cons d t => simp [clStricmp]
  | cons c s ih =>
    cases t with
    | nil => simp [clStricmp]
    | cons d t =>
      rw [clStricmp, List.map_cons, List.map_cons, List.cons.injEq, ← ih]
      have hinj : (toLower c).toInt8 = (toLower d).toInt8 ↔ toLower c = toLower d :=
        ⟨fun h => by simpa using congrArg Int8.toUInt8 h, fun h => by rw [h]⟩
      split
      · next hlt =>
        refine iff_of_false (by decide) fun h => ?_
        rw [h.1] at hlt
        exact Int8.lt_irrefl hlt
      · next hnlt =>
        split
        · next hlt =>
          refine iff_of_false (by decide) fun h => ?_
          rw [h.1] at hlt
          exact Int8.lt_irrefl hlt
        · next hnlt' =>
          have heq : toLower c = toLower d :=
            hinj.mp (Int8.le_antisymm (Int8.not_lt.mp hnlt) (Int8.not_lt.mp hnlt'))
          simp [heq]

end HAL9000
