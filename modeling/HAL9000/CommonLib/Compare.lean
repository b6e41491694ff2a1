import HAL9000.CommonLib.Pointer
import HAL9000.CommonLib.String

/-!
# String comparison

Port of `cl_strncmp`, `cl_strnicmp` and `cl_stricmp` (`CommonLib/src/cl_string.c`) on strings in memory. The first
two say that the second string is bigger when both end before the length. `tolower` sets a bit of every
character, not of letters only, so characters that are no letters can be taken for each other.
-/

namespace HAL9000.CString
open Lib List

/-- Go on with `rest` if two characters are equal; a `char` is signed. -/
def order (c1 c2 : UInt8) (rest : Int) : Int :=
  if c1.toInt8 > c2.toInt8 then 1 else if c1.toInt8 < c2.toInt8 then -1 else rest

/-- The loop of `cl_strncmp` and `cl_strnicmp`, with `k` characters left, and what comes after it. -/
def strncmpFrom (fold : UInt8 → UInt8) (m : Mem) (str1 str2 : Nat) : Nat → Nat → Int
  | 0, _ => 0
  | k + 1, i =>
    if m (str1 + i) ≠ 0 ∧ m (str2 + i) ≠ 0 then
      order (fold (m (str1 + i))) (fold (m (str2 + i))) (strncmpFrom fold m str1 str2 k (i + 1))
    else if m (str1 + i) ≠ 0 then 1
    else -1

/-- The checks of `cl_strncmp` and `cl_strnicmp`, and the comparison. -/
def compareN (fold : UInt8 → UInt8) (m : Mem) (str1 str2 length : Nat) : Except Status Int :=
  if str1 = 0 then .error .invalidParameter1
  else if str2 = 0 then .error .invalidParameter2
  else if length = 0 then .error .invalidParameter3
  else .ok (strncmpFrom fold m str1 str2 length 0)

/-- (C `cl_strncmp`) -/
def clStrncmp : Mem → Nat → Nat → Nat → Except Status Int := compareN id

/-- (C `cl_strnicmp`) -/
def clStrnicmp : Mem → Nat → Nat → Nat → Except Status Int := compareN toLower

/-- The loop of `cl_stricmp`, and what comes after it. The index is a `DWORD`: after `2 ^ 32` characters it is
    0 again, and the loop does not end. -/
def stricmpFrom (m : Mem) (str1 str2 : Nat) : Nat → Nat → Exec Int
  | 0, _ => throw .fuel
  | k + 1, i =>
    if m (str1 + i) ≠ 0 ∧ m (str2 + i) ≠ 0 then
      if (toLower (m (str1 + i))).toInt8 > (toLower (m (str2 + i))).toInt8 then pure 1
      else if (toLower (m (str1 + i))).toInt8 < (toLower (m (str2 + i))).toInt8 then pure (-1)
      else stricmpFrom m str1 str2 k (i + 1)
    else if m (str1 + i) ≠ 0 then pure 1
    else if m (str2 + i) ≠ 0 then pure (-1)
    else pure 0

/-- (C `cl_stricmp`) -/
def clStricmp (m : Mem) (str1 str2 : Nat) : Exec (Except Status Int) :=
  if str1 = 0 then pure (.error .invalidParameter1)
  else if str2 = 0 then pure (.error .invalidParameter2)
  else do
    let r ← stricmpFrom m str1 str2 (2 ^ 32) 0
    pure (.ok r)

/-- The comparison of at most `n` characters, on strings. -/
def strncmpOn (fold : UInt8 → UInt8) : Nat → List UInt8 → List UInt8 → Int
  | 0, _, _ => 0
  | _ + 1, _ :: _, [] => 1
  | _ + 1, [], _ => -1
  | n + 1, c :: s, d :: t => order (fold c) (fold d) (strncmpOn fold n s t)

section Order

variable {c d e : UInt8} {r r' : Int}

lemma toInt8_inj : c.toInt8 = d.toInt8 ↔ c = d :=
  ⟨fun h => by simpa using congrArg Int8.toUInt8 h, fun h => by rw [h]⟩

lemma order_self : order c c r = r := by
  rw [order, if_neg Int8.lt_irrefl, if_neg Int8.lt_irrefl]

lemma order_swap : order d c (-r) = -order c d r := by
  rw [order, order]
  by_cases h1 : c.toInt8 > d.toInt8
  · rw [if_neg (Int8.not_lt.mpr (Int8.le_of_lt h1)), if_pos h1, if_pos h1]
  · by_cases h2 : c.toInt8 < d.toInt8
    · rw [if_pos h2, if_neg h1, if_pos h2, Int.neg_neg]
    · rw [if_neg h2, if_neg h1, if_neg h1, if_neg h2]

lemma order_ne (h : c ≠ d) : order c d r = order c d r' ∧ order c d r ≠ 0 := by
  rw [order, order]
  by_cases h1 : c.toInt8 > d.toInt8
  · rw [if_pos h1, if_pos h1]
    exact ⟨rfl, by decide⟩
  · have h2 : c.toInt8 < d.toInt8 := by
      refine Int8.not_le.mp fun hle => h (toInt8_inj.mp (Int8.le_antisymm (Int8.not_lt.mp h1) hle))
    rw [if_neg h1, if_pos h2, if_neg h1, if_pos h2]
    exact ⟨rfl, by decide⟩

lemma order_eq_zero : order c d r = 0 ↔ c = d ∧ r = 0 := by
  by_cases h : c = d
  · subst h
    rw [order_self]
    exact ⟨fun hr => ⟨rfl, hr⟩, And.right⟩
  · have hne : order c d r = order c d r ∧ order c d r ≠ 0 := order_ne h
    exact iff_of_false hne.2 fun hc => h hc.1

lemma order_le_zero : order c d r ≤ 0 ↔ c.toInt8 < d.toInt8 ∨ c = d ∧ r ≤ 0 := by
  by_cases h : c = d
  · subst h
    rw [order_self]
    exact ⟨fun hr => .inr ⟨rfl, hr⟩, fun hr => hr.elim (fun h => absurd h Int8.lt_irrefl) And.right⟩
  · rw [order]
    by_cases h1 : c.toInt8 > d.toInt8
    · rw [if_pos h1]
      refine iff_of_false (by decide) ?_
      rintro (h2 | h2)
      · exact Int8.lt_irrefl (Int8.lt_trans h1 h2)
      · exact h h2.1
    · have h2 : c.toInt8 < d.toInt8 := by
        refine Int8.not_le.mp fun hle => h (toInt8_inj.mp (Int8.le_antisymm (Int8.not_lt.mp h1) hle))
      rw [if_neg h1, if_pos h2]
      exact iff_of_true (by decide) (.inl h2)

lemma order_trans {r'' : Int} (h1 : order c d r ≤ 0) (h2 : order d e r' ≤ 0) (h : r ≤ 0 → r' ≤ 0 → r'' ≤ 0) :
    order c e r'' ≤ 0 := by
  rw [order_le_zero] at *
  obtain h1 | ⟨rfl, h1⟩ := h1
  · obtain h2 | ⟨rfl, -⟩ := h2
    · exact .inl (Int8.lt_trans h1 h2)
    · exact .inl h1
  · obtain h2 | ⟨rfl, h2⟩ := h2
    · exact .inl h2
    · exact .inr ⟨rfl, h h1 h2⟩

end Order

section Lists

variable {fold : UInt8 → UInt8} {n k i str1 str2 : Nat} {m : Mem} {a b c : List UInt8}

lemma strncmpFrom_spells (ha : Spells m (str1 + i) a) (hb : Spells m (str2 + i) b) :
    strncmpFrom fold m str1 str2 k i = strncmpOn fold k a b := by
  induction k generalizing i a b with
  | zero => rw [strncmpFrom, strncmpOn]
  | succ k ih =>
    rw [strncmpFrom]
    cases a with
    | nil => rw [if_neg fun h => h.1 ha, if_neg (not_not.mpr (spells_nil.mp ha)), strncmpOn]
    | cons x a =>
      cases b with
      | nil => rw [if_neg fun h => h.2 hb, if_pos ha.head_ne, strncmpOn]
      | cons y b =>
        rw [if_pos ⟨ha.head_ne, hb.head_ne⟩, ha.1, hb.1, ih (i := i + 1) ha.2.2 hb.2.2, strncmpOn]

lemma strncmpOn_eq_zero : strncmpOn fold n a b = 0 ↔
    n ≤ a.length ∧ n ≤ b.length ∧ (a.take n).map fold = (b.take n).map fold := by
  induction n generalizing a b with
  | zero => simp [strncmpOn]
  | succ n ih =>
    cases a with
    | nil => simp [strncmpOn]
    | cons x a =>
      cases b with
      | nil => simp [strncmpOn]
      | cons y b =>
        rw [strncmpOn, order_eq_zero, ih]
        simp only [length_cons, Nat.add_le_add_iff_right, take_succ_cons, map_cons, List.cons.injEq]
        tauto

lemma strncmpOn_short (h : a.map fold = b.map fold) (hn : a.length < n) : strncmpOn fold n a b = -1 := by
  induction n generalizing a b with
  | zero => cases hn
  | succ n ih =>
    cases a with
    | nil => rw [strncmpOn]
    | cons x a =>
      cases b with
      | nil => cases h
      | cons y b =>
        rw [map_cons, map_cons, List.cons.injEq] at h
        rw [strncmpOn, h.1, order_self]
        exact ih h.2 (Nat.lt_of_succ_lt_succ hn)

lemma strncmpOn_swap (h : ¬ (a.map fold = b.map fold ∧ a.length < n)) :
    strncmpOn fold n b a = -strncmpOn fold n a b := by
  induction n generalizing a b with
  | zero => rfl
  | succ n ih =>
    cases a with
    | nil =>
      cases b with
      | nil => exact absurd ⟨rfl, Nat.succ_pos n⟩ h
      | cons y b => rfl
    | cons x a =>
      cases b with
      | nil => rfl
      | cons y b =>
        rw [strncmpOn, strncmpOn, ← order_swap]
        by_cases hxy : fold y = fold x
        · rw [hxy, order_self, order_self]
          refine ih fun hab => h ⟨?_, Nat.succ_lt_succ hab.2⟩
          rw [map_cons, map_cons, hxy, hab.1]
        · exact (order_ne hxy).1

lemma stricmpFrom_spells (ha : Spells m (str1 + i) a) (hb : Spells m (str2 + i) b) (hk : a.length < k) :
    stricmpFrom m str1 str2 k i = .ok (HAL9000.clStricmp a b) := by
  induction a generalizing i k b with
  | nil =>
    cases k with
    | zero => cases hk
    | succ k =>
      rw [stricmpFrom, if_neg fun h => h.1 ha, if_neg (not_not.mpr (spells_nil.mp ha))]
      cases b with
      | nil => exact if_neg (not_not.mpr (spells_nil.mp hb))
      | cons y b => exact if_pos hb.head_ne
  | cons x a ih =>
    cases k with
    | zero => cases hk
    | succ k =>
      rw [stricmpFrom]
      cases b with
      | nil =>
        rw [if_neg fun h => h.2 hb, if_pos ha.head_ne]
        rfl
      | cons y b =>
        rw [if_pos ⟨ha.head_ne, hb.head_ne⟩, ha.1, hb.1, ih (i := i + 1) ha.2.2 hb.2.2 (Nat.lt_of_succ_lt_succ hk),
          HAL9000.clStricmp]
        split
        · rfl
        split
        · rfl
        · rfl

lemma clStricmp_swap : HAL9000.clStricmp b a = -HAL9000.clStricmp a b := by
  induction a generalizing b with
  | nil =>
    cases b with
    | nil => rfl
    | cons y b => rfl
  | cons x a ih =>
    cases b with
    | nil => rfl
    | cons y b =>
      change order (toLower y) (toLower x) (HAL9000.clStricmp b a) =
        -order (toLower x) (toLower y) (HAL9000.clStricmp a b)
      rw [ih, order_swap]

lemma clStricmp_trans (h1 : HAL9000.clStricmp a b ≤ 0) (h2 : HAL9000.clStricmp b c ≤ 0) :
    HAL9000.clStricmp a c ≤ 0 := by
  induction a generalizing b c with
  | nil =>
    cases c with
    | nil | cons z c => simp [HAL9000.clStricmp]
  | cons x a ih =>
    cases b with
    | nil => simp [HAL9000.clStricmp] at h1
    | cons y b =>
      cases c with
      | nil => simp [HAL9000.clStricmp] at h2
      | cons z c => exact order_trans h1 h2 ih

end Lists

def isLetter (c : UInt8) : Bool := (0x41 ≤ c && c ≤ 0x5A) || (0x61 ≤ c && c ≤ 0x7A)

/-- A letter in lower case; any other character stays as it is. -/
def lower (c : UInt8) : UInt8 := if 0x41 ≤ c ∧ c ≤ 0x5A then c + 0x20 else c

/-- Strings that are equal for `tolower`, although they have different characters in one place that are not the
    two cases of a letter. -/
def Mistaken (a b : List UInt8) : Prop :=
  a.map toLower = b.map toLower ∧ ∃ x ∈ a.zip b, x.1 ≠ x.2 ∧ isLetter x.1 = false

section Letters

variable {a b : List UInt8}

lemma forall_byte {P : UInt8 → Prop} (h : ∀ n < 256, P (UInt8.ofNat n)) (c : UInt8) : P c := by
  have hc := h c.toNat c.toNat_lt
  rwa [UInt8.ofNat_toNat] at hc

lemma toLower_lower (c : UInt8) : toLower (lower c) = toLower c :=
  forall_byte (P := fun c => toLower (lower c) = toLower c) (by decide +kernel) c

lemma eq_toLower_or (c : UInt8) : c = toLower c ∨ c = toLower c ^^^ 0x20 :=
  forall_byte (P := fun c => c = toLower c ∨ c = toLower c ^^^ 0x20) (by decide +kernel) c

lemma lower_toLower (c : UInt8) : isLetter c = true → lower (toLower c) = lower c ∧
    lower (toLower c ^^^ 0x20) = lower c :=
  forall_byte (P := fun c => isLetter c = true → lower (toLower c) = lower c ∧
    lower (toLower c ^^^ 0x20) = lower c) (by decide +kernel) c

lemma lower_ne (c : UInt8) : isLetter c = false → lower c = c ∧ (toLower c ≠ c → lower (toLower c) ≠ c) ∧
    (toLower c ^^^ 0x20 ≠ c → lower (toLower c ^^^ 0x20) ≠ c) :=
  forall_byte (P := fun c => isLetter c = false → lower c = c ∧ (toLower c ≠ c → lower (toLower c) ≠ c) ∧
    (toLower c ^^^ 0x20 ≠ c → lower (toLower c ^^^ 0x20) ≠ c)) (by decide +kernel) c

lemma lower_eq_iff {c d : UInt8} (h : toLower c = toLower d) : lower c = lower d ↔ c = d ∨ isLetter c = true := by
  have hd := eq_toLower_or d
  rw [← h] at hd
  cases hc : isLetter c with
  | true =>
    refine iff_of_true ?_ (.inr rfl)
    obtain hd | hd := hd
    · rw [hd, (lower_toLower c hc).1]
    · rw [hd, (lower_toLower c hc).2]
  | false =>
    obtain ⟨hcc, h1, h2⟩ := lower_ne c hc
    refine ⟨fun heq => .inl ?_, fun hor => hor.elim (fun hcd => by rw [hcd]) fun hf => Bool.noConfusion hf⟩
    rw [hcc] at heq
    by_contra hne
    obtain hd | hd := hd
    · exact h1 (fun h => hne (hd.trans h).symm) (by rw [← hd, ← heq])
    · exact h2 (fun h => hne (hd.trans h).symm) (by rw [← hd, ← heq])

lemma map_toLower_of_lower (h : a.map lower = b.map lower) : a.map toLower = b.map toLower := by
  have hmap := congrArg (List.map toLower) h
  simpa only [map_map, Function.comp_def, toLower_lower] using hmap

lemma not_mistaken_iff : ¬ Mistaken a b ↔ (a.map toLower = b.map toLower → a.map lower = b.map lower) := by
  rw [Mistaken, not_and]
  refine forall_congr' fun h => ?_
  induction a generalizing b with
  | nil =>
    cases b with
    | nil => simp
    | cons y b => cases h
  | cons x a ih =>
    cases b with
    | nil => cases h
    | cons y b =>
      rw [map_cons, map_cons, List.cons.injEq] at h
      rw [map_cons, map_cons, List.cons.injEq, ← ih h.2, lower_eq_iff h.1, zip_cons_cons]
      simp only [mem_cons, exists_eq_or_imp, not_or, not_and, Bool.not_eq_false]
      refine and_congr_left' ⟨fun hx => ?_, fun hx hne => hx.resolve_left hne⟩
      by_cases hxy : x = y
      · exact .inl hxy
      · exact .inr (hx hxy)

end Letters

/-- The comparison says whether the strings agree, and its sign is turned with the arguments. -/
def Compares (agree : Prop) (x y : Except Status Int) : Prop :=
  ∃ r r' : Int, x = .ok r ∧ y = .ok r' ∧ (r = 0 ↔ agree) ∧ r'.sign = -r.sign

section Results

variable {fold : UInt8 → UInt8} {m : Mem} {p q o n : Nat} {a b c : List UInt8}

lemma compareN_spells (hp : p ≠ 0) (hq : q ≠ 0) (hn : n ≠ 0) (ha : Spells m p a) (hb : Spells m q b) :
    compareN fold m p q n = .ok (strncmpOn fold n a b) := by
  rw [compareN, if_neg hp, if_neg hq, if_neg hn, strncmpFrom_spells (i := 0) ha hb]

lemma le_length_of_take (hshort : ¬ (a.map fold = b.map fold ∧ a.length < n))
    (hfold : (a.take n).map fold = (b.take n).map fold) : n ≤ a.length ∧ n ≤ b.length := by
  have hlen := congrArg List.length hfold
  simp only [length_map, length_take] at hlen
  have ha : n ≤ a.length := by
    by_contra hlt
    rw [take_of_length_le (by omega), take_of_length_le (by omega)] at hfold
    exact hshort ⟨hfold, by omega⟩
  exact ⟨ha, by omega⟩

lemma compares_iff {agree : Prop} (hp : p ≠ 0) (hq : q ≠ 0) (hn : n ≠ 0) (ha : Spells m p a) (hb : Spells m q b)
    (hagree : agree → (a.take n).map fold = (b.take n).map fold) :
    Compares agree (compareN fold m p q n) (compareN fold m q p n) ↔
      ¬ (a.map fold = b.map fold ∧ a.length < n) ∧ ((a.take n).map fold = (b.take n).map fold → agree) := by
  rw [compareN_spells hp hq hn ha hb, compareN_spells hq hp hn hb ha]
  constructor
  · rintro ⟨r, r', hr, hr', hzero, hsign⟩
    obtain rfl := Except.ok.inj hr
    obtain rfl := Except.ok.inj hr'
    have hshort : ¬ (a.map fold = b.map fold ∧ a.length < n) := by
      rintro ⟨hfold, hlt⟩
      have hlen : b.length < n := by
        have := congrArg List.length hfold
        simp only [length_map] at this
        omega
      rw [strncmpOn_short hfold hlt, strncmpOn_short hfold.symm hlen] at hsign
      exact absurd hsign (by decide)
    refine ⟨hshort, fun hfold => hzero.mp (strncmpOn_eq_zero.mpr ?_)⟩
    obtain ⟨ha', hb'⟩ := le_length_of_take hshort hfold
    exact ⟨ha', hb', hfold⟩
  · rintro ⟨hshort, hmust⟩
    refine ⟨_, _, rfl, rfl, ⟨fun hz => hmust (strncmpOn_eq_zero.mp hz).2.2, fun hag => ?_⟩, ?_⟩
    · obtain ⟨ha', hb'⟩ := le_length_of_take hshort (hagree hag)
      exact strncmpOn_eq_zero.mpr ⟨ha', hb', hagree hag⟩
    · rw [strncmpOn_swap hshort, Int.sign_neg]

/-- `cl_strncmp` is right unless it compares equal strings that end before the length. `cl_strnicmp` is right
    unless the strings end together before the length and are equal for `tolower`, or are mistaken for each
    other. -/
theorem strncmp_compares_iff (hp : p ≠ 0) (hq : q ≠ 0) (hn : 1 ≤ n) (ha : Spells m p a) (hb : Spells m q b) :
    (Compares (a.take n = b.take n) (clStrncmp m p q n) (clStrncmp m q p n) ↔ ¬ (a = b ∧ a.length < n)) ∧
    (Compares ((a.take n).map lower = (b.take n).map lower) (clStrnicmp m p q n) (clStrnicmp m q p n) ↔
      ¬ (a.map toLower = b.map toLower ∧ a.length < n) ∧ ¬ Mistaken (a.take n) (b.take n)) := by
  have hn0 : n ≠ 0 := by omega
  constructor
  · have h : Compares (a.take n = b.take n) (compareN id m p q n) (compareN id m q p n) ↔ _ :=
      compares_iff hp hq hn0 ha hb fun h => by rw [h]
    simp only [map_id] at h
    refine h.trans ?_
    simp only [imp_self, and_true]
  · have h : Compares ((a.take n).map lower = (b.take n).map lower) (compareN toLower m p q n)
        (compareN toLower m q p n) ↔ _ := compares_iff hp hq hn0 ha hb map_toLower_of_lower
    exact h.trans (and_congr_right' not_mistaken_iff.symm)

lemma clStricmp_spells (hp : p ≠ 0) (hq : q ≠ 0) (ha : Spells m p a) (hb : Spells m q b)
    (hlen : a.length < 2 ^ 32) : clStricmp m p q = .ok (.ok (HAL9000.clStricmp a b)) := by
  rw [clStricmp, if_neg hp, if_neg hq, stricmpFrom_spells (i := 0) ha hb hlen]
  rfl

/-- `cl_stricmp` orders the strings, and finds those equal that agree up to the case of letters, unless two
    strings are mistaken for each other. -/
theorem stricmp_orders (hp : p ≠ 0) (hq : q ≠ 0) (ho : o ≠ 0) (ha : Spells m p a) (hb : Spells m q b)
    (hc : Spells m o c) (hla : a.length < 2 ^ 32) (hlb : b.length < 2 ^ 32) :
    ∃ r r' r'' : Int, clStricmp m p q = .ok (.ok r) ∧ clStricmp m q o = .ok (.ok r') ∧
      clStricmp m p o = .ok (.ok r'') ∧
      ((r = 0 ↔ a.map lower = b.map lower) ↔ ¬ Mistaken a b) ∧
      clStricmp m q p = .ok (.ok (-r)) ∧
      (r ≤ 0 → r' ≤ 0 → r'' ≤ 0) := by
  refine ⟨_, _, _, clStricmp_spells hp hq ha hb hla, clStricmp_spells hq ho hb hc hlb,
    clStricmp_spells hp ho ha hc hla, ?_, ?_, clStricmp_trans⟩
  · rw [clStricmp_eq_zero, not_mistaken_iff]
    exact ⟨Iff.mp, fun h => ⟨h, map_toLower_of_lower⟩⟩
  · rw [clStricmp_spells hq hp hb ha hlb, clStricmp_swap]

end Results

/-- The first two of three characters are compared. -/
theorem strncmp_compares_two :
    Compares True (clStrncmp (textAt [0x61, 0x62, 0x63]) 1 1 2) (clStrncmp (textAt [0x61, 0x62, 0x63]) 1 1 2) := by
  have h := (strncmp_compares_iff (m := textAt [0x61, 0x62, 0x63]) (p := 1) (q := 1) (n := 2)
    (a := [0x61, 0x62, 0x63]) (b := [0x61, 0x62, 0x63]) (by decide) (by decide) (by decide) (by decide)
    (by decide)).1.mpr (by decide)
  simpa using h

/-- A string is not equal to itself if the length is longer. -/
theorem strncmp_short : Spells (textAt [0x61]) 1 [0x61] ∧ clStrncmp (textAt [0x61]) 1 1 2 = .ok (-1) ∧
      clStrnicmp (textAt [0x61]) 1 1 2 = .ok (-1) := ⟨by decide, by decide, by decide⟩

/-- `"a"`, `"B"` and `"b"` in memory. -/
theorem stricmp_orders_letters :
    ∃ r : Int, clStricmp (textAt [0x42, 0, 0x62, 0, 0x61]) 1 3 = .ok (.ok r) ∧ r = 0 := by
  obtain ⟨r, _, _, hr, -, -, hzero, -⟩ := stricmp_orders (m := textAt [0x42, 0, 0x62, 0, 0x61]) (p := 1) (q := 3)
    (o := 5) (a := [0x42]) (b := [0x62]) (c := [0x61]) (by decide) (by decide) (by decide) (by decide) (by decide)
    (by decide) (by decide) (by decide)
  refine ⟨r, hr, (hzero.mpr ?_).mpr (by decide)⟩
  rintro ⟨-, x, hx, -, hl⟩
  obtain rfl : x = (0x42, 0x62) := by simpa using hx
  exact absurd hl (by decide)

/-- `"@"` is taken for a backquote. -/
theorem stricmp_mistakes_at : Spells (textAt [0x40, 0, 0x60]) 1 [0x40] ∧ Spells (textAt [0x40, 0, 0x60]) 3 [0x60] ∧
      clStricmp (textAt [0x40, 0, 0x60]) 1 3 = .ok (.ok 0) ∧ isLetter 0x40 = false := by
  have h1 : Spells (textAt [0x40, 0, 0x60]) 1 [0x40] := by decide
  have h2 : Spells (textAt [0x40, 0, 0x60]) 3 [0x60] := by decide
  refine ⟨h1, h2, ?_, by decide⟩
  rw [clStricmp_spells (by decide) (by decide) h1 h2 (by decide)]
  exact congrArg _ (by decide)

end HAL9000.CString
