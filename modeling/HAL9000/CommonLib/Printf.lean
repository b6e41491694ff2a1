import HAL9000.CommonLib.Numeral

/-!
# Formatted output

Port of `cl_vsnprintf` (`CommonLib/src/cl_string.c`). A format is taken apart into pieces (`parse`) as the loop
comes upon them. An argument is the value or, for `%s` and `%S`, the string at the address that is passed; the
output buffer, its first byte at 0, overlaps none of them. Formats have fewer than `2 ^ 32` characters.
-/

namespace HAL9000.CString
open Lib Function List

/-- The conversions, for `b`, `B`, `u`, `U`, `d`, `D`, `x`, `X`, `c`, `s` and `S`. -/
inductive Conversion where
  | binary32
  | binary64
  | unsigned32
  | unsigned64
  | signed32
  | signed64
  | hex32
  | hex64
  | character
  | string
  | substring
deriving DecidableEq, Repr

/-- The `switch` of `cl_vsnprintf`. -/
def Conversion.ofChar (next : UInt8) : Option Conversion :=
  if next = 0x62 then some .binary32
  else if next = 0x42 then some .binary64
  else if next = 0x75 then some .unsigned32
  else if next = 0x55 then some .unsigned64
  else if next = 0x64 then some .signed32
  else if next = 0x44 then some .signed64
  else if next = 0x78 then some .hex32
  else if next = 0x58 then some .hex64
  else if next = 0x63 then some .character
  else if next = 0x73 then some .string
  else if next = 0x53 then some .substring
  else none

/-- What the loop comes upon in a format. -/
inductive Piece where
  | literal (c : UInt8)
  /-- A known conversion, with the digits in front of it. -/
  | conversion (digits : List UInt8) (kind : Conversion)
  /-- The character behind `%` and its digits is no conversion. -/
  | unknown
deriving DecidableEq, Repr

/-- The character is one of `'0'` to `'9'`. -/
def isDigit (c : UInt8) : Bool := 0x30 ≤ c && c ≤ 0x39

/-- The pieces of a format; after a `%`, the digits that have been read. -/
def parseFrom : Option (List UInt8) → List UInt8 → List Piece
  | none, [] => []
  | some _, [] => [.unknown]
  | none, c :: format =>
    if c = 0x25 then parseFrom (some []) format else .literal c :: parseFrom none format
  | some digits, next :: format =>
    if isDigit next then parseFrom (some (digits ++ [next])) format
    else
      match Conversion.ofChar next with
      | some kind => .conversion digits kind :: parseFrom none format
      | none => [.unknown]

def parse (format : List UInt8) : List Piece := parseFrom none format

/-- An argument. -/
inductive Arg where
  | number (bits : Nat)
  | character (c : UInt8)
  | string (s : List UInt8)

/-- The width, computed in 32 bits (C `digits`). -/
def widthOf (digits : List UInt8) : Nat := digits.foldl (fun n c => (n * 10 + (c.toNat - 0x30)) % 2 ^ 32) 0

/-- The first digit says what the text is padded with (C `fillChar`). -/
def fillChar (digits : List UInt8) : UInt8 := if digits.head? = some 0x30 then 0x30 else 0x20

/-- The text of an argument (C `temp_str`). -/
def tempText (kind : Conversion) (arg : Arg) : Exec (List UInt8) :=
  match kind, arg with
  | .binary32, .number bits => pure (itoaText bits false 2 false)
  | .binary64, .number bits => pure (itoaText bits false 2 true)
  | .unsigned32, .number bits => pure (itoaText bits false 10 false)
  | .unsigned64, .number bits => pure (itoaText bits false 10 true)
  | .signed32, .number bits => pure (itoaText bits true 10 false)
  | .signed64, .number bits => pure (itoaText bits true 10 true)
  | .hex32, .number bits => pure (itoaText bits false 16 false)
  | .hex64, .number bits => pure (itoaText bits false 16 true)
  | .character, .character c => pure (if c = 0 then [] else [c])
  | .string, .string s => pure s
  | .substring, .string s => pure s
  | _, _ => throw .wild

/-- The length of a text (C `cl_strlen`), and the assertion behind it. -/
def tempLen (text : List UInt8) : Exec Nat := do
  if text.length ≥ 2 ^ 32 then throw .fuel
  ensure (text.length ≠ maxDword)
  pure text.length

/-- The output buffer, and how much of it is used (C `outBufferOffset`). -/
structure Output where
  buffer : Mem
  offset : Nat

/-- How many characters of a text are copied (C `charsToCopy`). -/
def charsToCopy (kind : Conversion) (digits len : Nat) : Nat := if kind = .substring then min digits len else len

/-- Pad a text and copy it to the output, if there is room for it. -/
def putText (buffSize : Nat) (o : Output) (digits : Nat) (fill : UInt8) (kind : Conversion) (text : List UInt8) :
    Exec (Except Status Output) := do
  let len ← tempLen text
  let fillSpaces := if digits > len then digits - len else 0
  if wadd 32 o.offset len ≥ buffSize then pure (.error .bufferTooSmall)
  else if wadd 32 (wadd 32 o.offset len) fillSpaces ≥ buffSize then pure (.error .bufferTooSmall)
  else do
    let buffer ← pokeAll (Span 0 buffSize) o.buffer o.offset (List.replicate fillSpaces fill)
    let offset := wadd 32 o.offset fillSpaces
    let buffer ← if charsToCopy kind digits len ≠ 0
      then pokeAll (Span 0 buffSize) buffer offset (text.take (charsToCopy kind digits len) ++ [0])
      else pure buffer
    pure (.ok ⟨buffer, wadd 32 offset (charsToCopy kind digits len)⟩)

def shown (digits : Nat) (fill : UInt8) (kind : Conversion) (text : List UInt8) : List UInt8 :=
  List.replicate (digits - text.length) fill ++ text.take (charsToCopy kind digits text.length)

/-- The checks find no room for a text, as they are computed in 32 bits. -/
def Refused (buffSize offset digits len : Nat) : Prop :=
  wadd 32 offset len ≥ buffSize ∨ wadd 32 (wadd 32 offset len) (digits - len) ≥ buffSize

instance (buffSize offset digits len : Nat) : Decidable (Refused buffSize offset digits len) :=
  inferInstanceAs (Decidable (_ ∨ _))

/-- The loop of `cl_vsnprintf`; `n` conversions have been done. -/
def vsnprintfFrom (buffSize : Nat) : List Piece → List Arg → Nat → Output → Exec (Output × Except Status Nat)
  | [], _, n, o => do
    let buffer ← poke (Span 0 buffSize) o.buffer o.offset 0
    pure (⟨buffer, o.offset⟩, .ok n)
  | .unknown :: _, _, _, o => pure (o, .error .parseFailed)
  | .literal c :: pieces, args, n, o =>
    if wadd 32 o.offset 1 ≥ buffSize then do
      let buffer ← poke (Span 0 buffSize) o.buffer o.offset 0
      pure (⟨buffer, o.offset⟩, .error .bufferTooSmall)
    else do
      let buffer ← poke (Span 0 buffSize) o.buffer o.offset c
      vsnprintfFrom buffSize pieces args n ⟨buffer, wadd 32 o.offset 1⟩
  | .conversion _ _ :: _, [], _, _ => throw .wild
  | .conversion digits kind :: pieces, arg :: args, n, o => do
    let text ← tempText kind arg
    let put ← putText buffSize o (widthOf digits) (fillChar digits) kind text
    match put with
    | .error status => pure (o, .error status)
    | .ok o => vsnprintfFrom buffSize pieces args (wadd 32 n 1) o

/-- The output, and the number of conversions or the error (C `cl_vsnprintf`). -/
def clVsnprintf (buffer : Mem) (buffSize : Nat) (format : List UInt8) (args : List Arg) :
    Exec (Output × Except Status Nat) :=
  if buffSize = 0 then pure (⟨buffer, 0⟩, .error .invalidParameter2)
  else vsnprintfFrom buffSize (parse format) args 0 ⟨buffer, 0⟩

section Put

variable {buffSize digits : Nat} {o : Output} {fill : UInt8} {kind : Conversion} {text : List UInt8}

lemma tempLen_ok (h : text.length < maxDword) : tempLen text = .ok text.length := by
  rw [tempLen, if_neg (by rw [maxDword] at h; omega)]
  exact congrArg (· >>= fun _ => pure text.length) (ensure_pos (Nat.ne_of_lt h))

lemma tempLen_fault (h : ¬ text.length < maxDword) : ∃ e, tempLen text = .error e := by
  rw [tempLen]
  by_cases hlong : text.length ≥ 2 ^ 32
  · rw [if_pos hlong]
    exact ⟨.fuel, rfl⟩
  · have hmax : text.length = maxDword := by
      rw [maxDword] at h ⊢
      omega
    rw [if_neg hlong]
    exact ⟨.check, congrArg (· >>= fun _ => pure text.length) (ensure_neg (not_not.mpr hmax))⟩

lemma charsToCopy_le (kind : Conversion) (digits len : Nat) : charsToCopy kind digits len ≤ len := by
  rw [charsToCopy]
  split
  · exact Nat.min_le_right ..
  · exact le_rfl

lemma length_shown : (shown digits fill kind text).length =
    digits - text.length + charsToCopy kind digits text.length := by
  rw [shown, length_append, length_replicate, length_take_of_le (charsToCopy_le ..)]

lemma putText_refused (hlen : text.length < maxDword) (h : Refused buffSize o.offset digits text.length) :
    putText buffSize o digits fill kind text = .ok (.error .bufferTooSmall) := by
  have hpad : (if digits > text.length then digits - text.length else 0) = digits - text.length := by
    split <;> omega
  rw [putText, tempLen_ok hlen, bind_okay]
  dsimp only
  rw [hpad]
  by_cases h1 : wadd 32 o.offset text.length ≥ buffSize
  · rw [if_pos h1]
    rfl
  · rw [if_neg h1, if_pos (h.resolve_left h1)]
    rfl

lemma putText_accepted (hlen : text.length < maxDword) (h : ¬ Refused buffSize o.offset digits text.length) :
    putText buffSize o digits fill kind text = (do
      let buffer ← pokeAll (Span 0 buffSize) o.buffer o.offset (List.replicate (digits - text.length) fill)
      let offset := wadd 32 o.offset (digits - text.length)
      let buffer ← if charsToCopy kind digits text.length ≠ 0
        then pokeAll (Span 0 buffSize) buffer offset (text.take (charsToCopy kind digits text.length) ++ [0])
        else pure buffer
      pure (.ok ⟨buffer, wadd 32 offset (charsToCopy kind digits text.length)⟩)) := by
  have hpad : (if digits > text.length then digits - text.length else 0) = digits - text.length := by
    split <;> omega
  obtain ⟨h1, h2⟩ := not_or.mp h
  rw [putText, tempLen_ok hlen, bind_okay]
  dsimp only
  rw [hpad, if_neg h1, if_neg h2]

lemma putText_fits (hsize : buffSize < 2 ^ 32) (hlen : text.length < maxDword)
    (h : ¬ Refused buffSize o.offset digits text.length)
    (hfit : o.offset + (shown digits fill kind text).length < buffSize) :
    putText buffSize o digits fill kind text =
      .ok (.ok ⟨writeAt o.buffer o.offset (shown digits fill kind text ++
        if charsToCopy kind digits text.length ≠ 0 then [0] else []),
        o.offset + (shown digits fill kind text).length⟩) := by
  have hcopy := charsToCopy_le kind digits text.length
  rw [length_shown] at hfit ⊢
  rw [putText_accepted hlen h, pokeAll_pos, bind_okay, wadd_eq (by omega)]
  · dsimp only
    rw [shown, append_assoc, writeAt_append, length_replicate]
    by_cases h0 : charsToCopy kind digits text.length = 0
    · rw [if_neg (not_not.mpr h0), if_neg (not_not.mpr h0), h0, wadd_eq (by omega)]
      rfl
    · rw [if_pos h0, if_pos h0, pokeAll_pos, bind_okay, wadd_eq (by omega), Nat.add_assoc]
      · rfl
      · intro x hx
        have hx2 := hx.2
        rw [length_append, length_take_of_le hcopy, length_singleton] at hx2
        exact ⟨Nat.zero_le x, by omega⟩
  · intro x hx
    have hx2 := hx.2
    rw [length_replicate] at hx2
    exact ⟨Nat.zero_le x, by omega⟩

lemma putText_wild (hsize : buffSize < 2 ^ 32) (hoff : o.offset < buffSize) (hlen : text.length < maxDword)
    (h : ¬ Refused buffSize o.offset digits text.length)
    (hfit : ¬ o.offset + (shown digits fill kind text).length < buffSize) :
    putText buffSize o digits fill kind text = .error .wild := by
  have hcopy := charsToCopy_le kind digits text.length
  rw [length_shown] at hfit
  rw [putText_accepted hlen h]
  by_cases hpad : o.offset + (digits - text.length) ≤ buffSize
  · by_cases h0 : charsToCopy kind digits text.length = 0
    · -- nothing is copied, so the padding alone would reach the end of the buffer
      exfalso
      obtain ⟨h1, h2⟩ := not_or.mp h
      rw [h0] at hfit
      rw [maxDword] at hlen
      rw [charsToCopy] at h0
      rw [wadd] at h1
      simp only [wadd] at h2
      split at h0
      · omega
      · omega
    · rw [pokeAll_pos, bind_okay, wadd_eq (by omega)]
      · dsimp only
        rw [if_pos h0, pokeAll_neg]
        · rfl
        · refine ⟨buffSize, ⟨hpad, ?_⟩, fun hx => ?_⟩
          · rw [length_append, length_take_of_le hcopy, length_singleton]
            omega
          · have := hx.2
            omega
      · intro x hx
        have hx2 := hx.2
        rw [length_replicate] at hx2
        exact ⟨Nat.zero_le x, by omega⟩
  · rw [pokeAll_neg]
    · rfl
    · refine ⟨buffSize, ⟨by omega, ?_⟩, fun hx => ?_⟩
      · rw [length_replicate]
        omega
      · have := hx.2
        omega

end Put

/-- Every conversion that is reached has an argument of its kind, whose text has no zero byte. -/
def Matches : List Piece → List Arg → Prop
  | [], _ => True
  | .unknown :: _, _ => True
  | .literal _ :: pieces, args => Matches pieces args
  | .conversion _ _ :: _, [] => False
  | .conversion _ kind :: pieces, arg :: args =>
    (∃ text, tempText kind arg = .ok text ∧ ∀ c ∈ text, c ≠ 0) ∧ Matches pieces args

/-- There is a zero byte behind the text that has been produced, within the buffer. -/
def Terminates (buffSize : Nat) (x : Exec (Output × Except Status Nat)) : Prop :=
  ∃ o r, x = .ok (o, r) ∧ o.offset < buffSize ∧ o.buffer o.offset = 0

/-- The condition: a conversion that is unknown or refused comes right behind the text of a conversion (`closed`),
    which has put a zero byte there; one that passes the checks fits; no string is as long as `MAX_DWORD`. -/
def Careful (buffSize : Nat) : List Piece → List Arg → Nat → Bool → Prop
  | [], _, _, _ => True
  | .unknown :: _, _, _, closed => closed = true
  | .literal _ :: pieces, args, offset, _ =>
    offset + 1 < buffSize → Careful buffSize pieces args (offset + 1) false
  | .conversion _ _ :: _, [], _, _ => False
  | .conversion digits kind :: pieces, arg :: args, offset, closed =>
    ∃ text, tempText kind arg = .ok text ∧ text.length < maxDword ∧
      if Refused buffSize offset (widthOf digits) text.length then closed = true
      else
        offset + (shown (widthOf digits) (fillChar digits) kind text).length < buffSize ∧
        Careful buffSize pieces args (offset + (shown (widthOf digits) (fillChar digits) kind text).length)
          (charsToCopy kind (widthOf digits) text.length ≠ 0 || closed && widthOf digits ≤ text.length)

section Terminator

variable {buffSize n : Nat} {pieces : List Piece} {args : List Arg} {o : Output} {closed : Bool}

lemma terminates_of_careful (hsize : buffSize < 2 ^ 32) (hoff : o.offset < buffSize)
    (hclosed : closed = true → o.buffer o.offset = 0) (h : Careful buffSize pieces args o.offset closed) :
    Terminates buffSize (vsnprintfFrom buffSize pieces args n o) := by
  have hin : Span 0 buffSize o.offset := ⟨Nat.zero_le _, by omega⟩
  induction pieces generalizing args n o closed with
  | nil =>
    rw [vsnprintfFrom, poke_pos hin, bind_okay]
    exact ⟨_, _, rfl, hoff, update_self ..⟩
  | cons piece pieces ih =>
    cases piece with
    | unknown =>
      rw [vsnprintfFrom]
      exact ⟨o, _, rfl, hoff, hclosed h⟩
    | literal c =>
      rw [vsnprintfFrom, wadd_eq (by omega)]
      by_cases hroom : o.offset + 1 ≥ buffSize
      · rw [if_pos hroom, poke_pos hin, bind_okay]
        exact ⟨_, _, rfl, hoff, update_self ..⟩
      · rw [if_neg hroom, poke_pos hin, bind_okay]
        exact ih (o := ⟨_, o.offset + 1⟩) (by dsimp only; omega) (fun hf => Bool.noConfusion hf) (h (by omega))
          ⟨Nat.zero_le _, by dsimp only; omega⟩
    | conversion digits kind =>
      cases args with
      | nil => exact h.elim
      | cons arg args =>
        obtain ⟨text, htext, hlen, hput⟩ := h
        rw [vsnprintfFrom, htext, bind_okay]
        by_cases href : Refused buffSize o.offset (widthOf digits) text.length
        · rw [if_pos href] at hput
          rw [putText_refused hlen href, bind_okay]
          exact ⟨o, _, rfl, hoff, hclosed hput⟩
        · rw [if_neg href] at hput
          rw [putText_fits hsize hlen href hput.1, bind_okay]
          refine ih (o := ⟨_, _⟩) hput.1 (fun hc => ?_) hput.2 ⟨Nat.zero_le _, by dsimp only; omega⟩
          dsimp only
          by_cases h0 : charsToCopy kind (widthOf digits) text.length = 0
          · -- nothing was written, and the zero byte is still there
            rw [h0] at hc
            simp only [ne_eq, not_true_eq_false, decide_false, Bool.false_or, Bool.and_eq_true,
              decide_eq_true_eq] at hc
            have hnil : shown (widthOf digits) (fillChar digits) kind text = [] := by
              rw [← length_eq_zero_iff, length_shown, h0]
              omega
            rw [if_neg (not_not.mpr h0), hnil]
            exact hclosed hc.1
          · have hholds := holds_writeAt (m := o.buffer) (a := o.offset)
              (s := shown (widthOf digits) (fillChar digits) kind text ++ [0])
              (shown (widthOf digits) (fillChar digits) kind text).length (by simp)
            rw [if_pos h0, hholds]
            simp

lemma closed_of_zero {b : UInt8} (hb : b = if closed then 0 else 1) (h0 : b = 0) : closed = true := by
  by_contra hc
  rw [if_neg hc] at hb
  cases hb.symm.trans h0

lemma byte_behind (digits : Nat) (fill : UInt8) (kind : Conversion) (text : List UInt8) {b : Mem} {offset : Nat}
    (habove : ∀ x > offset, b x = 1) (hclosed : b offset = if closed then 0 else 1) :
    (∀ x > offset + (shown digits fill kind text).length, writeAt b offset (shown digits fill kind text ++
        if charsToCopy kind digits text.length ≠ 0 then [0] else []) x = 1) ∧
      writeAt b offset (shown digits fill kind text ++
        if charsToCopy kind digits text.length ≠ 0 then [0] else [])
        (offset + (shown digits fill kind text).length) =
      if (charsToCopy kind digits text.length ≠ 0 || closed && digits ≤ text.length : Bool) then 0 else 1 := by
  by_cases h0 : charsToCopy kind digits text.length = 0
  · rw [if_neg (not_not.mpr h0), append_nil]
    have hlen : (shown digits fill kind text).length = digits - text.length := by
      rw [length_shown, h0, Nat.add_zero]
    constructor
    · intro x hx
      rw [writeAt_within x fun hspan => by have := hspan.2; omega]
      exact habove x (by omega)
    · rw [writeAt_within _ fun hspan => by have := hspan.2; omega]
      by_cases hle : digits ≤ text.length
      · rw [hlen, Nat.sub_eq_zero_of_le hle, Nat.add_zero, hclosed]
        simp [h0, hle]
      · rw [habove _ (by omega)]
        simp [h0, hle]
  · rw [if_pos h0]
    constructor
    · intro x hx
      rw [writeAt_within x fun hspan => by
        have := hspan.2
        rw [length_append, length_singleton] at this
        omega]
      exact habove x (by omega)
    · rw [holds_writeAt (shown digits fill kind text).length (by simp)]
      simp [h0]

lemma careful_of_terminates (hsize : buffSize < 2 ^ 32) (hoff : o.offset < buffSize)
    (habove : ∀ x > o.offset, o.buffer x = 1) (hclosed : o.buffer o.offset = if closed then 0 else 1)
    (hmatch : Matches pieces args) (h : Terminates buffSize (vsnprintfFrom buffSize pieces args n o)) :
    Careful buffSize pieces args o.offset closed := by
  induction pieces generalizing args n o closed with
  | nil => trivial
  | cons piece pieces ih =>
    cases piece with
    | unknown =>
      obtain ⟨o', r, hrun, -, h0⟩ := h
      rw [vsnprintfFrom] at hrun
      cases hrun
      exact closed_of_zero hclosed h0
    | literal c =>
      intro hroom
      rw [vsnprintfFrom, wadd_eq (by omega), if_neg (by omega), poke_pos ⟨Nat.zero_le _, by omega⟩, bind_okay] at h
      refine ih (o := ⟨_, o.offset + 1⟩) hroom (fun x hx => ?_) ?_ hmatch h
      · dsimp only at hx ⊢
        rw [update_of_ne (by omega)]
        exact habove x (by omega)
      · dsimp only
        rw [update_of_ne (by omega)]
        exact habove _ (by omega)
    | conversion digits kind =>
      cases args with
      | nil => exact hmatch.elim
      | cons arg args =>
        obtain ⟨⟨text, htext, -⟩, hmatch⟩ := hmatch
        rw [vsnprintfFrom, htext, bind_okay] at h
        by_cases hlen : text.length < maxDword
        · refine ⟨text, htext, hlen, ?_⟩
          by_cases href : Refused buffSize o.offset (widthOf digits) text.length
          · rw [if_pos href]
            rw [putText_refused hlen href, bind_okay] at h
            obtain ⟨o', r, hrun, -, h0⟩ := h
            cases hrun
            exact closed_of_zero hclosed h0
          · rw [if_neg href]
            by_cases hfit : o.offset + (shown (widthOf digits) (fillChar digits) kind text).length < buffSize
            · rw [putText_fits hsize hlen href hfit, bind_okay] at h
              obtain ⟨habove', hbehind⟩ := byte_behind (widthOf digits) (fillChar digits) kind text habove
                hclosed
              exact ⟨hfit, ih (o := ⟨_, _⟩) hfit habove' hbehind hmatch h⟩
            · rw [putText_wild hsize hoff hlen href hfit] at h
              obtain ⟨o', r, hrun, -⟩ := h
              cases hrun
        · obtain ⟨e, he⟩ := tempLen_fault hlen
          rw [putText, he] at h
          obtain ⟨o', r, hrun, -⟩ := h
          cases hrun

/-- Whatever the buffer holds before, the call keeps to its first `buffSize` bytes and leaves a zero byte behind
    the text, if and only if the condition holds. -/
theorem vsnprintf_terminates_iff {format : List UInt8} (hpos : 1 ≤ buffSize) (hsize : buffSize < 2 ^ 32)
    (hmatch : Matches (parse format) args) :
    (∀ buffer, Terminates buffSize (clVsnprintf buffer buffSize format args)) ↔
      Careful buffSize (parse format) args 0 false := by
  have hrun : ∀ buffer, clVsnprintf buffer buffSize format args =
      vsnprintfFrom buffSize (parse format) args 0 ⟨buffer, 0⟩ := fun buffer => if_neg (by omega)
  constructor
  · intro h
    have hones := h fun _ => 1
    rw [hrun] at hones
    exact careful_of_terminates (o := ⟨fun _ => 1, 0⟩) hsize hpos (fun _ _ => rfl) rfl hmatch hones
  · intro h buffer
    rw [hrun]
    exact terminates_of_careful (o := ⟨buffer, 0⟩) hsize hpos (fun hf => Bool.noConfusion hf) h

end Terminator

/-- `"a%s"` with `"bc"`, in a buffer of 4 bytes. -/
theorem vsnprintf_terminates_string :
    Terminates 4 (clVsnprintf (fun _ => 1) 4 [0x61, 0x25, 0x73] [.string [0x62, 0x63]]) := by
  have hmatch : Matches (parse [0x61, 0x25, 0x73]) [.string [0x62, 0x63]] := ⟨⟨[0x62, 0x63], rfl, by simp⟩, trivial⟩
  refine (vsnprintf_terminates_iff (by decide) (by decide) hmatch).mpr ?_ _
  exact fun _ => ⟨_, rfl, by decide, by decide, trivial⟩

/-- `"ab%q"` leaves no zero byte in a buffer of 3 bytes. -/
theorem vsnprintf_unknown_unterminated :
    ∃ o, clVsnprintf (fun _ => 1) 3 [0x61, 0x62, 0x25, 0x71] [] = .ok (o, .error .parseFailed) ∧
      ∀ x < 3, o.buffer x ≠ 0 := ⟨_, rfl, by decide⟩

end HAL9000.CString
