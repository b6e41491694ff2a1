import HAL9000.CommonLib.Printf

/-!
# What formatted output says

`render` is the text that a format and its arguments stand for. `cl_vsnprintf` writes it if it fits, and says that
the buffer is too small if it does not, but for one case: the room for `%S` is checked with the length of the
whole string, and not with the number of characters that are copied.
-/

namespace HAL9000.CString
open Lib List

def decimal (digits : List UInt8) : Nat := digits.foldl (fun n c => n * 10 + (c.toNat - 0x30)) 0

def padded (width : Nat) (fill : UInt8) (text : List UInt8) : List UInt8 :=
  List.replicate (width - text.length) fill ++ text

/-- The text of a conversion: `%S` takes at most as many characters as its width. -/
def pieceText (digits : List UInt8) (kind : Conversion) (text : List UInt8) : List UInt8 :=
  padded (decimal digits) (fillChar digits) (if kind = .substring then text.take (decimal digits) else text)

def render : List Piece → List Arg → List UInt8
  | [], _ => []
  | .unknown :: _, _ => []
  | .literal c :: pieces, args => c :: render pieces args
  | .conversion _ _ :: _, [] => []
  | .conversion digits kind :: pieces, arg :: args =>
    (match tempText kind arg with
      | .ok text => pieceText digits kind text
      | .error _ => []) ++ render pieces args

def conversions : List Piece → Nat
  | [] => 0
  | .conversion _ _ :: pieces => conversions pieces + 1
  | _ :: pieces => conversions pieces

/-- The condition: at every `%S` there is room for the whole string. -/
def Roomy (buffSize : Nat) : List Piece → List Arg → Nat → Prop
  | [], _, _ => True
  | .unknown :: _, _, _ => True
  | .literal _ :: pieces, args, offset => Roomy buffSize pieces args (offset + 1)
  | .conversion _ _ :: _, [], _ => True
  | .conversion digits kind :: pieces, arg :: args, offset =>
    ∀ text, tempText kind arg = .ok text →
      (kind = .substring → offset + text.length < buffSize) ∧
      Roomy buffSize pieces args (offset + (pieceText digits kind text).length)

def Modest : List Piece → List Arg → Prop
  | [], _ => True
  | .unknown :: _, _ => False
  | .literal _ :: pieces, args => Modest pieces args
  | .conversion _ _ :: _, [] => False
  | .conversion digits kind :: pieces, arg :: args =>
    (∃ text, tempText kind arg = .ok text ∧ (∀ c ∈ text, c ≠ 0) ∧ text.length < 2 ^ 31) ∧
      decimal digits < 2 ^ 16 ∧ Modest pieces args

section Text

variable {digits : List UInt8} {kind : Conversion} {text : List UInt8} {buffSize offset : Nat}

lemma widthOf_eq (digits : List UInt8) : widthOf digits = decimal digits % 2 ^ 32 := by
  suffices gen : ∀ n, digits.foldl (fun n c => (n * 10 + (c.toNat - 0x30)) % 2 ^ 32) (n % 2 ^ 32) =
      digits.foldl (fun n c => n * 10 + (c.toNat - 0x30)) n % 2 ^ 32 from gen 0
  induction digits with
  | nil => exact fun n => rfl
  | cons c digits ih =>
    intro n
    rw [foldl_cons, foldl_cons, ← ih]
    refine congrArg (fun k => digits.foldl (fun n c => (n * 10 + (c.toNat - 0x30)) % 2 ^ 32) k) ?_
    omega

lemma shown_eq (h : decimal digits < 2 ^ 16) :
    shown (widthOf digits) (fillChar digits) kind text = pieceText digits kind text := by
  have hw : widthOf digits = decimal digits := by
    rw [widthOf_eq]
    omega
  rw [hw, shown, pieceText, padded, charsToCopy]
  split
  · by_cases hle : decimal digits ≤ text.length
    · rw [Nat.min_eq_left hle, length_take_of_le hle, Nat.sub_eq_zero_of_le hle, Nat.sub_self]
    · rw [Nat.min_eq_right (by omega), take_length, take_of_length_le (by omega)]
  · rw [take_length]

lemma length_pieceText : (pieceText digits kind text).length =
    if kind = .substring then decimal digits else max (decimal digits) text.length := by
  rw [pieceText, padded, length_append, length_replicate]
  split
  · rw [length_take]
    omega
  · omega

variable (hd : decimal digits < 2 ^ 16) (hlen : text.length < 2 ^ 31) (hoff : offset < 2 ^ 31)
include hd hlen hoff

lemma refused_iff :
    Refused buffSize offset (widthOf digits) text.length ↔
      buffSize ≤ offset + max (decimal digits) text.length := by
  have hw : widthOf digits = decimal digits := by
    rw [widthOf_eq]
    omega
  rw [hw, Refused, wadd_eq (by omega), wadd_eq (by omega)]
  omega

lemma refused_iff_pieceText :
    Refused buffSize offset (widthOf digits) text.length ↔
      buffSize ≤ offset + (pieceText digits kind text).length ∨
        kind = .substring ∧ buffSize ≤ offset + text.length := by
  rw [refused_iff hd hlen hoff, length_pieceText]
  split
  · next hk =>
    simp only [hk, true_and]
    omega
  · next hk =>
    simp only [hk, false_and, or_false]

end Text

lemma Holds.append {m : Mem} {a : Nat} {s t : List UInt8} (hs : Holds m a s) (ht : Holds m (a + s.length) t) :
    Holds m a (s ++ t) := by
  intro i hi
  rw [length_append] at hi
  by_cases hlt : i < s.length
  · rw [getElem_append_left hlt]
    exact hs i hlt
  · rw [getElem_append_right (by omega)]
    have hget := ht (i - s.length) (by omega)
    rwa [show a + s.length + (i - s.length) = a + i by omega] at hget

section Run

variable {buffSize n : Nat} {pieces : List Piece} {args : List Arg} {o : Output}

/-- The text is in the buffer, with a zero byte behind it, and what is in front of it has not changed. -/
structure Written (b b' : Mem) (offset : Nat) (text : List UInt8) : Prop where
  holds : Holds b' offset text
  last : b' (offset + text.length) = 0
  before : ∀ x < offset, b' x = b x

lemma Written.append {b b₁ b' : Mem} {offset : Nat} {s t u : List UInt8} (hb : b₁ = writeAt b offset (s ++ u))
    (h : Written b₁ b' (offset + s.length) t) : Written b b' offset (s ++ t) := by
  have hholds : Holds b₁ offset (s ++ u) := hb ▸ holds_writeAt
  refine ⟨Holds.append (fun i hi => ?_) h.holds, ?_, fun x hx => ?_⟩
  · rw [h.before _ (by omega), hholds i (by rw [length_append]; omega), getElem_append_left hi]
  · rw [length_append, ← Nat.add_assoc]
    exact h.last
  · rw [h.before x (by omega), hb]
    exact writeAt_within x fun hspan => by have := hspan.1; omega

lemma vsnprintfFrom_render (hsize : buffSize < 2 ^ 32) (hoff : o.offset < buffSize) (hmodest : Modest pieces args)
    (hlen : o.offset + (render pieces args).length < 2 ^ 31) (hn : n + pieces.length < 2 ^ 32) :
    (o.offset + (render pieces args).length < buffSize ∧ Roomy buffSize pieces args o.offset →
      ∃ o', vsnprintfFrom buffSize pieces args n o = .ok (o', .ok (n + conversions pieces)) ∧
        Written o.buffer o'.buffer o.offset (render pieces args)) ∧
    (¬ (o.offset + (render pieces args).length < buffSize ∧ Roomy buffSize pieces args o.offset) →
      ∃ o', vsnprintfFrom buffSize pieces args n o = .ok (o', .error .bufferTooSmall)) := by
  induction pieces generalizing args n o with
  | nil =>
    refine ⟨fun _ => ?_, fun h => absurd ⟨by rw [render]; exact hoff, trivial⟩ h⟩
    rw [vsnprintfFrom, poke_pos ⟨Nat.zero_le _, by omega⟩, bind_okay]
    refine ⟨_, rfl, fun i hi => absurd hi (by simp [render]), Function.update_self .., fun x hx => ?_⟩
    exact Function.update_of_ne (by omega) ..
  | cons piece pieces ih =>
    cases piece with
    | unknown => exact hmodest.elim
    | literal c =>
      rw [render, length_cons] at hlen
      rw [length_cons] at hn
      have hconv : conversions (.literal c :: pieces) = conversions pieces := rfl
      rw [vsnprintfFrom, wadd_eq (by omega), render, length_cons, Roomy, hconv]
      by_cases hroom : o.offset + 1 ≥ buffSize
      · refine ⟨fun h => by omega, fun _ => ?_⟩
        rw [if_pos hroom, poke_pos ⟨Nat.zero_le _, by omega⟩, bind_okay]
        exact ⟨_, rfl⟩
      · rw [if_neg hroom, poke_pos ⟨Nat.zero_le _, by omega⟩, bind_okay]
        obtain ⟨h1, h2⟩ := ih (o := ⟨Function.update o.buffer o.offset c, o.offset + 1⟩) (n := n)
          (by dsimp only; omega) hmodest (by dsimp only; omega) (by omega)
        dsimp only at h1 h2
        rw [show o.offset + 1 + (render pieces args).length = o.offset + ((render pieces args).length + 1) by omega]
          at h1 h2
        refine ⟨fun h => ?_, h2⟩
        obtain ⟨o', hrun, hw⟩ := h1 h
        exact ⟨o', hrun, Written.append (s := [c]) (u := []) rfl hw⟩
    | conversion digits kind =>
      cases args with
      | nil => exact hmodest.elim
      | cons arg args =>
        obtain ⟨⟨text, htext, -, hshort⟩, hnarrow, hmodest⟩ := hmodest
        have hrender : render (.conversion digits kind :: pieces) (arg :: args) =
            pieceText digits kind text ++ render pieces args := by rw [render, htext]
        have hroomy : Roomy buffSize (.conversion digits kind :: pieces) (arg :: args) o.offset ↔
            (kind = .substring → o.offset + text.length < buffSize) ∧
              Roomy buffSize pieces args (o.offset + (pieceText digits kind text).length) := by
          rw [Roomy, htext]
          exact ⟨fun h => h text rfl, fun h t ht => Except.ok.inj ht ▸ h⟩
        rw [hrender, length_append] at hlen
        rw [length_cons] at hn
        rw [hrender, length_append, hroomy, conversions, vsnprintfFrom, htext, bind_okay]
        have hmax : text.length < maxDword := by
          rw [maxDword]
          omega
        have href : Refused buffSize o.offset (widthOf digits) text.length ↔
            buffSize ≤ o.offset + (pieceText digits kind text).length ∨
              kind = .substring ∧ buffSize ≤ o.offset + text.length :=
          refused_iff_pieceText hnarrow hshort (by omega)
        by_cases hrefused : Refused buffSize o.offset (widthOf digits) text.length
        · rw [putText_refused hmax hrefused, bind_okay]
          refine ⟨fun h => ?_, fun _ => ⟨o, rfl⟩⟩
          obtain hfit | ⟨hk, hfit⟩ := href.mp hrefused
          · omega
          · have := h.2.1 hk
            omega
        · obtain ⟨hfit, hsub⟩ := not_or.mp fun h => hrefused (href.mpr h)
          have hkind : kind = .substring → o.offset + text.length < buffSize := by
            intro hk
            by_contra hge
            exact hsub ⟨hk, by omega⟩
          rw [putText_fits hsize hmax hrefused (by rw [shown_eq hnarrow]; omega), bind_okay, shown_eq hnarrow,
            wadd_eq (by omega)]
          obtain ⟨h1, h2⟩ := ih (n := n + 1) (o := ⟨writeAt o.buffer o.offset (pieceText digits kind text ++
            if charsToCopy kind (widthOf digits) text.length ≠ 0 then [0] else []),
            o.offset + (pieceText digits kind text).length⟩) (by dsimp only; omega) hmodest (by dsimp only; omega)
            (by omega)
          dsimp only at h1 h2 ⊢
          rw [Nat.add_assoc o.offset] at h1 h2
          refine ⟨fun h => ?_, fun h => h2 fun h' => h ⟨h'.1, hkind, h'.2⟩⟩
          obtain ⟨o', hrun, hw⟩ := h1 ⟨h.1, h.2.2⟩
          refine ⟨o', hrun.trans ?_, Written.append rfl hw⟩
          rw [Nat.add_assoc n, Nat.add_comm 1]

end Run

section Formats

variable {buffSize : Nat} {format : List UInt8} {pieces : List Piece} {args : List Arg}

lemma length_parseFrom (format : List UInt8) (digits : Option (List UInt8)) :
    (parseFrom digits format).length ≤ format.length + 1 ∧
      (digits = none → (parseFrom digits format).length ≤ format.length) := by
  induction format generalizing digits with
  | nil =>
    cases digits with
    | none => exact ⟨Nat.zero_le _, fun _ => le_rfl⟩
    | some ds => exact ⟨le_rfl, fun h => by cases h⟩
  | cons c format ih =>
    cases digits with
    | none =>
      rw [parseFrom, length_cons]
      split
      · have := (ih (some [])).1
        exact ⟨by omega, fun _ => this⟩
      · have := (ih none).2 rfl
        rw [length_cons]
        exact ⟨by omega, fun _ => by omega⟩
    | some ds =>
      refine ⟨?_, fun h => by cases h⟩
      rw [parseFrom, length_cons]
      split
      · exact Nat.le_succ_of_le (ih _).1
      · split
        · have := (ih none).2 rfl
          rw [length_cons]
          omega
        · rw [length_singleton]
          omega

lemma literal_mem_parseFrom {c : UInt8} {digits : Option (List UInt8)}
    (h : .literal c ∈ parseFrom digits format) : c ∈ format := by
  induction format generalizing digits with
  | nil =>
    cases digits with
    | none => cases h
    | some ds =>
      obtain h | h := List.mem_cons.mp h
      · cases h
      · cases h
  | cons d format ih =>
    cases digits with rw [parseFrom] at h
    | none =>
      split at h
      · exact mem_cons_of_mem d (ih h)
      · obtain h | h := List.mem_cons.mp h
        · cases h
          exact mem_cons_self
        · exact mem_cons_of_mem d (ih h)
    | some ds =>
      split at h
      · exact mem_cons_of_mem d (ih h)
      · split at h
        · obtain h | h := List.mem_cons.mp h
          · cases h
          · exact mem_cons_of_mem d (ih h)
        · obtain h | h := List.mem_cons.mp h
          · cases h
          · cases h

lemma pieceText_ne_zero {digits : List UInt8} {kind : Conversion} {text : List UInt8} (h : ∀ c ∈ text, c ≠ 0) :
    ∀ c ∈ pieceText digits kind text, c ≠ 0 := by
  intro c hc
  rw [pieceText, padded] at hc
  obtain hc | hc := List.mem_append.mp hc
  · obtain ⟨-, rfl⟩ := List.mem_replicate.mp hc
    rw [fillChar]
    split
    · decide
    · decide
  · split at hc
    · exact h c (mem_of_mem_take hc)
    · exact h c hc

lemma render_ne_zero (hmodest : Modest pieces args) (hlit : ∀ c, .literal c ∈ pieces → c ≠ 0) :
    ∀ c ∈ render pieces args, c ≠ 0 := by
  induction pieces generalizing args with
  | nil => exact fun c hc => absurd hc not_mem_nil
  | cons piece pieces ih =>
    have hlit' : ∀ c, .literal c ∈ pieces → c ≠ 0 := fun c hc => hlit c (mem_cons_of_mem _ hc)
    cases piece with
    | unknown => exact hmodest.elim
    | literal d =>
      intro c hc
      obtain rfl | hc := List.mem_cons.mp hc
      · exact hlit c mem_cons_self
      · exact ih hmodest hlit' c hc
    | conversion digits kind =>
      cases args with
      | nil => exact hmodest.elim
      | cons arg args =>
        obtain ⟨⟨text, htext, hne, -⟩, -, hmodest⟩ := hmodest
        intro c hc
        rw [render, htext] at hc
        obtain hc | hc := List.mem_append.mp hc
        · exact pieceText_ne_zero hne c hc
        · exact ih hmodest hlit' c hc

/-- The call does what it should: the text if it fits, with the number of conversions, and otherwise an error. -/
def Prints (buffer : Mem) (buffSize : Nat) (format : List UInt8) (args : List Arg) : Prop :=
  ((render (parse format) args).length < buffSize →
    ∃ o, clVsnprintf buffer buffSize format args = .ok (o, .ok (conversions (parse format))) ∧
      Spells o.buffer 0 (render (parse format) args)) ∧
  (buffSize ≤ (render (parse format) args).length →
    ∃ o, clVsnprintf buffer buffSize format args = .ok (o, .error .bufferTooSmall))

lemma clVsnprintf_render (buffer : Mem) (hpos : 1 ≤ buffSize) (hsize : buffSize < 2 ^ 32)
    (hformat : ∀ c ∈ format, c ≠ 0) (hmodest : Modest (parse format) args) (hlen : format.length < 2 ^ 31)
    (htotal : (render (parse format) args).length < 2 ^ 31) :
    ((render (parse format) args).length < buffSize ∧ Roomy buffSize (parse format) args 0 →
      ∃ o, clVsnprintf buffer buffSize format args = .ok (o, .ok (conversions (parse format))) ∧
        Spells o.buffer 0 (render (parse format) args)) ∧
    (¬ ((render (parse format) args).length < buffSize ∧ Roomy buffSize (parse format) args 0) →
      ∃ o, clVsnprintf buffer buffSize format args = .ok (o, .error .bufferTooSmall)) := by
  have hcall : clVsnprintf buffer buffSize format args =
      vsnprintfFrom buffSize (parse format) args 0 ⟨buffer, 0⟩ := if_neg (by omega)
  have hpieces : (parse format).length ≤ format.length := (length_parseFrom format none).2 rfl
  obtain ⟨hfits, hrefused⟩ := vsnprintfFrom_render (o := ⟨buffer, 0⟩) (n := 0) hsize hpos hmodest
    (by dsimp only; omega) (by omega)
  simp only [Nat.zero_add] at hfits hrefused
  rw [hcall]
  refine ⟨fun h => ?_, hrefused⟩
  obtain ⟨o, hrun, hw⟩ := hfits h
  refine ⟨o, hrun, spells_of_holds hw.holds ?_ hw.last⟩
  exact render_ne_zero hmodest fun c hc => hformat c (literal_mem_parseFrom hc)

/-- The text is printed if and only if, when it fits, every `%S` has room for its whole string. -/
theorem vsnprintf_prints_iff (buffer : Mem) (hpos : 1 ≤ buffSize) (hsize : buffSize < 2 ^ 32)
    (hformat : ∀ c ∈ format, c ≠ 0) (hmodest : Modest (parse format) args) (hlen : format.length < 2 ^ 31)
    (htotal : (render (parse format) args).length < 2 ^ 31) :
    Prints buffer buffSize format args ↔
      ((render (parse format) args).length < buffSize → Roomy buffSize (parse format) args 0) := by
  obtain ⟨hfits, hrefused⟩ := clVsnprintf_render buffer hpos hsize hformat hmodest hlen htotal
  constructor
  · rintro ⟨hprint, -⟩ hlt
    by_contra hroom
    obtain ⟨o, hrun, -⟩ := hprint hlt
    obtain ⟨o', hrun'⟩ := hrefused fun h => hroom h.2
    cases hrun.symm.trans hrun'
  · exact fun hroom => ⟨fun hlt => hfits ⟨hlt, hroom hlt⟩, fun hge => hrefused fun h => by omega⟩

end Formats

/-- `"%3d"` with 5. -/
theorem vsnprintf_prints_number : ∃ o, clVsnprintf (fun _ => 0) 4 [0x25, 0x33, 0x64] [.number 5] = .ok (o, .ok 1) ∧
      Spells o.buffer 0 [0x20, 0x20, 0x35] := by
  have hrender : render (parse [0x25, 0x33, 0x64]) [.number 5] = [0x20, 0x20, 0x35] := by decide
  have hmodest : Modest (parse [0x25, 0x33, 0x64]) [.number 5] :=
    ⟨⟨[0x35], by decide, by simp, by decide⟩, by decide, trivial⟩
  have hprints : Prints (fun _ => 0) 4 [0x25, 0x33, 0x64] [.number 5] := (vsnprintf_prints_iff _ (by decide)
    (by decide) (by simp) hmodest (by decide) (by rw [hrender]; decide)).mpr
    fun _ text _ => ⟨fun hk => absurd hk (by decide), trivial⟩
  rw [Prints, hrender] at hprints
  exact hprints.1 (by decide)

/-- `"%2S"` with `"abcdefgh"` is refused although `"ab"` fits. -/
theorem vsnprintf_refuses_substring :
    render (parse [0x25, 0x32, 0x53]) [.string [0x61, 0x62, 0x63, 0x64, 0x65, 0x66, 0x67, 0x68]] = [0x61, 0x62] ∧
      ∃ o, clVsnprintf (fun _ => 0) 5 [0x25, 0x32, 0x53]
        [.string [0x61, 0x62, 0x63, 0x64, 0x65, 0x66, 0x67, 0x68]] = .ok (o, .error .bufferTooSmall) :=
  ⟨by decide, _, rfl⟩

end HAL9000.CString
