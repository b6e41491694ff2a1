import HAL9000.CommonLib.Base
import HAL9000.Lib.ByteMem

/-!
# Bitmaps

Port of the part of `CommonLib/src/bitmap.c` that the reservation spaces and the interrupt vectors use.
The buffer of a bitmap lies in memory; a `Bitmap` is the descriptor that points at it. A scan is first
fit: `Scanned` says what it returns and which bits it flips.
-/

namespace HAL9000
open Lib List

/-- A bitmap and where its buffer is (C `BITMAP`). -/
structure Bitmap where
  bitmapBuffer : Nat := 0
  bufferSize : Nat := 0
  bitCount : Nat := 0
deriving DecidableEq, Repr

def bitmapEntryBits : Nat := 8

/-- A descriptor for so many bits, still without a buffer (C `BitmapPreinit`). -/
def bitmapPreinit (numberOfElements : Nat) : Exec Bitmap := do
  ensure (0 ≠ numberOfElements)
  pure {
    bitCount := numberOfElements
    bufferSize := alignAddressUpper numberOfElements bitmapEntryBits / bitmapEntryBits % 2 ^ 32 }

/-- Attach a buffer and set or clear all of it (C `BitmapInitEx`). -/
def bitmapInitEx (mem : Mem) (bitmap : Bitmap) (bitmapBuffer : Nat) (set : Bool) : Exec (Mem × Bitmap) := do
  ensure (0 ≠ bitmapBuffer)
  pure (fill mem bitmapBuffer bitmap.bufferSize (if set then 0xFF else 0),
    { bitmap with bitmapBuffer := bitmapBuffer })

/-- Set or clear one bit of a buffer (C `_BitmapChangeBit`). -/
def bitmapChangeBit (mem : Mem) (bitmapBuffer index : Nat) (set : Bool) : Mem :=
  let byteIndex := bitmapBuffer + index / bitmapEntryBits
  let mask : UInt8 := 1 <<< UInt8.ofNat (index % bitmapEntryBits)
  Function.update mem byteIndex (if set then mem byteIndex ||| mask else mem byteIndex &&& ~~~mask)

/-- Set or clear `count` bits of a buffer (C `_BitmapChangeBits`). -/
def bitmapChangeBits (mem : Mem) (bitmapBuffer index : Nat) (set : Bool) (count : Nat) : Mem :=
  (List.range count).foldl (fun mem i => bitmapChangeBit mem bitmapBuffer (wadd 32 index i) set)
    mem

/-- A bit of a buffer (C `_BitmapGetBit`). -/
def bitmapGetBit (mem : Mem) (bitmapBuffer index : Nat) : Bool :=
  isBooleanFlagOn (mem (bitmapBuffer + index / bitmapEntryBits)).toNat
    (1 <<< (index % bitmapEntryBits))

/-- A bit of the bitmap (C `BitmapGetBitValue`). -/
def bitmapGetBitValue (mem : Mem) (bitmap : Bitmap) (index : Nat) : Exec Bool := do
  ensure (index < bitmap.bitCount)
  ensure (0 ≠ bitmap.bitmapBuffer)
  pure (bitmapGetBit mem bitmap.bitmapBuffer index)

/-- Set or clear `count` bits (C `BitmapSetBitsValue`). The subtraction is in 32 bits. -/
def bitmapSetBitsValue (mem : Mem) (bitmap : Bitmap) (index count : Nat) (set : Bool) : Exec Mem := do
  ensure (index < bitmap.bitCount)
  ensure (index ≤ wsub 32 bitmap.bitCount count)
  ensure (0 ≠ count → 0 ≠ bitmap.bitmapBuffer)
  pure (bitmapChangeBits mem bitmap.bitmapBuffer index set count)

/-- The first index from which on so many bits have the value, or `MAX_DWORD`
    (C `_BitmapScanInternal`). -/
def bitmapScanInternal (mem : Mem) (bitmap : Bitmap)
    (startIndex firstInvalidBitIndex consecutiveBits : Nat) (set : Bool) : Exec Nat := do
  ensure (0 ≠ consecutiveBits)
  ensure (startIndex ≤ firstInvalidBitIndex)
  ensure (firstInvalidBitIndex ≤ bitmap.bitCount)
  if firstInvalidBitIndex - startIndex < consecutiveBits then pure maxDword
  else do
    let lastIndex := firstInvalidBitIndex - consecutiveBits
    ensure (0 ≠ bitmap.bitmapBuffer)
    pure (((range' startIndex (lastIndex + 1 - startIndex)).find? fun i =>
      (List.range consecutiveBits).all fun j =>
        set == bitmapGetBit mem bitmap.bitmapBuffer (wadd 32 i j)).getD maxDword)

/-- Scan for bits of one value and flip those that are found (C `BitmapScanFromToAndFlip`). -/
def bitmapScanFromToAndFlip (mem : Mem) (bitmap : Bitmap)
    (index firstInvalidBitIndex consecutiveBits : Nat) (set : Bool) : Exec (Nat × Mem) := do
  if 0 = consecutiveBits then pure (maxDword, mem)
  else if index > firstInvalidBitIndex ∨ firstInvalidBitIndex > bitmap.bitCount then
    pure (maxDword, mem)
  else do
    let bitmapIndex ← bitmapScanInternal mem bitmap index firstInvalidBitIndex consecutiveBits set
    if maxDword = bitmapIndex then pure (maxDword, mem)
    else pure (bitmapIndex, bitmapChangeBits mem bitmap.bitmapBuffer bitmapIndex (!set) consecutiveBits)

section Bits

variable {mem : Mem} {buffer i j k n : Nat} {set : Bool}

lemma isBooleanFlagOn_bit (x k : Nat) : isBooleanFlagOn x (1 <<< k) = x.testBit k := by
  rw [isBooleanFlagOn, Nat.one_shiftLeft, Nat.and_two_pow]
  cases x.testBit k with
  | false => simp
  | true => simp

lemma mask_testBit : ∀ k < 8, ∀ j < 8, ((1 : UInt8) <<< UInt8.ofNat k).toNat.testBit j = decide (j = k) := by
  decide

lemma mask_not_testBit :
    ∀ k < 8, ∀ j < 8, (~~~((1 : UInt8) <<< UInt8.ofNat k)).toNat.testBit j = decide (j ≠ k) := by
  decide

lemma changed_testBit (b : UInt8) (hk : k < 8) (hj : j < 8) :
    (if set then b ||| (1 : UInt8) <<< UInt8.ofNat k
      else b &&& ~~~((1 : UInt8) <<< UInt8.ofNat k)).toNat.testBit j =
      if j = k then set else b.toNat.testBit j := by
  cases set with
  | true =>
    rw [if_pos rfl, UInt8.toNat_or, Nat.testBit_or, mask_testBit k hk j hj]
    by_cases h : j = k
    · simp [h]
    · simp [h]
  | false =>
    rw [if_neg Bool.false_ne_true, UInt8.toNat_and, Nat.testBit_and, mask_not_testBit k hk j hj]
    by_cases h : j = k
    · simp [h]
    · simp [h]

lemma bitmapGetBit_changeBit (i j : Nat) : bitmapGetBit (bitmapChangeBit mem buffer i set) buffer j =
      if j = i then set else bitmapGetBit mem buffer j := by
  have hi : i % 8 < 8 := Nat.mod_lt _ (by omega)
  have hj : j % 8 < 8 := Nat.mod_lt _ (by omega)
  rw [bitmapGetBit, bitmapGetBit, isBooleanFlagOn_bit, isBooleanFlagOn_bit, bitmapChangeBit, bitmapEntryBits]
  by_cases hbyte : j / 8 = i / 8
  · rw [hbyte, Function.update_self, changed_testBit _ hi hj]
    by_cases hij : j = i
    · rw [if_pos hij, if_pos (by rw [hij])]
    · rw [if_neg hij, if_neg (by omega)]
  · rw [Function.update_of_ne (by omega), if_neg (fun h => hbyte (by rw [h]))]

lemma bitmapGetBit_changeBits_wadd (n j : Nat) : bitmapGetBit (bitmapChangeBits mem buffer i set n) buffer j =
      if ∃ k < n, wadd 32 i k = j then set else bitmapGetBit mem buffer j := by
  induction n with
  | zero => rw [if_neg (by omega)]; rfl
  | succ n ih =>
    rw [bitmapChangeBits, range_succ, foldl_append]
    refine (bitmapGetBit_changeBit _ j).trans ?_
    by_cases hj : j = wadd 32 i n
    · rw [if_pos hj, if_pos ⟨n, Nat.lt_succ_self n, hj.symm⟩]
    · rw [if_neg hj]
      refine ih.trans (if_congr ?_ rfl rfl)
      refine ⟨fun ⟨k, hk, hkj⟩ => ⟨k, by omega, hkj⟩, fun ⟨k, hk, hkj⟩ => ⟨k, ?_, hkj⟩⟩
      have : k ≠ n := fun hkn => hj (by rw [← hkj, hkn])
      omega

lemma bitmapGetBit_changeBits (hn : i + n ≤ 2 ^ 32) (j : Nat) :
    bitmapGetBit (bitmapChangeBits mem buffer i set n) buffer j =
      if i ≤ j ∧ j < i + n then set else bitmapGetBit mem buffer j := by
  refine (bitmapGetBit_changeBits_wadd n j).trans (if_congr ⟨?_, fun hj => ?_⟩ rfl rfl)
  · rintro ⟨k, hk, rfl⟩
    rw [wadd_eq (by omega)]
    omega
  · exact ⟨j - i, by omega, by rw [wadd_eq (by omega)]; omega⟩

lemma bitmapGetBit_fill (h : j / 8 < n) : bitmapGetBit (fill mem buffer n 0) buffer j = false := by
  rw [bitmapGetBit, isBooleanFlagOn_bit, fill, if_pos (by rw [bitmapEntryBits]; omega)]
  exact Nat.zero_testBit _

end Bits

/-- What a scan that flips may return: the first run of bits of the value, which are flipped, or
    `MAX_DWORD` if there is no such run. -/
inductive Scanned (mem : Mem) (buffer start stop count : Nat) (set : Bool) : Nat → Mem → Prop where
  | found {i} : start ≤ i → i + count ≤ stop → (∀ j < count, bitmapGetBit mem buffer (i + j) = set) →
    (∀ k, start ≤ k → k < i → ∃ j < count, bitmapGetBit mem buffer (k + j) ≠ set) →
    Scanned mem buffer start stop count set i (bitmapChangeBits mem buffer i (!set) count)
  | none : (∀ k, start ≤ k → k + count ≤ stop → ∃ j < count, bitmapGetBit mem buffer (k + j) ≠ set) →
    Scanned mem buffer start stop count set maxDword mem

section Scan

variable {mem mem' : Mem} {bitmap : Bitmap} {start stop count i : Nat} {set : Bool}

lemma all_bits_iff (h : i + count ≤ 2 ^ 32) :
    ((List.range count).all fun j => set == bitmapGetBit mem bitmap.bitmapBuffer (wadd 32 i j)) = true ↔
      ∀ j < count, bitmapGetBit mem bitmap.bitmapBuffer (i + j) = set := by
  rw [all_eq_true]
  refine forall_congr' fun j => ?_
  rw [mem_range]
  refine forall_congr' fun hj => ?_
  rw [wadd_eq (by omega), beq_iff_eq, eq_comm]

/-- A scan that flips is first fit. -/
theorem bitmapScanFromToAndFlip_scanned (hcount : 0 < count) (hle : start ≤ stop) (hstop : stop ≤ bitmap.bitCount)
    (hbits : bitmap.bitCount < 2 ^ 32)
    (h : bitmapScanFromToAndFlip mem bitmap start stop count set = .ok (i, mem')) :
    Scanned mem bitmap.bitmapBuffer start stop count set i mem' := by
  rw [bitmapScanFromToAndFlip, if_neg (by omega), if_neg (by omega)] at h
  obtain ⟨r, hr, h⟩ := bind_ok.mp h
  rw [bitmapScanInternal] at hr
  obtain ⟨_, -, hr⟩ := bind_ok.mp hr
  obtain ⟨_, -, hr⟩ := bind_ok.mp hr
  obtain ⟨_, -, hr⟩ := bind_ok.mp hr
  split at hr
  · cases hr
    rw [if_pos rfl] at h
    cases h
    exact .none fun k hk hk' => by omega
  · obtain ⟨_, -, hr⟩ := bind_ok.mp hr
    cases hfind : (range' start (stop - count + 1 - start)).find? fun i =>
        (List.range count).all fun j => set == bitmapGetBit mem bitmap.bitmapBuffer (wadd 32 i j) with
    | none =>
      rw [hfind] at hr
      cases hr
      rw [Option.getD_none, if_pos rfl] at h
      cases h
      refine .none fun k hk hk' => ?_
      have hnot := find?_eq_none.mp hfind k (mem_range'_1.mpr ⟨hk, by omega⟩)
      rw [all_bits_iff (by omega)] at hnot
      simpa using hnot
    | some a =>
      rw [hfind] at hr
      cases hr
      obtain ⟨hall, as, bs, hsplit, hbefore⟩ := find?_eq_some_iff_append.mp hfind
      have ha := mem_range'_1.mp (hsplit ▸ mem_append_right as (mem_cons_self ..))
      rw [Option.getD_some, if_neg (by rw [maxDword]; omega)] at h
      cases h
      refine .found ha.1 (by omega) ((all_bits_iff (by omega)).mp hall) fun k hk hk' => ?_
      have hmem : k ∈ as := by
        have hin : k ∈ range' start (stop - count + 1 - start) := mem_range'_1.mpr ⟨hk, by omega⟩
        have hsort : (as ++ i :: bs).Pairwise (· < ·) := hsplit ▸ pairwise_lt_range' ..
        rw [hsplit, mem_append, mem_cons] at hin
        obtain hin | rfl | hin := hin
        · exact hin
        · exact absurd hk' (Nat.lt_irrefl k)
        · have := rel_of_pairwise_cons (List.pairwise_append.mp hsort).2.1 hin
          omega
      have hnot := hbefore k hmem
      rw [Bool.not_eq_true', ← Bool.not_eq_true, all_bits_iff (by omega)] at hnot
      simpa using hnot

end Scan

section SetBits

variable {mem₀ mem₁ : Mem} {made bitmap : Bitmap} {buffer n index count : Nat} {set initial : Bool}

/-- The bytes that `BitmapSetBitsValue` writes. -/
def Bitmap.written (bitmap : Bitmap) (index count : Nat) : List Nat :=
  (List.range count).map fun i => bitmap.bitmapBuffer + wadd 32 index i / bitmapEntryBits

/-- Exactly the bits from an index on take the value, they are bits of the bitmap, and the writes stay in its
    buffer. -/
def SetsBits (bitmap : Bitmap) (index count : Nat) (set : Bool) : Prop :=
  (∀ mem, ∃ mem', bitmapSetBitsValue mem bitmap index count set = .ok mem' ∧
    ∀ j, bitmapGetBit mem' bitmap.bitmapBuffer j =
        (if index ≤ j ∧ j < index + count then set else bitmapGetBit mem bitmap.bitmapBuffer j) ∧
      (bitmapGetBit mem' bitmap.bitmapBuffer j ≠ bitmapGetBit mem bitmap.bitmapBuffer j → j < bitmap.bitCount)) ∧
  ∀ a ∈ bitmap.written index count, Span bitmap.bitmapBuffer bitmap.bufferSize a

lemma bitmapInit_eq (hn : n < 2 ^ 32) (hmade : bitmapPreinit n = .ok made)
    (hinit : bitmapInitEx mem₀ made buffer initial = .ok (mem₁, bitmap)) :
    bitmap = ⟨buffer, (n + 7) / 8, n⟩ ∧ 0 ≠ buffer := by
  obtain ⟨_, -, h⟩ := bind_ok.mp hmade
  cases h
  obtain ⟨_, hbuffer, h⟩ := bind_ok.mp hinit
  cases h
  have hsize : alignAddressUpper n bitmapEntryBits / bitmapEntryBits % 2 ^ 32 = (n + 7) / 8 := by
    rw [show bitmapEntryBits = 2 ^ 3 from rfl, alignAddressUpper_eq (by omega)]
    omega
  rw [hsize]
  exact ⟨rfl, ensure_ok.mp hbuffer⟩

lemma bitmapGetBit_const (buffer j : Nat) (set : Bool) :
    bitmapGetBit (fun _ => if set then 0 else 0xFF) buffer j = !set := by
  rw [bitmapGetBit, isBooleanFlagOn_bit, bitmapEntryBits]
  have hj : j % 8 < 8 := Nat.mod_lt _ (by omega)
  generalize j % 8 = k at hj
  cases set with
  | true => exact Nat.zero_testBit k
  | false =>
    revert k
    decide

/-- Where no assertion is tripped, the bits are set right if and only if there are not more of them than the bitmap
    has. -/
theorem bitmapSetBitsValue_sets_iff (hn : n < 2 ^ 32) (hcount : count < 2 ^ 32) (hmade : bitmapPreinit n = .ok made)
    (hinit : bitmapInitEx mem₀ made buffer initial = .ok (mem₁, bitmap))
    (hok : ∃ mem mem', bitmapSetBitsValue mem bitmap index count set = .ok mem') :
    SetsBits bitmap index count set ↔ count ≤ n := by
  obtain ⟨rfl, hbuffer⟩ := bitmapInit_eq hn hmade hinit
  obtain ⟨mem, mem', hrun⟩ := hok
  obtain ⟨_, hlt, hrun⟩ := bind_ok.mp hrun
  obtain ⟨_, hle, -⟩ := bind_ok.mp hrun
  replace hlt : index < n := ensure_ok.mp hlt
  replace hle : index ≤ wsub 32 n count := ensure_ok.mp hle
  have heq (mem : Mem) : bitmapSetBitsValue mem ⟨buffer, (n + 7) / 8, n⟩ index count set =
      .ok (bitmapChangeBits mem buffer index set count) := by
    rw [bitmapSetBitsValue, ensure_pos hlt, bind_okay, ensure_pos hle, bind_okay, ensure_pos fun _ => hbuffer]
    rfl
  constructor
  · rintro ⟨hbits, -⟩
    -- otherwise the bit behind the last one is come by
    by_contra hmore
    obtain ⟨mem', hrun, hbit⟩ := hbits fun _ => if set then 0 else 0xFF
    rw [heq] at hrun
    cases hrun
    have hwadd : wadd 32 index (n - index) = n := by
      rw [wadd_eq (by omega)]
      omega
    refine absurd ((hbit n).2 ?_) (Nat.lt_irrefl n)
    dsimp only
    rw [bitmapGetBit_changeBits_wadd, bitmapGetBit_const, if_pos ⟨n - index, by omega, hwadd⟩]
    exact (Bool.not_ne_self set).symm
  · intro hcn
    rw [wsub_eq hn hcn] at hle
    refine ⟨fun mem => ⟨_, heq mem, fun j => ?_⟩, fun a ha => ?_⟩
    · have hbit : bitmapGetBit (bitmapChangeBits mem buffer index set count) buffer j =
          if index ≤ j ∧ j < index + count then set else bitmapGetBit mem buffer j :=
        bitmapGetBit_changeBits (by omega) j
      refine ⟨hbit, fun hne => ?_⟩
      dsimp only at hne ⊢
      rw [hbit] at hne
      by_contra hj
      exact hne (if_neg (by omega))
    · obtain ⟨i, hi, rfl⟩ := List.mem_map.mp ha
      rw [mem_range] at hi
      dsimp only
      rw [wadd_eq (by omega), bitmapEntryBits]
      exact ⟨by omega, by omega⟩

/-- All bits of a bitmap of nine bits. -/
theorem bitmapSetBitsValue_sets_nine : SetsBits ⟨1, 2, 9⟩ 0 9 true :=
  (bitmapSetBitsValue_sets_iff (n := 9) (by decide) (by decide) (rfl : bitmapPreinit 9 = .ok ⟨0, 2, 9⟩)
    (rfl : bitmapInitEx (fun _ => 0) ⟨0, 2, 9⟩ 1 false = .ok (_, ⟨1, 2, 9⟩)) ⟨fun _ => 0, _, rfl⟩).mpr (by decide)

/-- Nine bits of a bitmap of eight are set without an assertion, and the last one is behind the buffer. -/
theorem bitmapSetBitsValue_writes_behind : bitmapPreinit 8 = .ok ⟨0, 1, 8⟩ ∧
    bitmapSetBitsValue (fun _ => 0) ⟨1, 1, 8⟩ 0 9 true = .ok (bitmapChangeBits (fun _ => 0) 1 0 true 9) ∧
    bitmapChangeBits (fun _ => 0) 1 0 true 9 2 = 1 ∧ 2 ∈ Bitmap.written ⟨1, 1, 8⟩ 0 9 ∧ ¬ Span 1 1 2 := by
  refine ⟨rfl, rfl, by decide, by decide, fun h => ?_⟩
  have := h.2
  omega

end SetBits

end HAL9000
