import HAL9000.Vm.Disjoint

/-!
# Decommitting pages

A decommit request names an address of a reservation and a size. The request is widened to whole pages
in 64 bits, and the only thing that stops a range behind the end is the check of the bitmap, which
subtracts in 32 bits. So it lets a range of more pages than the reservation has go through.
-/

namespace HAL9000.Vm
open Lib

variable {rs : ReservationSpace} {address size slot : Nat}

/-- A decommit request that returns lies in the reservation, writes in the buffer of its bitmap only and clears
    only bits of its pages. -/
def Decommits (rs : ReservationSpace) (address size slot : Nat) : Prop :=
  ∀ start n rs', vmReservationSpaceFreeRegion rs address size vmmFreeTypeDecommit = .ok (start, n, rs') →
    let r := rs.slots slot
    let first := (start - r.startVa) / pageSize
    address + size ≤ r.startVa + r.size ∧ rs'.slots = rs.slots ∧
      (∀ a ∈ r.commitBitmap.written first (n / pageSize),
        Span r.commitBitmap.bitmapBuffer r.commitBitmap.bufferSize a) ∧
      ∀ j, bitmapGetBit rs'.mem r.commitBitmap.bitmapBuffer j ≠ bitmapGetBit rs.mem r.commitBitmap.bitmapBuffer j →
        j < r.commitBitmap.bitCount ∧ bitmapGetBit rs'.mem r.commitBitmap.bitmapBuffer j = false

lemma widened_eq : alignAddressUpper (wadd 64 size (wsub 64 address (address / 4096 * 4096))) pageSize =
      pageCount address size % 2 ^ 52 * 4096 := by
  rw [alignAddressUpper, alignAddressLower_page (wsub_lt ..)]
  unfold wsub wadd pageSize pageCount
  omega

lemma vmReservationSpaceFreeRegion_decommit_eq (ha : address < 2 ^ 64) (hs0 : size ≠ 0)
    (hfind : vmFindReservation rs address 1 = .ok (some slot)) (hwf : (rs.slots slot).WF)
    (hstart : (rs.slots slot).startVa ≤ address)
    (hin : address < (rs.slots slot).startVa + (rs.slots slot).size) :
    let bitmap := (rs.slots slot).commitBitmap
    let first := (address - (rs.slots slot).startVa) / 4096
    let count := pageCount address size % 2 ^ 52
    vmReservationSpaceFreeRegion rs address size vmmFreeTypeDecommit =
      if count ≠ 0 ∧ count ≤ maxDword ∧ first ≤ wsub 32 bitmap.bitCount count then
        .ok (address / 4096 * 4096, count * 4096,
          { rs with mem := bitmapChangeBits rs.mem bitmap.bitmapBuffer first false count })
      else .error .check := by
  intro bitmap first count
  obtain ⟨hnonzero, haligned, hbuffer, -, -, hpages, hbits⟩ := hwf
  rw [hpages] at hin
  have hfirst : wsub 64 (address / 4096 * 4096) (rs.slots slot).startVa / pageSize = first := by
    rw [wsub_eq (by omega) (by omega), pageSize]
    omega
  have hlt : first < (rs.slots slot).commitBitmap.bitCount := by omega
  have hcount : count * 4096 / pageSize = count := Nat.mul_div_cancel count (by decide)
  rw [vmReservationSpaceFreeRegion, ensure_pos (by omega), bind_okay, ensure_pos (.inr ⟨rfl, hs0⟩), bind_okay,
    ensure_pos (by decide), bind_okay, hfind, bind_okay]
  dsimp only
  rw [if_neg (by decide), alignAddressLower_page ha, widened_eq, vmDecommitReservation, vmChangeCommit,
    ensure_pos (by omega), bind_okay]
  by_cases h0 : count = 0
  · rw [if_neg (by omega), ensure_neg (by omega)]
    rfl
  rw [ensure_pos (by omega), bind_okay, ensure_pos (isAddressAligned_page.mpr (by omega)), bind_okay,
    ensure_pos (isAddressAligned_page.mpr (by omega)), bind_okay, hfirst, hcount]
  dsimp only
  by_cases hmax : count ≤ maxDword
  · rw [ensure_pos hmax, bind_okay, ensure_pos (by omega), bind_okay, bitmapSetBitsValue, ensure_pos hlt, bind_okay]
    by_cases hle : first ≤ wsub 32 bitmap.bitCount count
    · rw [if_pos ⟨h0, hmax, hle⟩, ensure_pos hle, bind_okay, ensure_pos fun _ => hbuffer]
      rfl
    · rw [if_neg fun h => hle h.2.2, ensure_neg hle]
      rfl
  · rw [if_neg fun h => hmax h.2.1, ensure_neg hmax]
    rfl

/-- In every state of a run, decommitting from an address of a reservation on keeps to the reservation if and only
    if the range has not more pages than the reservation, or so many that an assertion refuses the request. -/
theorem vmReservationSpaceFreeRegion_decommits_iff (hr : Reach Fresh Served (fun _ _ => True) rs)
    (ha : address < 2 ^ 64) (hs : size < 2 ^ 64) (hs0 : size ≠ 0)
    (hfind : vmFindReservation rs address 1 = .ok (some slot))
    (hin : address < (rs.slots slot).startVa + (rs.slots slot).size) :
    Decommits rs address size slot ↔ pageCount address size ≤ (rs.slots slot).commitBitmap.bitCount ∨
      2 ^ 32 ≤ pageCount address size ∧ pageCount address size ≤ 2 ^ 52 := by
  obtain ⟨hview, hbounds⟩ := vmFindReservation_some hfind
  have hstart := (checkBounds_iff.mp hbounds).1
  have hwf := reach_wf hr hview
  have heq := vmReservationSpaceFreeRegion_decommit_eq ha hs0 hfind hwf hstart hin
  obtain ⟨-, haligned, -, -, hbytes, hpages, hbits⟩ := hwf
  unfold maxDword at hbits heq
  unfold Decommits
  generalize hcount : pageCount address size = pages at heq ⊢
  rw [pageCount] at hcount
  rw [heq]
  constructor
  · intro hdec
    by_contra hmore
    -- the check of the bitmap wraps around, or the number of pages did before it
    have hle : (address - (rs.slots slot).startVa) / 4096 ≤
        wsub 32 (rs.slots slot).commitBitmap.bitCount (pages % 2 ^ 52) := by
      unfold wsub
      omega
    have := (hdec _ _ _ (if_pos ⟨by omega, by omega, hle⟩)).1
    omega
  · intro hfit start n rs' h
    split at h
    case isFalse => cases h
    case isTrue hchecks =>
      obtain ⟨h0, hmax, hle⟩ := hchecks
      cases h
      -- the requests that pass all of the checks end in the reservation
      have hpages' : pages % 2 ^ 52 = pages := by omega
      rw [hpages', wsub_eq (by omega) (by omega)] at hle
      rw [hpages']
      have hfirst : (address / 4096 * 4096 - (rs.slots slot).startVa) / pageSize =
          (address - (rs.slots slot).startVa) / 4096 := by
        unfold pageSize
        omega
      refine ⟨by omega, rfl, fun a hmem => ?_, fun j hne => ?_⟩
      · obtain ⟨i, hi, rfl⟩ := List.mem_map.mp hmem
        rw [List.mem_range, pageSize, Nat.mul_div_cancel _ (by omega)] at hi
        rw [hfirst, wadd_eq (by omega), bitmapEntryBits, hbytes]
        exact ⟨by omega, by omega⟩
      · dsimp only at hne ⊢
        rw [bitmapGetBit_changeBits (by omega)] at hne ⊢
        split at hne
        case isTrue hj => exact ⟨by omega, if_pos hj⟩
        case isFalse => exact absurd rfl hne

/-- Two pages of a reservation of eight. -/
theorem vmReservationSpaceFreeRegion_decommits_two : ∃ rs, (rs.slots 0).size = 0x8000 ∧
    Decommits rs 0x1B001 0x1000 0 := by
  obtain ⟨rs, hr, hfind, hstart, hsize, hbits⟩ : ∃ rs, Reach Fresh Served (fun _ _ => True) rs ∧
      vmFindReservation rs 0x1B001 1 = .ok (some 0) ∧ (rs.slots 0).startVa = 0x1B000 ∧
        (rs.slots 0).size = 0x8000 ∧ (rs.slots 0).commitBitmap.bitCount = 8 :=
    exists_runAll [.alloc 0x1B000 0x8000 1 1 false 0] (by decide)
  refine ⟨rs, hsize, (vmReservationSpaceFreeRegion_decommits_iff hr (by decide) (by decide)
    (by decide) hfind ?_).mpr (.inl ?_)⟩
  · rw [hstart, hsize]
    decide
  · rw [hbits]
    decide

/-- Eight pages from the second byte of a reservation of eight pages on: the request ends behind the reservation, is
    not refused, and writes the byte behind the buffer of the bitmap. -/
theorem vmReservationSpaceFreeRegion_behind : ∃ rs, Reach Fresh Served (fun _ _ => True) rs ∧
    (rs.slots 0).startVa = 0x1B000 ∧ (rs.slots 0).size = 0x8000 ∧ (rs.slots 0).commitBitmap = ⟨0x12000, 1, 8⟩ ∧
    returns (vmReservationSpaceFreeRegion rs 0x1B001 0x8000 vmmFreeTypeDecommit) (fun x =>
      x.1 = 0x1B000 ∧ x.2.1 = 0x9000) = true ∧
    0x12001 ∈ (rs.slots 0).commitBitmap.written 0 9 := by
  obtain ⟨rs, hr, hstart, hsize, hbitmap, hfree⟩ : ∃ rs, Reach Fresh Served (fun _ _ => True) rs ∧
      (rs.slots 0).startVa = 0x1B000 ∧ (rs.slots 0).size = 0x8000 ∧ (rs.slots 0).commitBitmap = ⟨0x12000, 1, 8⟩ ∧
      returns (vmReservationSpaceFreeRegion rs 0x1B001 0x8000 vmmFreeTypeDecommit) (fun x =>
        x.1 = 0x1B000 ∧ x.2.1 = 0x9000) = true := exists_runAll [.alloc 0x1B000 0x8000 1 1 false 0] (by decide)
  refine ⟨rs, hr, hstart, hsize, hbitmap, hfree, ?_⟩
  rw [hbitmap]
  decide

end HAL9000.Vm
