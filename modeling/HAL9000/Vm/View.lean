import HAL9000.Vm.Reservation

/-!
# Reservation spaces: the set of reservations

`view rs` is what a reservation space is for: the reservations in use, by the record they sit in. The
functions of the code change it in three ways only (`Change`): not at all, by one reservation more,
or by one less. Everything about runs is derived from that.
-/

namespace HAL9000.Vm
open Lib Function

/-- The reservations in use, by record: the used records in front of the end of the list. -/
def view (rs : ReservationSpace) (i : Nat) : Option Reservation :=
  if i < slotCount rs ∧ (rs.slots i).state = .used ∧ ∀ j < i, (rs.slots j).state ≠ .last then
    some (rs.slots i)
  else none

def Reservation.Contains (r : Reservation) (va : Nat) : Prop := wsub 64 va r.startVa < r.size

structure Reservation.WF (r : Reservation) : Prop where
  start : r.startVa ≠ 0
  aligned : r.startVa % 4096 = 0
  buffer : 0 ≠ r.commitBitmap.bitmapBuffer
  placed : r.commitBitmap.bitmapBuffer % 4096 = 0
  bytes : r.commitBitmap.bufferSize = (r.commitBitmap.bitCount + 7) / 8
  pages : r.size = 4096 * r.commitBitmap.bitCount
  count : r.commitBitmap.bitCount ≤ maxDword

/-- How a call that asks for `range` may change the reservations in use. -/
inductive Change (range : Option (Nat × Nat)) (f : Nat → Option Reservation) :
    (Nat → Option Reservation) → Prop where
  | keep : Change range f f
  | add {slot r} : range = some (r.startVa, r.size) → f slot = none → r.WF →
    (∀ i r', f i = some r' → checkBounds r.startVa r.size r'.startVa r'.size = false) →
    Change range f (update f slot (some r))
  | drop {slot} : Change range f (update f slot none)

variable {i address size n k rights file type : Nat} {r : Reservation}

lemma Change.after {range : Option (Nat × Nat)} {f g : Nat → Option Reservation}
    (h : Change range f g) : ∃ slot, ∀ i r, g i = some r → f i = some r ∨
      (i = slot ∧ range = some (r.startVa, r.size) ∧ r.WF ∧
        ∀ i' r', f i' = some r' → checkBounds r.startVa r.size r'.startVa r'.size = false) := by
  cases h with
  | keep => exact ⟨0, fun i r hr => .inl hr⟩
  | @add slot r hrange _ hwf hfree =>
    refine ⟨slot, fun i r' hr' => ?_⟩
    by_cases e : i = slot
    · rw [e, update_self] at hr'
      cases hr'
      exact .inr ⟨e, hrange, hwf, hfree⟩
    · rw [update_of_ne e] at hr'
      exact .inl hr'
  | @drop slot =>
    refine ⟨slot, fun i r' hr' => .inl ?_⟩
    by_cases e : i = slot
    · rw [e, update_self] at hr'
      cases hr'
    · rwa [update_of_ne e] at hr'

variable {rs rs' : ReservationSpace} {uncacheable : Bool} {base : Nat} {res : AllocResult}

lemma view_eq_some : view rs i = some r ↔ rs.slots i = r ∧ i < slotCount rs ∧ (rs.slots i).state = .used ∧
      ∀ j < i, (rs.slots j).state ≠ .last := by
  unfold view
  split
  · next h => exact ⟨fun e => ⟨Option.some.inj e, h⟩, fun e => congrArg some e.1⟩
  · next h => exact ⟨fun e => (by cases e), fun e => absurd e.2 h⟩

lemma view_congr (hs : rs'.slots = rs.slots) (hb : rs'.bitmapAddressStart = rs.bitmapAddressStart)
    (hl : rs'.reservationList = rs.reservationList) : view rs' = view rs := by
  cases rs
  cases rs'
  simp only at hs hb hl
  subst hs hb hl
  rfl

/-! ## Searching the list -/

lemma findReservationFrom_some (hi : ∀ j < i, (rs.slots j).state ≠ .last)
    (h : findReservationFrom rs address size n i = some k) :
    k < i + n ∧ (rs.slots k).state = .used ∧ (∀ j < k, (rs.slots j).state ≠ .last) ∧
      checkBounds address size (rs.slots k).startVa (rs.slots k).size = true := by
  induction n generalizing i with
  | zero => cases h
  | succ n ih =>
    have hnext : (rs.slots i).state ≠ .last → ∀ j < i + 1, (rs.slots j).state ≠ .last := by
      intro hne j hj
      rcases Nat.lt_succ_iff_lt_or_eq.mp hj with hlt | rfl
      · exact hi j hlt
      · exact hne
    unfold findReservationFrom at h
    split at h
    · cases h
    · next hs =>
      have := ih (hnext (by simp [hs])) h
      exact ⟨by omega, this.2⟩
    · next hs =>
      split at h
      · next hc =>
        cases h
        exact ⟨by omega, hs, hi, hc⟩
      · have := ih (hnext (by simp [hs])) h
        exact ⟨by omega, this.2⟩

lemma findReservationFrom_none
    (h : findReservationFrom rs address size n i = none) (hik : i ≤ k) (hk : k < i + n)
    (hused : (rs.slots k).state = .used) (hlast : ∀ j < k, (rs.slots j).state ≠ .last) :
    checkBounds address size (rs.slots k).startVa (rs.slots k).size = false := by
  induction n generalizing i with
  | zero => omega
  | succ n ih =>
    unfold findReservationFrom at h
    rcases Nat.eq_or_lt_of_le hik with rfl | hlt
    · rw [hused] at h
      simp only at h
      split at h
      · cases h
      · next hc => simpa using hc
    · split at h
      · next hs => exact absurd hs (hlast i hlt)
      · exact ih h hlt (by omega)
      · split at h
        · cases h
        · exact ih h hlt (by omega)

lemma vmFindReservation_some (h : vmFindReservation rs address size = .ok (some k)) :
    view rs k = some (rs.slots k) ∧
      checkBounds address size (rs.slots k).startVa (rs.slots k).size = true := by
  unfold vmFindReservation at h
  obtain ⟨_, _, h⟩ := bind_ok.mp h
  obtain ⟨_, _, h⟩ := bind_ok.mp h
  obtain ⟨hlt, hused, hlast, hc⟩ := findReservationFrom_some (by simp) (Except.ok.inj h)
  exact ⟨view_eq_some.mpr ⟨rfl, by omega, hused, hlast⟩, hc⟩

lemma vmFindReservation_none
    (h : vmFindReservation rs address size = .ok none) (hr : view rs k = some r) :
    checkBounds address size r.startVa r.size = false := by
  unfold vmFindReservation at h
  obtain ⟨_, _, h⟩ := bind_ok.mp h
  obtain ⟨_, _, h⟩ := bind_ok.mp h
  obtain ⟨rfl, hlt, hused, hlast⟩ := view_eq_some.mp hr
  exact findReservationFrom_none (Except.ok.inj h) (Nat.zero_le k) (by omega) hused hlast

/-! ## Storing records -/

lemma slotCount_setSlot : slotCount (setSlot rs i r) = slotCount rs := rfl

lemma view_setSlot_used (hk : k < slotCount rs)
    (hstate : (rs.slots k).state ≠ .last) (hlast : ∀ j < k, (rs.slots j).state ≠ .last)
    (hr : r.state = .used) : view (setSlot rs k r) = update (view rs) k (some r) := by
  have hsame : ∀ j, ((setSlot rs k r).slots j).state ≠ .last ↔ (rs.slots j).state ≠ .last := by
    intro j
    by_cases e : j = k
    · subst e
      simp [setSlot, hr, hstate]
    · simp [setSlot, e]
  funext i
  by_cases e : i = k
  · subst e
    simp only [view, hsame, slotCount_setSlot, update_self]
    rw [if_pos ⟨hk, by simp [setSlot, hr], hlast⟩]
    simp [setSlot]
  · simp only [view, hsame, slotCount_setSlot, update_of_ne e]
    simp [setSlot, e]

lemma view_setSlot_free (hstate : (rs.slots k).state ≠ .last) :
    view (setSlot rs k {}) = update (view rs) k none := by
  have hsame : ∀ j, ((setSlot rs k {}).slots j).state ≠ .last ↔ (rs.slots j).state ≠ .last := by
    intro j
    by_cases e : j = k
    · subst e
      simp [setSlot, hstate]
    · simp [setSlot, e]
  funext i
  by_cases e : i = k
  · subst e
    simp [view, setSlot]
  · simp only [view, hsame, slotCount_setSlot, update_of_ne e]
    simp [setSlot, e]

structure FreeSlot (rs : ReservationSpace) (k : Nat) (rs' : ReservationSpace) : Prop where
  lt : k < slotCount rs'
  state : (rs'.slots k).state = .free
  last : ∀ j < k, (rs'.slots j).state ≠ .last
  view_eq : view rs' = view rs
  unused : view rs k = none

lemma freeSlot_moveLast (hk : k < slotCount rs)
    (hstate : (rs.slots k).state = .last) (hlast : ∀ j < k, (rs.slots j).state ≠ .last)
    (hr : r.state = .last) :
    FreeSlot rs k (setSlot (setSlot rs k { rs.slots k with state := .free }) (k + 1) r) := by
  set rs' := setSlot (setSlot rs k { rs.slots k with state := .free }) (k + 1) r
  have hbelow : ∀ j < k, rs'.slots j = rs.slots j := by
    intro j hj
    simp [rs', setSlot, Nat.ne_of_lt hj, Nat.ne_of_lt (Nat.lt_succ_of_lt hj)]
  have hat : (rs'.slots k).state = .free := by
    simp [rs', setSlot]
  have hnext : (rs'.slots (k + 1)).state = .last := by
    simp [rs', setSlot, hr]
  refine ⟨hk, hat, fun j hj => by rw [hbelow j hj]; exact hlast j hj, ?_, ?_⟩
  · funext i
    -- below `k` nothing changed; from `k` on no record was in use, and none is
    rcases Nat.lt_trichotomy i k with hlt | rfl | hgt
    · have hj : (∀ j < i, (rs'.slots j).state ≠ .last) ↔ ∀ j < i, (rs.slots j).state ≠ .last := by
        constructor <;> intro h j hj
        · rw [← hbelow j (by omega)]
          exact h j hj
        · rw [hbelow j (by omega)]
          exact h j hj
      simp only [view, hj, hbelow i hlt]
      rfl
    · simp [view, hat, hstate]
    · have hold : ¬ ∀ j < i, (rs.slots j).state ≠ .last := fun h => h k hgt hstate
      have hnew : ¬ ((rs'.slots i).state = .used ∧ ∀ j < i, (rs'.slots j).state ≠ .last) := by
        rintro ⟨hu, h⟩
        rcases Nat.eq_or_lt_of_le hgt with rfl | hgt'
        · rw [hnext] at hu
          cases hu
        · exact h (k + 1) hgt' hnext
      simp only [view]
      rw [if_neg (fun h => hnew h.2), if_neg (fun h => hold h.2.2)]
  · simp [view, hstate]

lemma findFirstFreeFrom_some (hn : i + n = slotCount rs)
    (hi : ∀ j < i, (rs.slots j).state ≠ .last) (h : findFirstFreeFrom rs n i = some (k, rs')) :
    FreeSlot rs k rs' := by
  induction n generalizing i with
  | zero => cases h
  | succ n ih =>
    unfold findFirstFreeFrom at h
    split at h
    · next hs =>
      cases h
      exact ⟨by omega, hs, hi, rfl, by simp [view, hs]⟩
    · next hs =>
      cases h
      exact freeSlot_moveLast (by omega) hs hi rfl
    · next hs =>
      refine ih (by omega) ?_ h
      intro j hj
      rcases Nat.lt_succ_iff_lt_or_eq.mp hj with hlt | rfl
      · exact hi j hlt
      · simp [hs]

lemma vmFindFirstFreeReservation_some
    (h : vmFindFirstFreeReservation rs = some (k, rs')) : FreeSlot rs k rs' :=
  findFirstFreeFrom_some (by simp) (by simp) h

/-! ## What each function does to the view -/

lemma vmInitializeReservation_ok (h : vmInitializeReservation rs address size rights uncacheable file k = .ok rs') :
    ∃ (r : Reservation) (mem : Mem) (fb : Nat), r.WF ∧ r.state = .used ∧ r.startVa = address ∧
      r.size = size ∧ rs' = setSlot { rs with mem := mem, freeBitmapAddress := fb } k r := by
  unfold vmInitializeReservation at h
  obtain ⟨_, hstart, h⟩ := bind_ok.mp h
  obtain ⟨_, _, h⟩ := bind_ok.mp h
  obtain ⟨_, haddr, h⟩ := bind_ok.mp h
  obtain ⟨_, hsize, h⟩ := bind_ok.mp h
  obtain ⟨_, hcount, h⟩ := bind_ok.mp h
  obtain ⟨bitmap, hbm, h⟩ := bind_ok.mp h
  obtain ⟨_, _, h⟩ := bind_ok.mp h
  obtain ⟨_, hplaced, h⟩ := bind_ok.mp h
  obtain ⟨⟨mem, bitmap'⟩, hinit, h⟩ := bind_ok.mp h
  obtain ⟨_, _, h⟩ := bind_ok.mp h
  rw [ensure_ok, isAddressAligned_page] at haddr hsize hplaced
  rw [ensure_ok] at hstart hcount
  have hlt : size / pageSize < 2 ^ 32 := Nat.lt_succ_iff.mpr hcount
  obtain ⟨rfl, hbuffer⟩ := bitmapInit_eq hlt hbm hinit
  have hpages : size = 4096 * (size / pageSize) := by
    unfold pageSize
    omega
  exact ⟨⟨address, size, rights, .used, uncacheable, file, _⟩, mem, _,
    ⟨hstart.symm, haddr, hbuffer, hplaced, rfl, hpages, hcount⟩, rfl, rfl, rfl, (Except.ok.inj h).symm⟩

lemma vmChangeVaReservationState_change {status : Status}
    (h : vmChangeVaReservationState rs address size type rights uncacheable file = .ok (status, rs')) :
    (view rs' = view rs ∧ (status = .success → type ≠ vmmAllocTypeReserve)) ∨
      (type = vmmAllocTypeReserve ∧ ∃ slot r, view rs slot = none ∧ r.WF ∧ r.startVa = address ∧ r.size = size ∧
      (∀ i r', view rs i = some r' → checkBounds address size r'.startVa r'.size = false) ∧
      view rs' = update (view rs) slot (some r)) := by
  unfold vmChangeVaReservationState at h
  obtain ⟨_, _, h⟩ := bind_ok.mp h
  obtain ⟨_, _, h⟩ := bind_ok.mp h
  obtain ⟨_, _, h⟩ := bind_ok.mp h
  obtain ⟨_, _, h⟩ := bind_ok.mp h
  obtain ⟨_, _, h⟩ := bind_ok.mp h
  obtain ⟨found, hfound, h⟩ := bind_ok.mp h
  cases found with
  | none =>
    simp only at h
    split at h
    · next htype =>
      cases h
      exact .inl ⟨rfl, fun _ => htype⟩
    · next htype =>
      split at h
      · cases h
      · next slot rs₁ hfree =>
        have free := vmFindFirstFreeReservation_some hfree
        obtain ⟨rs₂, hinit, h⟩ := bind_ok.mp h
        cases h
        obtain ⟨r, mem, fb, hwf, hused, hstart, hsize, rfl⟩ := vmInitializeReservation_ok hinit
        refine .inr ⟨not_not.mp htype, slot, r, free.unused, hwf, hstart, hsize, ?_, ?_⟩
        · intro i r' hr'
          exact vmFindReservation_none hfound hr'
        · rw [← free.view_eq, ← view_setSlot_used free.lt (by simp [free.state]) free.last hused]
          exact view_congr rfl rfl rfl
  | some slot =>
    refine .inl ?_
    simp only at h
    split at h
    · cases h
      exact ⟨rfl, nofun⟩
    next htype =>
    split at h
    · cases h
      exact ⟨rfl, nofun⟩
    split at h
    · cases h
      exact ⟨rfl, nofun⟩
    · obtain ⟨mem, _, h⟩ := bind_ok.mp h
      cases h
      exact ⟨view_congr rfl rfl rfl, fun _ => htype⟩

lemma vmReservationSpaceFreeRegion_change {a : Nat}
    (h : vmReservationSpaceFreeRegion rs address size type = .ok (a, n, rs')) :
    Change none (view rs) (view rs') := by
  unfold vmReservationSpaceFreeRegion at h
  obtain ⟨_, _, h⟩ := bind_ok.mp h
  obtain ⟨_, _, h⟩ := bind_ok.mp h
  obtain ⟨_, _, h⟩ := bind_ok.mp h
  obtain ⟨found, hfound, h⟩ := bind_ok.mp h
  cases found with
  | none => cases h
  | some slot =>
    simp only at h
    split at h
    · obtain ⟨_, _, h⟩ := bind_ok.mp h
      cases h
      obtain ⟨_, _, hused, _⟩ := view_eq_some.mp (vmFindReservation_some hfound).1
      rw [view_setSlot_free (by simp [hused])]
      exact .drop
    · obtain ⟨mem, _, h⟩ := bind_ok.mp h
      cases h
      have hv : view { rs with mem := mem } = view rs := view_congr rfl rfl rfl
      rw [hv]
      exact .keep

lemma view_allocRange (rs : ReservationSpace) (base size : Nat) : view (allocRange rs base size).2.2 = view rs := by
  have hp : ∀ p, view { rs with freeVirtualAddressPointer := p } = view rs :=
    fun p => view_congr rfl rfl rfl
  by_cases h : 0 ≠ base
  · rw [allocRange, if_pos h]
  · rw [allocRange, if_neg h]
    exact hp _

def reservedRange (rs : ReservationSpace) (baseAddress size allocType : Nat) : Option (Nat × Nat) :=
  if isBooleanFlagOn allocType vmmAllocTypeReserve then
    some ((allocRange rs baseAddress size).1, (allocRange rs baseAddress size).2.1)
  else none

lemma vmReservationSpaceAllocRegion_view
    (h : vmReservationSpaceAllocRegion rs base size type rights uncacheable file = .ok (res, rs')) :
    (res.status = .success → res.mappedAddress = (allocRange rs base size).1) ∧
    ((view rs' = view rs ∧ (res.status = .success → isBooleanFlagOn type vmmAllocTypeReserve = false)) ∨
      (isBooleanFlagOn type vmmAllocTypeReserve = true ∧ ∃ slot r, view rs slot = none ∧ r.WF ∧
        r.startVa = (allocRange rs base size).1 ∧ r.size = (allocRange rs base size).2.1 ∧
        (∀ i r', view rs i = some r' → checkBounds r.startVa r.size r'.startVa r'.size = false) ∧
        view rs' = update (view rs) slot (some r))) := by
  unfold vmReservationSpaceAllocRegion at h
  obtain ⟨_, _, h⟩ := bind_ok.mp h
  obtain ⟨_, _, h⟩ := bind_ok.mp h
  have hview := view_allocRange rs base size
  simp only at h
  split at h
  · cases h
    exact ⟨nofun, .inl ⟨hview, nofun⟩⟩
  obtain ⟨⟨status₁, rs₁⟩, h₁, h⟩ := bind_ok.mp h
  obtain ⟨⟨status₂, rs₂⟩, h₂, h⟩ := bind_ok.mp h
  have hlast : rs' = rs₂ ∧ res.status = status₂ ∧
      (res.status = .success → res.mappedAddress = (allocRange rs base size).1) := by
    simp only at h
    split at h
    · cases h
      exact ⟨rfl, rfl, fun _ => rfl⟩
    · next hne =>
      cases h
      exact ⟨rfl, rfl, fun hok => absurd hok hne⟩
  obtain ⟨rfl, hstatus, hmapped⟩ := hlast
  refine ⟨hmapped, ?_⟩
  -- committing leaves the view alone, and is not tried after a failure
  have hcommit : view rs' = view rs₁ ∧ (status₂ = .success → status₁ = .success) := by
    unfold changeIfAsked at h₂
    split at h₂
    · next hasked =>
      rcases vmChangeVaReservationState_change h₂ with hv | ⟨htype, _⟩
      · exact ⟨hv.1, fun _ => hasked.1⟩
      · cases htype
    · cases h₂
      exact ⟨rfl, id⟩
  rw [hcommit.1, ← hview, hstatus]
  unfold changeIfAsked at h₁
  split at h₁
  · next hres =>
    rcases vmChangeVaReservationState_change h₁ with hv | ⟨_, slot, r, hnone, hwf, hs, hn, hc, hv⟩
    · exact .inl ⟨hv.1, fun hok => absurd rfl (hv.2 (hcommit.2 hok))⟩
    · exact .inr ⟨hres.2, slot, r, hnone, hwf, hs, hn, hs ▸ hn ▸ hc, hv⟩
  · next hres =>
    cases h₁
    exact .inl ⟨rfl, fun _ => by simpa using hres⟩

lemma vmReservationSpaceAllocRegion_change
    (h : vmReservationSpaceAllocRegion rs base size type rights uncacheable file = .ok (res, rs')) :
    Change (reservedRange rs base size type) (view rs) (view rs') := by
  rcases (vmReservationSpaceAllocRegion_view h).2 with hv | ⟨hres, slot, r, hnone, hwf, hs, hn, hc, hv⟩
  · rw [hv.1]
    exact .keep
  · rw [hv]
    refine .add ?_ hnone hwf hc
    rw [reservedRange, if_pos hres, hs, hn]

end HAL9000.Vm
