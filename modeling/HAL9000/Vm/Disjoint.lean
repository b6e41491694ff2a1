import HAL9000.Lib.Reach
import HAL9000.Vm.View

/-!
# Reservation spaces: runs and disjointness

Any sequence of calls on a freshly initialised space. The records in use are well formed in every
state reached. Their ranges stay disjoint as long as no call asks for a range that meets a
reservation without lying inside it: `_VmFindReservation` looks for containment only, so a range that
merely overlaps a reservation is not refused.
-/

namespace HAL9000.Vm
open Lib

inductive Request where
  | alloc (baseAddress size allocType rights : Nat) (uncacheable : Bool) (fileObject : Nat)
  | free (address size freeType : Nat)

def Request.run (rs : ReservationSpace) : Request → Exec ReservationSpace
  | .alloc baseAddress size allocType rights uncacheable fileObject => do
    let x ← vmReservationSpaceAllocRegion rs baseAddress size allocType rights uncacheable fileObject
    pure x.2
  | .free address size freeType => do
    let x ← vmReservationSpaceFreeRegion rs address size freeType
    pure x.2.2

def Fresh (rs : ReservationSpace) : Prop := ∃ metadataBase base metadataSize slots mem rs₀,
    vmReservationSpaceInit metadataBase base metadataSize slots mem = .ok rs₀ ∧
    rs = vmReservationSpaceFinishInit rs₀

def Served (rs : ReservationSpace) (r : Request) (rs' : ReservationSpace) : Prop := r.run rs = .ok rs'

def Request.range (rs : ReservationSpace) : Request → Option (Nat × Nat)
  | .alloc baseAddress size allocType _ _ _ => reservedRange rs baseAddress size allocType
  | .free _ _ _ => none

/-- The range asked for lies inside a reservation, and is refused, or has no address in common with
    any. -/
def Request.Clear (rs : ReservationSpace) (q : Request) : Prop := ∀ base size, q.range rs = some (base, size) →
    (∃ i r, view rs i = some r ∧ checkBounds base size r.startVa r.size = true) ∨
    ∀ i r va, view rs i = some r → va < 2 ^ 64 → r.Contains va → ¬ wsub 64 va base < size

variable {rs rs' : ReservationSpace} {q : Request}

lemma Fresh.view_eq (h : Fresh rs) (i : Nat) : view rs i = none := by
  obtain ⟨_, _, _, _, _, rs₀, _, rfl⟩ := h
  have h0 : ((vmReservationSpaceFinishInit rs₀).slots 0).state = .last := by
    simp [vmReservationSpaceFinishInit, setSlot]
  unfold view
  rw [if_neg]
  rintro ⟨_, hused, hlast⟩
  cases i with
  | zero =>
    rw [h0] at hused
    cases hused
  | succ i => exact hlast 0 (Nat.succ_pos i) h0

lemma Served.change (h : Served rs q rs') : Change (q.range rs) (view rs) (view rs') := by
  cases q with
  | alloc =>
    obtain ⟨⟨res, rs₁⟩, h₁, h⟩ := bind_ok.mp h
    cases h
    exact vmReservationSpaceAllocRegion_change h₁
  | free =>
    obtain ⟨⟨a, n, rs₁⟩, h₁, h⟩ := bind_ok.mp h
    cases h
    exact vmReservationSpaceFreeRegion_change h₁

lemma reach_wf (hr : Reach Fresh Served (fun _ _ => True) rs) {i : Nat} {r : Reservation}
    (h : view rs i = some r) : r.WF := by
  refine hr.invariant (I := fun rs => ∀ i r, view rs i = some r → r.WF) ?_ ?_ i r h
  · intro rs hf i r h
    rw [hf.view_eq] at h
    cases h
  · intro rs q rs' hI _ hst i r h
    obtain ⟨_, hafter⟩ := hst.change.after
    rcases hafter i r h with hold | ⟨_, _, hwf, _⟩
    · exact hI i r hold
    · exact hwf

def Apart (f : Nat → Option Reservation) : Prop :=
  ∀ i j r r' va, f i = some r → f j = some r' → va < 2 ^ 64 → r.Contains va → r'.Contains va → i = j

lemma Apart.served (ha : Apart (view rs)) (hc : q.Clear rs) (h : Served rs q rs') : Apart (view rs') := by
  obtain ⟨slot, hafter⟩ := h.change.after
  -- no reservation contains the new range, so it is clear of all of them
  have hclear : ∀ r : Reservation, q.range rs = some (r.startVa, r.size) →
      (∀ i' r', view rs i' = some r' → checkBounds r.startVa r.size r'.startVa r'.size = false) →
      ∀ i' r' va, view rs i' = some r' → va < 2 ^ 64 → r'.Contains va → ¬ r.Contains va := by
    intro r hrange hfree
    rcases hc _ _ hrange with ⟨i, r', hr', hb⟩ | hclear
    · rw [hfree i r' hr'] at hb
      cases hb
    · exact hclear
  intro i j r₁ r₂ va h₁ h₂ hva hin₁ hin₂
  rcases hafter i r₁ h₁ with old₁ | ⟨e₁, hrange₁, _, hfree₁⟩ <;>
    rcases hafter j r₂ h₂ with old₂ | ⟨e₂, hrange₂, _, hfree₂⟩
  · exact ha i j r₁ r₂ va old₁ old₂ hva hin₁ hin₂
  · exact absurd hin₂ (hclear r₂ hrange₂ hfree₂ i r₁ va old₁ hva hin₁)
  · exact absurd hin₁ (hclear r₁ hrange₁ hfree₁ j r₂ va old₂ hva hin₂)
  · rw [e₁, e₂]

lemma reach_apart (hr : Reach Fresh Served (fun rs q => q.Clear rs) rs) : Apart (view rs) := by
  refine hr.invariant (I := fun rs => Apart (view rs)) ?_ ?_
  · intro rs hf i j r r' va h
    rw [hf.view_eq] at h
    cases h
  · intro rs q rs' hI hc hst
    exact hI.served hc hst

/-- In every run whose allocations ask for clear ranges, every address is in at most one
    reservation. -/
theorem reservations_disjoint {rs : ReservationSpace}
    (hr : Reach Fresh Served (fun rs q => q.Clear rs) rs) {i j : Nat} {r r' : Reservation} {va : Nat}
    (hi : view rs i = some r) (hj : view rs j = some r') (hva : va < 2 ^ 64)
    (hin : r.Contains va) (hin' : r'.Contains va) : i = j := reach_apart hr i j r r' va hi hj hva hin hin'

def sampleSpace : ReservationSpace := vmReservationSpaceFinishInit
    { reservationList := 0x10000
      bitmapAddressStart := 0x12000
      freeBitmapAddress := 0x12000
      freeVirtualAddressPointer := 0x1A000
      startOfVirtualAddressSpace := 0x1A000
      reservedAreaSize := 0xA000
      slots := fun _ => {}
      mem := fun _ => 0 }

lemma fresh_sampleSpace : Fresh sampleSpace := ⟨0x10000, 0, 0xA000, fun _ => {}, fun _ => 0, _, rfl, rfl⟩

def runAll (qs : List Request) (rs : ReservationSpace) : Exec ReservationSpace :=
  qs.foldlM (fun rs q => do ensure True; Request.run rs q) rs

lemma exists_runAll {P : ReservationSpace → Prop} [DecidablePred P] (qs : List Request)
    (h : returns (runAll qs sampleSpace) (fun rs => decide (P rs)) = true) :
    ∃ rs, Reach Fresh Served (fun _ _ => True) rs ∧ P rs := exists_reach fresh_sampleSpace qs h

/-- The second of these two reservations overlaps the end of the first, and is not refused. -/
theorem reservations_overlap : ∃ rs, Reach Fresh Served (fun _ _ => True) rs ∧
    ∃ i j r r' va, view rs i = some r ∧ view rs j = some r' ∧ va < 2 ^ 64 ∧ r.Contains va ∧
      r'.Contains va ∧ i ≠ j := by
  obtain ⟨rs, hreach, h0, h1⟩ : ∃ rs, Reach Fresh Served (fun _ _ => True) rs ∧
      ((view rs 0).map fun r => (r.startVa, r.size)) = some (0x1B000, 0x2000) ∧
      ((view rs 1).map fun r => (r.startVa, r.size)) = some (0x1C000, 0x2000) :=
    exists_runAll [.alloc 0x1B000 0x2000 1 1 false 0, .alloc 0x1C000 0x2000 1 1 false 0] (by decide)
  simp only [Option.map_eq_some_iff, Prod.mk.injEq] at h0 h1
  obtain ⟨r, hr, hs, hn⟩ := h0
  obtain ⟨r', hr', hs', hn'⟩ := h1
  refine ⟨rs, hreach, 0, 1, r, r', 0x1C000, hr, hr', by decide, ?_, ?_, by decide⟩
  · rw [Reservation.Contains, hs, hn]
    decide
  · rw [Reservation.Contains, hs', hn']
    decide

lemma range_second (rs : ReservationSpace) :
    (Request.alloc 0x1D000 0x1000 1 1 false 0).range rs = some (0x1D000, 0x1000) := rfl

/-- Two reservations side by side are apart. -/
theorem reservations_disjoint_sideBySide : ∃ rs, (view rs 0).isSome ∧ (view rs 1).isSome ∧
    ∀ r r' va, view rs 0 = some r → view rs 1 = some r' → va < 2 ^ 64 →
      ¬ (r.Contains va ∧ r'.Contains va) := by
  have hrun : returns (Request.run sampleSpace (.alloc 0x1B000 0x2000 1 1 false 0)) (fun rs =>
      returns (Request.run rs (.alloc 0x1D000 0x1000 1 1 false 0)) (fun rs' =>
        (view rs' 0).isSome ∧ (view rs' 1).isSome)) = true := by
    decide
  obtain ⟨rs₁, h₁, hrun⟩ := returns_iff.mp hrun
  obtain ⟨rs₂, h₂, hsome⟩ := returns_iff.mp hrun
  have hclear₁ : (Request.alloc 0x1B000 0x2000 1 1 false 0).Clear sampleSpace := by
    intro base size _
    refine .inr fun i r va h => ?_
    rw [fresh_sampleSpace.view_eq] at h
    cases h
  -- after the first request, only its range is in use
  have hview₁ : ∀ i r, view rs₁ i = some r → r.startVa = 0x1B000 ∧ r.size = 0x2000 := by
    intro i r h
    obtain ⟨_, hafter⟩ := (Served.change h₁).after
    rcases hafter i r h with hold | ⟨_, hrange, _⟩
    · rw [fresh_sampleSpace.view_eq] at hold
      cases hold
    · have hr : some (0x1B000, 0x2000) = some (r.startVa, r.size) := hrange
      simp only [Option.some.injEq, Prod.mk.injEq] at hr
      exact ⟨hr.1.symm, hr.2.symm⟩
  have hclear₂ : (Request.alloc 0x1D000 0x1000 1 1 false 0).Clear rs₁ := by
    intro base size hrange
    rw [range_second] at hrange
    cases hrange
    refine .inr fun i r va h hva hin => ?_
    obtain ⟨hs, hn⟩ := hview₁ i r h
    rw [Reservation.Contains, hs, hn] at hin
    unfold wsub at hin ⊢
    omega
  have hreach : Reach Fresh Served (fun rs q => q.Clear rs) rs₂ :=
    ((Reach.start fresh_sampleSpace).step hclear₁ h₁).step hclear₂ h₂
  simp only [decide_eq_true_eq] at hsome
  refine ⟨rs₂, hsome.1, hsome.2, ?_⟩
  intro r r' va hr hr' hva hin
  exact absurd (reservations_disjoint hreach hr hr' hva hin.1 hin.2) (by decide)

end HAL9000.Vm
