import HAL9000.Paging.Unmap
import HAL9000.Vm.Disjoint

/-!
# Stacks

Port of `MmuAllocStack` and `MmuFreeStack` (`HAL9000/src/mmu.c`) with the part of `VmmAllocRegionEx` and
`VmmFreeRegionEx` (`HAL9000/src/vmm.c`) that they use. A stack grows down, so `MmuAllocStack` returns the end of the
reservation it made. `MmuFreeStack` looks for a reservation that contains this address, and the end of a reservation
is not one of its addresses.
-/

namespace HAL9000.Vm
open Lib Function
open Paging (PagingState PageMap VmmData Represents Overlaps frameOf pageOf mmuUnmapMemoryEx vmmMapMemoryInternal)

/-- The reservations and the page tables of the kernel or of a process. -/
structure AddressSpace where
  vaSpace : ReservationSpace
  pagingData : PagingState

def vmmAllocTypeNotLazy : Nat := 4

def pageRightsReadwrite : Nat := 1

/-- Reserve or commit a region that neither a file nor a list of frames backs. `pa` is what the allocator of
    physical memory gives a region that is mapped at once (C `VmmAllocRegionEx`). -/
def vmmAllocRegionEx (vmm : VmmData) (space : AddressSpace) (baseAddress size allocType rights : Nat)
    (uncacheable : Bool) (pa : Option Nat) : Exec (Nat × AddressSpace) := do
  ensure (size ≠ 0)
  ensure (isFlagOn allocType (vmmAllocTypeCommit ||| vmmAllocTypeReserve))
  let (res, vaSpace) ← vmReservationSpaceAllocRegion space.vaSpace baseAddress size allocType rights uncacheable 0
  let space := { space with vaSpace := vaSpace }
  if res.status ≠ .success then pure (0, space)
  else do
    ensure (0 ≠ res.mappedAddress)
    if isBooleanFlagOn allocType vmmAllocTypeNotLazy then do
      ensure (isBooleanFlagOn allocType vmmAllocTypeCommit)
      ensure (res.mappedSize / pageSize ≤ maxDword)
      match pa with
      -- the status is still that of the reservation
      | none => pure (res.mappedAddress, space)
      | some pa => do
        let pagingData ←
          vmmMapMemoryInternal vmm space.pagingData pa res.mappedSize res.mappedAddress rights true uncacheable
        pure (res.mappedAddress, { space with pagingData := pagingData })
    else pure (res.mappedAddress, space)

/-- Release a reservation or decommit a range of it, and unmap it (C `VmmFreeRegionEx`). -/
def vmmFreeRegionEx (space : AddressSpace) (address size freeType : Nat) (release : Bool) : Exec AddressSpace := do
  let (alignedAddress, alignedSize, vaSpace) ← vmReservationSpaceFreeRegion space.vaSpace address size freeType
  ensure (0 ≠ alignedAddress)
  ensure (0 ≠ alignedSize)
  let pagingData ← mmuUnmapMemoryEx space.pagingData alignedAddress alignedSize release
  pure ⟨vaSpace, pagingData⟩

/-- The unmapped pages below a stack (C `STACK_GUARD_SIZE`). -/
def stackGuardSize : Nat := 2 * pageSize

/-- Reserve a stack and commit it above its guard pages; the result is the end of the stack, or 0
    (C `MmuAllocStack`). -/
def mmuAllocStack (vmm : VmmData) (space : AddressSpace) (stackSize : Nat) (protectStack lazyMap : Bool)
    (pa : Option Nat) : Exec (Nat × AddressSpace) := do
  ensure (isAddressAligned stackSize pageSize)
  let guard := if protectStack then stackGuardSize else 0
  let totalAllocationSize := wadd 32 stackSize guard
  let (pStackBase, space) ←
    vmmAllocRegionEx vmm space 0 totalAllocationSize vmmAllocTypeReserve pageRightsReadwrite false none
  if 0 = pStackBase then pure (0, space)
  else do
    let (pCommitedStackBase, space) ← vmmAllocRegionEx vmm space (wadd 64 pStackBase guard) stackSize
      (vmmAllocTypeCommit ||| if lazyMap then 0 else vmmAllocTypeNotLazy) pageRightsReadwrite false pa
    if 0 = pCommitedStackBase then pure (0, space)
    else pure (wadd 64 pStackBase totalAllocationSize, space)

/-- Release the reservation of a stack (C `MmuFreeStack`). -/
def mmuFreeStack (space : AddressSpace) (stack : Nat) : Exec AddressSpace := do
  ensure (stack ≠ 0)
  vmmFreeRegionEx space stack 0 vmmFreeTypeRelease true

/-- Freeing at an address releases the reservation of a record and no other one, and unmaps its pages. -/
def Releases (space : AddressSpace) (slot : Nat) (r : Reservation) (address : Nat) : Prop :=
  ∃ space', mmuFreeStack space address = .ok space' ∧
    view space'.vaSpace = update (view space.vaSpace) slot none ∧
    ∀ va, Overlaps r.startVa r.size (pageOf va) → frameOf space'.pagingData va = none

variable {vmm : VmmData} {space space' : AddressSpace} {slot address : Nat} {r : Reservation} {pa : Option Nat}

/-! ## Allocating -/

/-- An address is that of a reservation. -/
lemma vmmAllocRegionEx_ok {base size type rights mapped : Nat} {uncacheable : Bool}
    (h : vmmAllocRegionEx vmm space base size type rights uncacheable pa = .ok (mapped, space'))
    (hmapped : 0 ≠ mapped) : ∃ res, res.status = .success ∧ res.mappedAddress = mapped ∧
      vmReservationSpaceAllocRegion space.vaSpace base size type rights uncacheable 0 =
        .ok (res, space'.vaSpace) := by
  obtain ⟨_, _, h⟩ := bind_ok.mp h
  obtain ⟨_, _, h⟩ := bind_ok.mp h
  obtain ⟨⟨res, vaSpace⟩, hres, h⟩ := bind_ok.mp h
  simp only at h
  split at h
  · cases h
    exact absurd rfl hmapped
  next hok =>
  refine ⟨res, not_not.mp hok, ?_⟩
  obtain ⟨_, _, h⟩ := bind_ok.mp h
  split at h
  · obtain ⟨_, _, h⟩ := bind_ok.mp h
    obtain ⟨_, _, h⟩ := bind_ok.mp h
    split at h
    · cases h
      exact ⟨rfl, hres⟩
    · obtain ⟨_, _, h⟩ := bind_ok.mp h
      cases h
      exact ⟨rfl, hres⟩
  · cases h
    exact ⟨rfl, hres⟩

/-- A stack is a new reservation, and its top is the end of it. -/
lemma mmuAllocStack_ok {stackSize stack : Nat} {protect lazy : Bool}
    (h : mmuAllocStack vmm space stackSize protect lazy pa = .ok (stack, space')) (h0 : stack ≠ 0) :
    ∃ slot r, view space.vaSpace slot = none ∧ view space'.vaSpace = update (view space.vaSpace) slot (some r) ∧
      r.WF ∧ r.size < 2 ^ 32 ∧ stack = wadd 64 r.startVa r.size := by
  obtain ⟨_, haligned, h⟩ := bind_ok.mp h
  rw [ensure_ok, isAddressAligned_page] at haligned
  simp only at h
  generalize htotal : wadd 32 stackSize (if protect then stackGuardSize else 0) = total at h
  have hlt : total < 2 ^ 32 := htotal ▸ wadd_lt ..
  have hpages : total % 4096 = 0 := by
    rw [← htotal]
    unfold wadd stackGuardSize pageSize
    split <;> omega
  obtain ⟨⟨base, space₁⟩, h₁, h⟩ := bind_ok.mp h
  simp only at h
  split at h
  · cases h
    exact absurd rfl h0
  next hbase =>
  obtain ⟨⟨committed, space₂⟩, h₂, h⟩ := bind_ok.mp h
  simp only at h
  split at h
  · cases h
    exact absurd rfl h0
  next hcommitted =>
  cases h
  obtain ⟨res₁, hok₁, hmapped, hreserve⟩ := vmmAllocRegionEx_ok h₁ hbase
  obtain ⟨res₂, -, -, hcommit⟩ := vmmAllocRegionEx_ok h₂ hcommitted
  -- the second call only commits
  have hview : view space'.vaSpace = view space₁.vaSpace := by
    rcases (vmReservationSpaceAllocRegion_view hcommit).2 with hv | ⟨hflag, -⟩
    · exact hv.1
    · cases lazy <;> cases hflag
  obtain ⟨hbase', hv | ⟨-, slot, r, hnone, hwf, hstart, hsize, -, hv⟩⟩ :=
    vmReservationSpaceAllocRegion_view hreserve
  · cases hv.2 hok₁
  have hsize' : r.size = total := by
    rw [hsize, allocRange, if_neg (by simp)]
    have e : alignAddressUpper total pageSize = _ := alignAddressUpper_eq (k := 12) (by omega)
    simp only [e]
    omega
  refine ⟨slot, r, hnone, hview.trans hv, hwf, hsize'.symm ▸ hlt, ?_⟩
  rw [hsize', hstart, ← hbase' hok₁, hmapped]

/-! ## Freeing -/

/-- A call that returns has released the reservation that was found for the address (C `MmuFreeStack`). -/
lemma mmuFreeStack_ok (h : mmuFreeStack space address = .ok space') :
    ∃ k, vmFindReservation space.vaSpace address 1 = .ok (some k) ∧
      view space'.vaSpace = update (view space.vaSpace) k none := by
  obtain ⟨_, _, h⟩ := bind_ok.mp h
  obtain ⟨⟨start, n, vaSpace⟩, hfree, h⟩ := bind_ok.mp h
  obtain ⟨_, _, h⟩ := bind_ok.mp h
  obtain ⟨_, _, h⟩ := bind_ok.mp h
  obtain ⟨_, _, h⟩ := bind_ok.mp h
  cases h
  obtain ⟨_, _, hfree⟩ := bind_ok.mp hfree
  obtain ⟨_, _, hfree⟩ := bind_ok.mp hfree
  obtain ⟨_, _, hfree⟩ := bind_ok.mp hfree
  obtain ⟨found, hfound, hfree⟩ := bind_ok.mp hfree
  cases found with
  | none => cases hfree
  | some k =>
    simp only [show isBooleanFlagOn vmmFreeTypeRelease vmmFreeTypeRelease = true from rfl, if_true] at hfree
    obtain ⟨_, _, hfree⟩ := bind_ok.mp hfree
    cases hfree
    obtain ⟨_, _, hused, _⟩ := view_eq_some.mp (vmFindReservation_some hfound).1
    exact ⟨k, hfound, view_setSlot_free (by simp [hused])⟩

/-- The end of a reservation is not one of its addresses. -/
lemma Reservation.checkBounds_end (hwf : r.WF) :
    checkBounds (wadd 64 r.startVa r.size) 1 r.startVa r.size = false := by
  rw [Bool.eq_false_iff]
  intro h
  obtain ⟨-, hend⟩ := checkBounds_iff.mp h
  have h1 := hwf.pages
  have h2 := hwf.aligned
  unfold wadd at hend
  omega

/-- The reservation of an allocated stack is never released by `MmuFreeStack` with the address that `MmuAllocStack`
    returned, whatever was reserved, freed and mapped since: if no assertion fails, another reservation is released,
    and that of the stack stays. -/
theorem mmuFreeStack_never_releases {stackSize stack : Nat} {protect lazy : Bool} {pa : Option Nat}
    (halloc : mmuAllocStack vmm space stackSize protect lazy pa = .ok (stack, space')) (h0 : stack ≠ 0) :
    ∃ slot r, view space.vaSpace slot = none ∧ view space'.vaSpace = update (view space.vaSpace) slot (some r) ∧
      ∀ later : AddressSpace, view later.vaSpace slot = some r →
        ¬ Releases later slot r stack ∧ ∀ later', mmuFreeStack later stack = .ok later' →
          view later'.vaSpace slot = some r ∧ ∃ other ≠ slot, view later.vaSpace other ≠ none ∧
            view later'.vaSpace = update (view later.vaSpace) other none := by
  obtain ⟨slot, r, hnone, hview, hwf, -, rfl⟩ := mmuAllocStack_ok halloc h0
  refine ⟨slot, r, hnone, hview, fun later hslot => ?_⟩
  have hother : ∀ later', mmuFreeStack later (wadd 64 r.startVa r.size) = .ok later' →
      view later'.vaSpace slot = some r ∧ ∃ other ≠ slot, view later.vaSpace other ≠ none ∧
        view later'.vaSpace = update (view later.vaSpace) other none := by
    intro later' h
    obtain ⟨k, hfound, hv⟩ := mmuFreeStack_ok h
    obtain ⟨hk, hbounds⟩ := vmFindReservation_some hfound
    have hne : k ≠ slot := by
      rintro rfl
      rw [hslot] at hk
      rw [← Option.some.inj hk, Reservation.checkBounds_end hwf] at hbounds
      cases hbounds
    exact ⟨by rw [hv, update_of_ne hne.symm, hslot], k, hne, by simp [hk], hv⟩
  refine ⟨?_, hother⟩
  rintro ⟨later', h, hv, -⟩
  have hstays := (hother later' h).1
  rw [hv, update_self] at hstays
  cases hstays

def sampleAddressSpace : AddressSpace := ⟨sampleSpace, Paging.smallPool⟩

/-- A stack of one page without a guard. -/
theorem mmuFreeStack_never_releases_page : ∃ (space : AddressSpace) (slot : Nat) (r : Reservation),
    view space.vaSpace slot = some r ∧ ∀ later : AddressSpace, view later.vaSpace slot = some r →
      ¬ Releases later slot r 0x1B000 := by
  obtain ⟨⟨_, space⟩, halloc, rfl⟩ : ∃ x, mmuAllocStack ⟨0, 3⟩ sampleAddressSpace 0x1000 false true none = .ok x ∧
      x.1 = 0x1B000 := exists_ok (by decide)
  obtain ⟨slot, r, -, hview, h⟩ := mmuFreeStack_never_releases halloc (by decide)
  exact ⟨space, slot, r, by rw [hview, update_self], fun later hslot => (h later hslot).1⟩

/-- Freeing a stack of one page at the address that `MmuAllocStack` returned trips the assertion that a reservation
    was found; if the page above the stack was reserved since, that reservation is released and the stack stays. -/
theorem mmuFreeStack_neighbour :
    returns (mmuAllocStack ⟨0, 3⟩ sampleAddressSpace 0x1000 false true none) (fun x =>
      x.1 = 0x1B000 ∧ returns (mmuFreeStack x.2 x.1) (fun _ => True) = false ∧
      returns (vmmAllocRegionEx ⟨0, 3⟩ x.2 0 0x1000 vmmAllocTypeReserve pageRightsReadwrite false none) (fun y =>
        y.1 = 0x1B000 ∧ (view y.2.vaSpace 1).isSome ∧ returns (mmuFreeStack y.2 x.1) (fun space =>
          (view space.vaSpace 0).isSome ∧ view space.vaSpace 1 = none) = true) = true) = true := by
  decide

end HAL9000.Vm
