import HAL9000.Vm.Buffer
import HAL9000.Vm.Stack

/-!
# Page faults

Port of `VmmSolvePageFault` (`HAL9000/src/vmm.c`) and `VmReservationCanAddressBeAccessed`
(`HAL9000/src/vm_reservation_space.c`). A frame is reserved and mapped first, and filled afterwards; if the file
behind it cannot be read, the fault is reported as not solved, and the page stays mapped.
-/

namespace HAL9000.Vm
open Lib
open Paging (PagingState PageMap VmmData Represents frameOf pageOf vmmMapMemoryInternal pageRightsExecute)

/-- How a page may be accessed, and what is behind it (the `OUT` parameters of C
    `VmReservationCanAddressBeAccessed`). -/
structure FaultAccess where
  pageRights : Nat
  uncacheable : Bool := false
  backingFile : Nat := 0
  fileOffset : Nat := 0
deriving DecidableEq, Repr

/-- Whether an access is one the reservations allow; `vmmMemoryAccess` says that the processor is working on their
    metadata (C `VmReservationCanAddressBeAccessed`). -/
def vmReservationCanAddressBeAccessed (rs : ReservationSpace) (vmmMemoryAccess : Bool)
    (faultingAddress rightsRequested : Nat) : Exec (Option FaultAccess) := do
  if faultingAddress = 0 then pure none
  else if checkBounds faultingAddress 1 rs.reservationList rs.reservedAreaSize then
    if vmmMemoryAccess && !isBooleanFlagOn rightsRequested pageRightsExecute then
      pure (some { pageRights := pageRightsReadwrite })
    else pure none
  else
    match ← vmFindReservation rs faultingAddress 1 with
    | none => pure none
    | some slot =>
      let r := rs.slots slot
      let bIsVaCommited ← vmIsVaCommited rs.mem r faultingAddress
      let fileOffset :=
        if r.backingFile ≠ 0 then alignAddressLower (wsub 64 faultingAddress r.startVa) pageSize else 0
      if bIsVaCommited && isBooleanFlagOn r.pageRights rightsRequested then
        pure (some ⟨r.pageRights, r.uncacheable, r.backingFile, fileOffset⟩)
      else pure none

/-- The page tables, the contents of the frames, and the frames taken from the allocator. -/
structure FaultState where
  pagingData : PagingState
  frames : Mem
  reserved : List Nat

section Solve

variable (vmm : VmmData) (rs : ReservationSpace) (vmmMemoryAccess : Bool) (pa : Nat)
  (ioReadFile : Nat → Nat → Option (Nat × Mem))

/-- Solve a page fault. `pa` is the frame `PmmReserveMemory` gives, and `ioReadFile` yields how many bytes of a page
    are in the file and these bytes, or fails (C `VmmSolvePageFault`). -/
def vmmSolvePageFault (s : FaultState) (faultingAddress rightsRequested : Nat) : Exec (Bool × FaultState) := do
  let alignedAddress := alignAddressLower faultingAddress pageSize
  if alignedAddress = 0 then pure (false, s)
  else if vmIsKernelAddress faultingAddress ≠ s.pagingData.data.kernelSpace then pure (false, s)
  else
    match ← vmReservationCanAddressBeAccessed rs vmmMemoryAccess faultingAddress rightsRequested with
    | none => pure (false, s)
    | some access =>
      ensure (0 ≠ pa)
      let pagingData ← vmmMapMemoryInternal vmm s.pagingData pa pageSize alignedAddress access.pageRights true
        access.uncacheable
      let s := { s with pagingData := pagingData, reserved := pa :: s.reserved }
      match if access.backingFile = 0 then some (0, fun _ => 0)
        else ioReadFile access.backingFile access.fileOffset with
      | none => pure (false, s)
      | some (bytesRead, data) =>
        ensure (bytesRead ≤ pageSize)
        -- the bytes go through the page that was just mapped
        match frameOf s.pagingData alignedAddress with
        | none => throw .wild
        | some frame =>
          let frames := fill (copyTo s.frames frame bytesRead data) (frame + bytesRead) (pageSize - bytesRead) 0
          pure (true, { s with frames := frames })

/-- What a page is to hold: the bytes of the file, and zeroes behind them. -/
def FaultAccess.intended (access : FaultAccess) (i : Nat) : UInt8 :=
  match ioReadFile access.backingFile access.fileOffset with
  | some (n, data) => if access.backingFile ≠ 0 ∧ i < n then data i else 0
  | none => 0

/-- What solving a fault is for: it succeeds with the page mapped and filled, or leaves no trace. -/
def AllOrNothing (s : FaultState) (faultingAddress rightsRequested : Nat) (solved : Bool)
    (s' : FaultState) : Prop :=
  (solved = true → ∃ access frame,
    vmReservationCanAddressBeAccessed rs vmmMemoryAccess faultingAddress rightsRequested = .ok (some access) ∧
    frameOf s'.pagingData faultingAddress = some frame ∧
    ∀ i < pageSize, s'.frames (frame + i) = access.intended ioReadFile i) ∧
  (solved = false → (∀ va, frameOf s'.pagingData va = frameOf s.pagingData va) ∧ s'.reserved = s.reserved)

/-- The access is one to solve, and the file behind the page cannot be read. -/
def ReadFails (s : FaultState) (faultingAddress rightsRequested : Nat) : Prop :=
  4096 ≤ faultingAddress ∧ vmIsKernelAddress faultingAddress = s.pagingData.data.kernelSpace ∧ ∃ access,
    vmReservationCanAddressBeAccessed rs vmmMemoryAccess faultingAddress rightsRequested = .ok (some access) ∧
    access.backingFile ≠ 0 ∧ ioReadFile access.backingFile access.fileOffset = none

end Solve

variable {vmm : VmmData} {rs : ReservationSpace} {vmmMemoryAccess solved : Bool} {pa address rights : Nat}
  {ioReadFile : Nat → Nat → Option (Nat × Mem)} {s s' : FaultState} {f : PageMap}

lemma frameOf_mapped {t t' : PagingState} {uncacheable : Bool} (hrep : Represents t f) (hpa : pa % 4096 = 0)
    (hroom : pa + 4096 ≤ 2 ^ 52) (ha : address < 2 ^ 64)
    (h : vmmMapMemoryInternal vmm t pa pageSize (address / 4096 * 4096) rights true uncacheable = .ok t') {va : Nat}
    (hva : pageOf va = pageOf (address / 4096 * 4096)) : frameOf t' va = some pa := by
  have hal : (Paging.Request.map pa pageSize (address / 4096 * 4096) rights true uncacheable).Aligned t :=
    ⟨hpa, by omega, by decide, by omega, by decide, hroom⟩
  obtain ⟨_, -, hf⟩ := (hrep.map hal h).1
  rw [frameOf, hf, hva]
  simp [PageMap.insertRange, Paging.pageIndex, pageSize]

/-- A call that returns is all or nothing if and only if it was not a read that failed. -/
theorem vmmSolvePageFault_allOrNothing_iff (hrep : Represents s.pagingData f) (hpa : pa % 4096 = 0)
    (hroom : pa + 4096 ≤ 2 ^ 52) (ha : address < 2 ^ 64)
    (h : vmmSolvePageFault vmm rs vmmMemoryAccess pa ioReadFile s address rights = .ok (solved, s')) :
    AllOrNothing rs vmmMemoryAccess ioReadFile s address rights solved s' ↔
      ¬ ReadFails rs vmmMemoryAccess ioReadFile s address rights := by
  have hkeep : AllOrNothing rs vmmMemoryAccess ioReadFile s address rights false s :=
    ⟨(fun h => by cases h), fun _ => ⟨fun _ => rfl, rfl⟩⟩
  unfold vmmSolvePageFault at h
  rw [alignAddressLower_page ha] at h
  dsimp only at h
  split at h
  · next hzero =>
    cases h
    refine iff_of_true hkeep fun hfails => ?_
    have := hfails.1
    omega
  split at h
  · next hkernel =>
    cases h
    exact iff_of_true hkeep fun hfails => hkernel hfails.2.1
  next hzero hkernel =>
  obtain ⟨found, haccess, h⟩ := bind_ok.mp h
  cases found with
  | none =>
    cases h
    refine iff_of_true hkeep ?_
    rintro ⟨_, _, access, hother, _⟩
    rw [haccess] at hother
    cases hother
  | some access =>
    obtain ⟨_, -, h⟩ := bind_ok.mp h
    obtain ⟨tables, hmap, h⟩ := bind_ok.mp h
    have hframe {va : Nat} (hva : pageOf va = pageOf (address / 4096 * 4096)) : frameOf tables va = some pa :=
      frameOf_mapped hrep hpa hroom ha hmap hva
    split at h
    · next hread =>
      cases h
      have hfile : access.backingFile ≠ 0 := by
        intro h0
        rw [if_pos h0] at hread
        cases hread
      rw [if_neg hfile] at hread
      refine iff_of_false (fun hnothing => ?_)
        (not_not.mpr ⟨by omega, not_not.mp hkernel, access, haccess, hfile, hread⟩)
      -- the frame stays reserved
      have := congrArg List.length (hnothing.2 rfl).2
      simp at this
    · next n data hread =>
      obtain ⟨_, hn, h⟩ := bind_ok.mp h
      rw [ensure_ok] at hn
      rw [hframe rfl] at h
      cases h
      refine iff_of_true ⟨fun _ => ⟨access, pa, haccess, hframe ?_, fun i hi => ?_⟩, fun h => by cases h⟩ ?_
      · unfold pageOf pageSize
        omega
      · dsimp only [fill, copyTo, FaultAccess.intended]
        by_cases hfile : access.backingFile = 0
        · rw [if_pos hfile] at hread
          cases hread
          rw [if_pos (by omega)]
          split
          · exact (if_neg fun h => h.1 hfile).symm
          · rfl
        · rw [if_neg hfile] at hread
          rw [hread]
          dsimp only
          by_cases hin : i < n
          · rw [if_neg (by omega), if_pos (by omega), if_pos ⟨hfile, hin⟩, Nat.add_sub_cancel_left]
          · rw [if_pos (by omega), if_neg fun h => hin h.2]
      · rintro ⟨_, _, other, hother, hfile, hfails⟩
        rw [haccess] at hother
        cases hother
        rw [if_neg hfile, hfails] at hread
        cases hread

/-- The first page of a file is read and mapped. -/
theorem vmmSolvePageFault_allOrNothing_read : ∃ rs s', AllOrNothing rs false (fun _ _ => some (2, fun _ => 0x41))
    ⟨Paging.smallPool, fun _ => 0, []⟩ 0x1B123 0 true s' := by
  obtain ⟨rs, -, hrun⟩ : ∃ rs, Reach Fresh Served (fun _ _ => True) rs ∧
      returns (vmmSolvePageFault ⟨0, 3⟩ rs false 0x200000 (fun _ _ => some (2, fun _ => 0x41))
        ⟨Paging.smallPool, fun _ => 0, []⟩ 0x1B123 0) (fun x => decide (x.1 = true)) = true :=
    exists_runAll [.alloc 0x1B000 0x1000 3 1 false 7] (by decide)
  obtain ⟨⟨_, s'⟩, hcall, rfl⟩ := exists_ok hrun
  have hrep : Represents Paging.smallPool fun _ => none :=
    Paging.Empty.represents ⟨fun _ => rfl, rfl, by decide, by decide, by decide, fun _ => rfl⟩
  refine ⟨rs, s', (vmmSolvePageFault_allOrNothing_iff hrep (by decide) (by decide) (by decide) hcall).mpr ?_⟩
  rintro ⟨_, _, _, _, _, hread⟩
  cases hread

/-- If the read fails, the fault is not solved, but the page is mapped. -/
theorem vmmSolvePageFault_read_fails :
    returns (runAll [.alloc 0x1B000 0x1000 3 1 false 7] sampleSpace) (fun rs =>
      returns (vmmSolvePageFault ⟨0, 3⟩ rs false 0x200000 (fun _ _ => none) ⟨Paging.smallPool, fun _ => 0, []⟩
        0x1B123 0) (fun x => x.1 = false ∧ x.2.reserved = [0x200000] ∧
          frameOf x.2.pagingData 0x1B123 = some 0x200000)) = true := by
  decide

end HAL9000.Vm
