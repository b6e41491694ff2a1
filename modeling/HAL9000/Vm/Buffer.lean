import HAL9000.Vm.Disjoint

/-!
# Validity of user buffers

Port of `MmuIsBufferValid` (`HAL9000/src/mmu.c`), `VmmIsBufferValid` (`HAL9000/src/vmm.c`) and
`VmReservationReturnRightsForAddress` (`HAL9000/src/vm_reservation_space.c`), and what an accepted
buffer is worth. The check looks at the first byte only if that is in the image, and otherwise at one
byte in every `PAGE_SIZE` bytes, starting from the buffer, which misses the last page of a buffer
whose end lies further into its page than its start. An accepted buffer is valid exactly if the bytes
not looked at are.
-/

namespace HAL9000.Vm
open Lib

/-- The loop of `VmReservationReturnRightsForAddress` over the given offsets. -/
def fullyCommited (mem : Mem) (r : Reservation) (address : Nat) : List Nat → Exec Bool
  | [] => pure true
  | i :: is => do
    if ← vmIsVaCommited mem r (wadd 64 address i) then
      fullyCommited mem r address is
    else pure false

/-- The rights of the reservation that holds the range, if it is all committed
    (C `VmReservationReturnRightsForAddress`). The offsets are `0`, `PAGE_SIZE`, .. below the size. -/
def vmReservationReturnRightsForAddress (rs : ReservationSpace) (address size : Nat) : Exec (Status × Nat) := do
  ensure (address ≠ 0)
  ensure (size ≠ 0)
  match ← vmFindReservation rs address size with
  | none => pure (.memoryIsNotCommited, 0)
  | some slot =>
    let r := rs.slots slot
    let offsets := (List.range ((size + (pageSize - 1)) / pageSize)).map (· * pageSize)
    if ← fullyCommited rs.mem r address offsets then
      pure (.success, r.pageRights)
    else pure (.memoryIsNotCommited, r.pageRights)

def vaHighestValidBit : Nat := 47

/-- Whether an address is in kernel space (C `_VmIsKernelAddress`). -/
def vmIsKernelAddress (address : Nat) : Bool := isBooleanFlagOn address (1 <<< vaHighestValidBit)

/-- Whether one end of a range is in kernel space (C `_VmIsKernelRange`). -/
def vmIsKernelRange (address rangeSize : Nat) : Bool :=
  vmIsKernelAddress address || vmIsKernelAddress (wadd 64 address (rangeSize - 1))

/-- Whether a buffer may be accessed (C `VmmIsBufferValid`). -/
def vmmIsBufferValid (buffer bufferSize rightsRequested : Nat) (rs : ReservationSpace)
    (kernelAccess : Bool) : Exec Status := do
  ensure (buffer ≠ 0)
  ensure (bufferSize ≠ 0)
  if !kernelAccess && vmIsKernelRange buffer bufferSize then
    pure .memoryPreventsUsermodeAccess
  else
    let (status, rightsGranted) ← vmReservationReturnRightsForAddress rs buffer bufferSize
    if status ≠ .success then
      pure status
    else if !isBooleanFlagOn rightsGranted rightsRequested then
      pure .memoryInsufficientAccessRights
    else pure .success

/-- What the check needs of a process (C `PROCESS`): its image, its reservation space, and whether
    its paging data are those of the kernel. -/
structure Process where
  imageBase : Nat
  imageSize : Nat
  vaSpace : ReservationSpace
  kernelSpace : Bool

def Process.InImage (p : Process) (address : Nat) : Prop :=
  p.imageBase ≤ address ∧ address < wadd 64 p.imageBase p.imageSize

instance (p : Process) (address : Nat) : Decidable (p.InImage address) := inferInstanceAs (Decidable (_ ∧ _))

/-- Whether a process may access a buffer (C `MmuIsBufferValid`). -/
def mmuIsBufferValid (buffer bufferSize rightsRequested : Nat) (process : Option Process) : Exec Status :=
  if buffer = 0 then pure .invalidParameter1
  else if bufferSize = 0 then pure .invalidParameter2
  else
    match process with
    | none => pure .invalidParameter4
    | some p =>
      if p.InImage buffer then pure .success
      else vmmIsBufferValid buffer bufferSize rightsRequested p.vaSpace p.kernelSpace

/-! ## What valid means -/

/-- The byte is in a committed page of a reservation with at least these rights. -/
def Process.Commited (p : Process) (rights byte : Nat) : Prop :=
  ∃ i r, view p.vaSpace i = some r ∧ r.startVa ≤ byte ∧ byte < r.startVa + r.size ∧
    bitmapGetBit p.vaSpace.mem r.commitBitmap.bitmapBuffer ((byte - r.startVa) / pageSize) = true ∧
    isBooleanFlagOn r.pageRights rights = true

/-- The byte is in user space, and in the image or in a committed page. -/
def Process.ByteValid (p : Process) (rights byte : Nat) : Prop :=
  vmIsKernelAddress byte = false ∧ (p.InImage byte ∨ p.Commited rights byte)

/-- All bytes of the buffer are valid, and it does not wrap around. -/
def Process.BufferValid (p : Process) (buffer size rights : Nat) : Prop :=
  buffer + size ≤ 2 ^ 64 ∧ ∀ byte, buffer ≤ byte → byte < buffer + size → p.ByteValid rights byte

/-- The buffer is covered by what the check looks at, whatever the process has committed: if its first byte is in
    the image, it ends inside of the image, and in user space; elsewhere its end lies no further into its page than
    a whole number of pages from the start does, or its last page is in the image. -/
def Process.Covered (p : Process) (buffer size : Nat) : Prop :=
  if p.InImage buffer then
    buffer + size ≤ wadd 64 p.imageBase p.imageSize ∧
      ∀ byte, buffer ≤ byte → byte < buffer + size → vmIsKernelAddress byte = false
  else
    buffer % pageSize + (size - 1) % pageSize < pageSize ∨
      ∀ byte, (buffer + size - 1) / pageSize * pageSize ≤ byte → byte < buffer + size → p.InImage byte

/-! ## What the check establishes -/

lemma vmIsKernelAddress_false {a : Nat} : vmIsKernelAddress a = false ↔ a / 2 ^ 47 % 2 = 0 := by
  have h : a &&& 2 ^ 47 = if a / 2 ^ 47 % 2 = 1 then 2 ^ 47 else 0 := by
    rw [Nat.and_two_pow, Nat.testBit_eq_decide_div_mod_eq]
    split <;> simp_all
  unfold vmIsKernelAddress isBooleanFlagOn vaHighestValidBit
  rw [Nat.one_shiftLeft, h]
  split
  · simp
    omega
  · simp
    omega

variable {mem : Mem} {r : Reservation} {address i : Nat} {rs : ReservationSpace}

lemma fullyCommited_true {is : List Nat} (h : fullyCommited mem r address is = .ok true) (hi : i ∈ is) :
    wsub 64 (wadd 64 address i) r.startVa / pageSize < r.commitBitmap.bitCount ∧
      bitmapGetBit mem r.commitBitmap.bitmapBuffer
        (wsub 64 (wadd 64 address i) r.startVa / pageSize) = true := by
  induction is with
  | nil => cases hi
  | cons i' is ih =>
    unfold fullyCommited at h
    obtain ⟨b, hb, h⟩ := bind_ok.mp h
    cases b with
    | false => cases h
    | true =>
      rcases List.mem_cons.mp hi with rfl | hi
      · unfold vmIsVaCommited bitmapGetBitValue at hb
        obtain ⟨_, _, hb⟩ := bind_ok.mp hb
        obtain ⟨_, _, hb⟩ := bind_ok.mp hb
        obtain ⟨_, hlt, hb⟩ := bind_ok.mp hb
        obtain ⟨_, _, hb⟩ := bind_ok.mp hb
        exact ⟨ensure_ok.mp hlt, Except.ok.inj hb⟩
      · exact ih h hi

/-- What an accepted buffer outside the image has: a reservation that holds all of it, with the
    rights, and with every page committed that a step of the loop falls on. -/
structure Checked (rs : ReservationSpace) (buffer size rights : Nat) (r : Reservation) : Prop where
  start : r.startVa ≤ buffer
  fits : buffer + size ≤ r.startVa + r.size
  small : r.size < 2 ^ 44
  below : r.startVa + r.size < 2 ^ 64
  rights : isBooleanFlagOn r.pageRights rights = true
  first : vmIsKernelAddress buffer = false
  last : vmIsKernelAddress (buffer + size - 1) = false
  bits : ∀ k ≤ (size - 1) / 4096,
    bitmapGetBit rs.mem r.commitBitmap.bitmapBuffer ((buffer - r.startVa) / 4096 + k) = true

lemma steps_inside {buffer size : Nat} (hwf : r.WF) (hb : buffer < 2 ^ 64) (hstart : r.startVa ≤ buffer)
    (h : ∀ k ≤ (size - 1) / 4096,
      wsub 64 (wadd 64 buffer (k * pageSize)) r.startVa / pageSize < r.commitBitmap.bitCount) :
    ∀ k ≤ (size - 1) / 4096, buffer - r.startVa + k * 4096 < r.size ∧
      wsub 64 (wadd 64 buffer (k * pageSize)) r.startVa = buffer - r.startVa + k * 4096 := by
  have hp := hwf.pages
  have hc := hwf.count
  unfold maxDword at hc
  intro k
  induction k with
  | zero =>
    intro hk
    have h0 := h 0 hk
    have e : wsub 64 (wadd 64 buffer (0 * pageSize)) r.startVa = buffer - r.startVa + 0 * 4096 := by
      unfold wsub wadd pageSize
      omega
    rw [e, Nat.div_lt_iff_lt_mul (by decide)] at h0
    rw [hp, Nat.mul_comm 4096]
    exact ⟨h0, e⟩
  | succ k ih =>
    intro hk
    have hlt := (ih (by omega)).1
    have hk1 := h (k + 1) hk
    have e : wsub 64 (wadd 64 buffer ((k + 1) * pageSize)) r.startVa =
        buffer - r.startVa + (k + 1) * 4096 := by
      unfold wsub wadd pageSize
      omega
    rw [e, Nat.div_lt_iff_lt_mul (by decide)] at hk1
    rw [hp, Nat.mul_comm 4096]
    exact ⟨hk1, e⟩

/-- Rights are returned for a reservation of which every page is committed that a step of the loop falls on. -/
lemma vmReservationReturnRightsForAddress_ok {size granted : Nat}
    (h : vmReservationReturnRightsForAddress rs address size = .ok (.success, granted)) :
    ∃ slot, vmFindReservation rs address size = .ok (some slot) ∧ granted = (rs.slots slot).pageRights ∧
      ∀ k ≤ (size - 1) / 4096,
        wsub 64 (wadd 64 address (k * pageSize)) (rs.slots slot).startVa / pageSize <
            (rs.slots slot).commitBitmap.bitCount ∧
          bitmapGetBit rs.mem (rs.slots slot).commitBitmap.bitmapBuffer
            (wsub 64 (wadd 64 address (k * pageSize)) (rs.slots slot).startVa / pageSize) = true := by
  unfold vmReservationReturnRightsForAddress at h
  obtain ⟨_, _, h⟩ := bind_ok.mp h
  obtain ⟨_, hsize, h⟩ := bind_ok.mp h
  obtain ⟨found, hfound, h⟩ := bind_ok.mp h
  cases found with
  | none => cases h
  | some slot =>
    obtain ⟨full, hfull, h⟩ := bind_ok.mp h
    cases full with
    | false => cases h
    | true =>
      cases h
      refine ⟨slot, hfound, rfl, fun k hk => fullyCommited_true hfull ?_⟩
      have := ensure_ok.mp hsize
      refine List.mem_map.mpr ⟨k, List.mem_range.mpr ?_, rfl⟩
      unfold pageSize
      omega

lemma vmmIsBufferValid_checked (hr : Reach Fresh Served (fun _ _ => True) rs) {buffer size rights : Nat}
    (hb : buffer < 2 ^ 64) (hsize : size < 2 ^ 64)
    (h : vmmIsBufferValid buffer size rights rs false = .ok .success) :
    ∃ i r, view rs i = some r ∧ r.WF ∧ Checked rs buffer size rights r := by
  unfold vmmIsBufferValid at h
  obtain ⟨_, _, h⟩ := bind_ok.mp h
  obtain ⟨_, hsize0, h⟩ := bind_ok.mp h
  rw [ensure_ok] at hsize0
  split at h
  · cases h
  next hk =>
  obtain ⟨⟨status, granted⟩, hret, h⟩ := bind_ok.mp h
  simp only at h
  split at h
  · next hne =>
    cases h
    exact absurd rfl hne
  next hstatus =>
  obtain rfl : status = .success := not_not.mp hstatus
  split at h
  · cases h
  next hrights =>
  obtain ⟨slot, hfound, rfl, hsteps⟩ := vmReservationReturnRightsForAddress_ok hret
  obtain ⟨hview, hbounds⟩ := vmFindReservation_some hfound
  have hwf := reach_wf hr hview
  rw [checkBounds_iff] at hbounds
  have hin := steps_inside hwf hb hbounds.1 (fun k hk => (hsteps k hk).1)
  have hp := hwf.pages
  have hc := hwf.count
  unfold maxDword at hc
  simp only [Bool.not_false, Bool.true_and, vmIsKernelRange, Bool.or_eq_true, not_or, Bool.not_eq_true] at hk
  -- the start is no kernel address, so nothing here is near the end of the address space
  have hlow := vmIsKernelAddress_false.mp hk.1
  have hlast := (hin ((size - 1) / 4096) (le_refl _)).1
  have hend : wadd 64 buffer (size - 1) = buffer + size - 1 := by
    unfold wadd
    omega
  refine ⟨slot, _, hview, hwf, hbounds.1, by omega, by omega, by omega, by simpa using hrights, hk.1,
    hend ▸ hk.2, fun k hk => ?_⟩
  have := (hsteps k hk).2
  rw [(hin k hk).2] at this
  rw [← this]
  congr 1
  unfold pageSize
  omega

variable {p : Process} {buffer size rights byte : Nat}

lemma Checked.user (hc : Checked rs buffer size rights r) (h1 : buffer ≤ byte) (h2 : byte < buffer + size) :
    vmIsKernelAddress byte = false := by
  have hfirst := vmIsKernelAddress_false.mp hc.first
  have hlast := vmIsKernelAddress_false.mp hc.last
  have hstart := hc.start
  have hfits := hc.fits
  have hsmall := hc.small
  rw [vmIsKernelAddress_false]
  omega

lemma Checked.commited (hc : Checked p.vaSpace buffer size rights r) (hview : view p.vaSpace i = some r)
    (hwf : r.WF) (h1 : buffer ≤ byte) (h2 : byte < buffer + size)
    (h3 : byte / 4096 ≤ buffer / 4096 + (size - 1) / 4096) : p.Commited rights byte := by
  have hstart := hc.start
  have hfits := hc.fits
  have hal := hwf.aligned
  have hbit := hc.bits ((byte - r.startVa) / 4096 - (buffer - r.startVa) / 4096) (by omega)
  refine ⟨i, r, hview, by omega, by omega, ?_, hc.rights⟩
  rw [← hbit]
  congr 1
  unfold pageSize
  omega

/-- A buffer that is accepted for a user process is valid if it is covered. If it is not, and starts in the image,
    it is also accepted for a process with the same image for which it is not valid; elsewhere it is valid exactly
    if its last page is. -/
theorem mmuIsBufferValid_accepts {p : Process} {buffer size rights : Nat}
    (hr : Reach Fresh Served (fun _ _ => True) p.vaSpace) (hk : p.kernelSpace = false)
    (hb : buffer < 2 ^ 64) (hsize : size < 2 ^ 64)
    (h : mmuIsBufferValid buffer size rights (some p) = .ok .success) :
    (p.Covered buffer size → p.BufferValid buffer size rights) ∧ (¬ p.Covered buffer size →
      if p.InImage buffer then ∃ rs, Reach Fresh Served (fun _ _ => True) rs ∧
        mmuIsBufferValid buffer size rights (some { p with vaSpace := rs }) = .ok .success ∧
        ¬ Process.BufferValid { p with vaSpace := rs } buffer size rights
      else (p.BufferValid buffer size rights ↔ ∀ byte, (buffer + size - 1) / pageSize * pageSize ≤ byte →
        byte < buffer + size → p.InImage byte ∨ p.Commited rights byte)) := by
  unfold mmuIsBufferValid at h
  split at h
  · cases h
  next hbuffer0 =>
  split at h
  · cases h
  next hsize0 =>
  simp only at h
  split at h
  · next himg =>
    rw [Process.Covered, if_pos himg, if_pos himg]
    have hwrap := wadd_lt 64 p.imageBase p.imageSize
    refine ⟨fun ⟨hend, huser⟩ =>
      ⟨by omega, fun byte h1 h2 => ⟨huser byte h1 h2, .inl ⟨?_, by omega⟩⟩⟩, fun hnot => ?_⟩
    · exact himg.1.trans h1
    · -- nothing else is looked at, so that nothing has to be reserved
      refine ⟨sampleSpace, .start fresh_sampleSpace, ?_, fun hvalid => hnot ?_⟩
      · rw [mmuIsBufferValid, if_neg hbuffer0, if_neg hsize0]
        exact if_pos himg
      · have hin : ∀ byte, buffer ≤ byte → byte < buffer + size → p.InImage byte := by
          intro byte h1 h2
          refine (hvalid.2 byte h1 h2).2.resolve_right ?_
          rintro ⟨i, r, hview, -⟩
          rw [show view _ i = none from fresh_sampleSpace.view_eq i] at hview
          cases hview
        exact ⟨Nat.le_of_pred_lt (hin (buffer + size - 1) (by omega) (by omega)).2,
          fun byte h1 h2 => (hvalid.2 byte h1 h2).1⟩
  · next himg =>
    rw [hk] at h
    obtain ⟨i, r, hview, hwf, hc⟩ := vmmIsBufferValid_checked hr hb hsize h
    have hbelow := hc.below
    have hfits := hc.fits
    -- the loop falls on every page but, possibly, the last one
    have hpages : (buffer % pageSize + (size - 1) % pageSize < pageSize ∨
        ∀ byte, (buffer + size - 1) / pageSize * pageSize ≤ byte → byte < buffer + size →
          p.InImage byte ∨ p.Commited rights byte) → p.BufferValid buffer size rights := by
      refine fun hlast => ⟨by omega, fun byte h1 h2 => ⟨hc.user h1 h2, ?_⟩⟩
      by_cases h3 : byte / 4096 ≤ buffer / 4096 + (size - 1) / 4096
      · exact .inr (hc.commited hview hwf h1 h2 h3)
      · unfold pageSize at hlast
        exact hlast.resolve_left (by omega) byte (by omega) h2
    rw [Process.Covered, if_neg himg, if_neg himg]
    refine ⟨fun hc => hpages (hc.imp_right fun h byte h1 h2 => .inl (h byte h1 h2)), fun hnot =>
      ⟨fun hvalid byte h1 h2 => ?_, fun hlast => hpages (.inr hlast)⟩⟩
    have hskip := (not_or.mp hnot).1
    exact (hvalid.2 byte (by unfold pageSize at hskip h1; omega) h2).2

def halfCommited : List Request := [.alloc 0x1B000 0x2000 1 1 false 0, .alloc 0x1B000 0x1000 2 1 false 0]

def bareProcess (rs : ReservationSpace) : Process := ⟨0, 0, rs, false⟩

lemma bareProcess_not_inImage (rs : ReservationSpace) (a : Nat) :
    ¬ (bareProcess rs).InImage a := fun h => Nat.not_lt_zero a h.2

/-- A two-byte buffer across the end of the committed page is accepted. -/
theorem mmuIsBufferValid_skips_lastPage : ∃ p : Process,
    Reach Fresh Served (fun _ _ => True) p.vaSpace ∧ p.kernelSpace = false ∧
    mmuIsBufferValid 0x1BFFF 2 0 (some p) = .ok .success ∧ ¬ p.BufferValid 0x1BFFF 2 0 := by
  obtain ⟨rs, hr, hrun⟩ : ∃ rs, Reach Fresh Served (fun _ _ => True) rs ∧
      returns (mmuIsBufferValid 0x1BFFF 2 0 (some (bareProcess rs))) (fun status => decide
        (status = .success ∧ ∀ i < slotCount rs, (view rs i).all fun r => r.startVa = 0x1B000 ∧
          bitmapGetBit rs.mem r.commitBitmap.bitmapBuffer 1 = false)) = true :=
    exists_runAll halfCommited (by decide +kernel)
  obtain ⟨_, hok, rfl, hview⟩ := exists_ok hrun
  refine ⟨bareProcess rs, hr, rfl, hok, ?_⟩
  rintro ⟨_, hall⟩
  rcases (hall 0x1C000 (by decide) (by decide)).2 with himg | ⟨i, r, hr, _, _, hbit, _⟩
  · exact bareProcess_not_inImage rs _ himg
  · have h := hview i (view_eq_some.mp hr).2.1
    change view rs i = some r at hr
    rw [hr, Option.all_some, decide_eq_true_eq] at h
    rw [h.1] at hbit
    exact absurd (h.2.symm.trans hbit) (by decide)

/-- A buffer inside the committed page is accepted, and valid. -/
theorem mmuIsBufferValid_accepts_inside : ∃ p : Process,
    mmuIsBufferValid 0x1B010 16 1 (some p) = .ok .success ∧ p.BufferValid 0x1B010 16 1 := by
  obtain ⟨rs, hr, hrun⟩ : ∃ rs, Reach Fresh Served (fun _ _ => True) rs ∧
      returns (mmuIsBufferValid 0x1B010 16 1 (some (bareProcess rs)))
        (fun status => decide (status = .success)) = true :=
    exists_runAll halfCommited (by decide)
  obtain ⟨_, hok, rfl⟩ := exists_ok hrun
  refine ⟨bareProcess rs, hok, (mmuIsBufferValid_accepts (p := bareProcess rs) hr rfl (by decide) (by decide)
    hok).1 ?_⟩
  rw [Process.Covered, if_neg (bareProcess_not_inImage rs _)]
  exact .inl (by decide)

end HAL9000.Vm
