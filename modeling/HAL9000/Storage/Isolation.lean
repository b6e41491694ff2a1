import HAL9000.Storage.Model
import HAL9000.Disk.Layout

/-!
# Volumes are isolated

A request to a volume goes through three drivers, each of which checks it. `checkRequest` puts the
checks together: a request that passes them is one transfer of sectors of the partition, and any other
request leaves the hardware alone (`ioReadWriteDevice_volume`). So every sector that is read or modified
is in the partition, and volumes with disjoint partitions do not see each other's requests
(`volumes_isolated`).
-/

namespace HAL9000.Storage
open Lib Prog Function

variable {p : Disk.PartitionInformation} {d : AtaDevice} {r : Request} {s : IoState} {i n k : Nat}
  {write : Bool}

lemma lba_ataWriteIOParameters (t : TaskFile) (hi : i < 2 ^ 48) : (ataWriteIOParameters t i n).lba = i := by
  unfold TaskFile.lba ataWriteIOParameters Register.push
  dsimp only
  omega

lemma count_ataWriteIOParameters (t : TaskFile) (h0 : 0 < n) (hn : n < 2 ^ 16) :
    (ataWriteIOParameters t i n).count = n := by
  have hword : (ataWriteIOParameters t i n).sectorCount.word = n := by
    unfold ataWriteIOParameters Register.push Register.word
    dsimp only
    omega
  rw [TaskFile.count, hword, if_neg (by omega)]

/-- The hardware after the transfer of `n` sectors from sector `i` on. -/
def carryOut (s : IoState) (device i n : Nat) (write : Bool) : IoState :=
  let s := { s with transfers := ⟨device, write, i, n⟩ :: s.transfers }
  if write then
    { s with
      disks := update s.disks device
        (copyTo (s.disks device) (i * sectorSize) (n * sectorSize) s.irp.buffer) }
  else
    { s with
      irp := { s.irp with
        buffer := copyTo s.irp.buffer 0 (n * sectorSize) fun x => s.disks device (i * sectorSize + x) } }

def SameButRegisters (s s' : IoState) : Prop := ∃ t, s' = { s with taskFile := t }

def checkBuffer (asynchronous : Bool) (dmaStatus : Option Status) : Except Status Unit :=
  match asynchronous, dmaStatus with
  | true, some status => .error status
  | _, _ => .ok ()

def ataCheck (d : AtaDevice) (asynchronous : Bool) (dmaStatus : Option Status) (size offset : Nat) :
    Except Status Unit :=
  match ataCheckAlignment size offset with
  | .error status => .error status
  | .ok _ =>
    if size / sectorSize > maxWord then .error .deviceSectorCountExceeded
    else
      match ataCheckIOParameters d (offset / sectorSize) (size / sectorSize) with
      | .error status => .error status
      | .ok _ =>
        if 0 = size / sectorSize then .error .invalidParameter3
        else checkBuffer asynchronous dmaStatus

lemma ataPrepareDmaTransfer_eq :
    ataPrepareDmaTransfer s = .ok (checkBuffer s.irp.asynchronous s.irp.dmaStatus, s) := by
  rw [ataPrepareDmaTransfer, bind_of_ok get_apply]
  unfold checkBuffer
  cases s.irp.asynchronous with
  | false => rfl
  | true =>
    cases s.irp.dmaStatus with
    | none => rfl
    | some status => rfl

lemma command_eq (hi : (s.taskFile d.device).lba = i) (hn : (s.taskFile d.device).count = n) :
    command d.device write s = .ok (.ok (), carryOut s d.device i n write) := by
  rw [command, modify_apply, hi, hn]
  rfl

/-- A request that passes its checks is carried out, and any other one leaves the hardware alone. -/
def Answered (check : Except Status Unit) (d : AtaDevice) (i n : Nat) (write : Bool) (s : IoState)
    (res : Except Status Nat) (s' : IoState) : Prop :=
  match check with
  | .error status => res = .error status ∧ SameButRegisters s s'
  | .ok _ => res = .ok n ∧ SameButRegisters (carryOut s d.device i n write) s'

lemma ataReadWriteSectors_runs (hi : i < 2 ^ 48) (h0 : ¬ 0 = n) (hn : n < 2 ^ 16) :
    Runs (fun _ => True) (ataReadWriteSectors d i n write) s
      (Answered (checkBuffer s.irp.asynchronous s.irp.dmaStatus) d i n write s) := by
  rw [ataReadWriteSectors, if_neg h0]
  refine .bind_of_ok modify_apply ?_
  cases hb : checkBuffer s.irp.asynchronous s.irp.dmaStatus with
  | error status =>
    rw [Runs, Prog.bind_of_fail (ataPrepareDmaTransfer_eq.trans (by rw [hb]))]
    exact ⟨rfl, _, rfl⟩
  | ok u =>
    refine .bind_of_ok (ataPrepareDmaTransfer_eq.trans (by rw [hb])) ?_
    refine .bind_of_ok (command_eq (i := i) (n := n) ?_ ?_) (.pure ⟨rfl, ?_⟩)
    · dsimp only
      rw [update_self, lba_ataWriteIOParameters _ hi]
    · dsimp only
      rw [update_self, count_ataWriteIOParameters _ (by omega) hn]
    · cases write with
      | true | false => exact ⟨_, rfl⟩

lemma update_inProgress {f : Nat → Bool} (h : f k = false) : update (update f k true) k false = f := by
  rw [update_idem, ← h, update_eq_self]

lemma Answered.idle {check : Except Status Unit} {res : Except Status Nat} {s' : IoState}
    {f : Nat → Bool} (h : Answered check d i n write { s with inProgress := f } res s') :
    Answered check d i n write s res { s' with inProgress := s.inProgress } := by
  cases check with obtain ⟨hres, t, rfl⟩ := h
  | error status => exact ⟨hres, t, rfl⟩
  | ok u =>
    refine ⟨hres, t, ?_⟩
    cases write with
    | true => rfl
    | false => rfl

lemma Answered.inProgress_eq {check : Except Status Unit} {res : Except Status Nat} {s' : IoState}
    (h : Answered check d i n write s res s') : s'.inProgress = s.inProgress := by
  cases check with obtain ⟨-, t, rfl⟩ := h
  | error status => rfl
  | ok u =>
    cases write with
    | true => rfl
    | false => rfl

lemma ataCheckIOParameters_lt {u : Unit} (h : ataCheckIOParameters d i n = .ok u) : i < 2 ^ 48 := by
  unfold ataCheckIOParameters lba48MaxValue at h
  split at h
  · cases h
  split at h
  · cases h
  split at h
  · cases h
  · omega

lemma ataTransfer_runs (hidle : s.inProgress d.device = false) {size offset : Nat} :
    Runs (fun _ => True) (ataTransfer d size offset write) s
      (Answered (ataCheck d s.irp.asynchronous s.irp.dmaStatus size offset) d (offset / sectorSize)
        (size / sectorSize) write s) := by
  rw [ataTransfer, ataCheck]
  cases halign : ataCheckAlignment size offset with
  | error status => exact ⟨rfl, s.taskFile, rfl⟩
  | ok u =>
    rw [ofExcept_ok_bind]
    dsimp only
    by_cases hmax : size / sectorSize > maxWord
    · rw [if_pos hmax, if_pos hmax]
      exact ⟨rfl, s.taskFile, rfl⟩
    rw [if_neg hmax, if_neg hmax]
    cases hio : ataCheckIOParameters d (offset / sectorSize) (size / sectorSize) with
    | error status => exact ⟨rfl, s.taskFile, rfl⟩
    | ok u =>
      rw [ofExcept_ok_bind]
      refine .bind_of_ok get_apply ?_
      rw [assert_pos hidle, pure_bind]
      refine .bind_of_ok modify_apply ?_
      dsimp only
      by_cases h0 : 0 = size / sectorSize
      · rw [ataReadWriteSectors, if_pos h0, if_pos h0]
        refine .bind_of_ok (attempt_of_ok fail_apply) (.bind_of_ok modify_apply (.ofExcept ?_))
        exact ⟨rfl, s.taskFile, by rw [update_inProgress hidle]⟩
      rw [if_neg h0]
      unfold maxWord at hmax
      refine .bind (.attempt (.mono (ataReadWriteSectors_runs (ataCheckIOParameters_lt hio) h0 ?_) ?_))
      · omega
      · intro res s' hres
        refine .bind_of_ok modify_apply (.ofExcept ?_)
        have hs' := hres.inProgress_eq
        rw [hs', update_inProgress hidle]
        exact hres.idle

section Drivers

variable {s' : IoState} {l : StackLocation} {check : Except Status Unit}

lemma isAddressAligned_sector : isAddressAligned n sectorSize = true ↔ n % sectorSize = 0 :=
  isAddressAligned_iff (k := 9) (by decide)

structure Alike (s s' : IoState) : Prop where
  disks : s'.disks = s.disks
  inProgress : s'.inProgress = s.inProgress
  transfers : s'.transfers = s.transfers
  buffer : s'.irp.buffer = s.irp.buffer

lemma Alike.trans {s'' : IoState} (h : Alike s s') (h' : Alike s' s'') : Alike s s'' where
  disks := h'.disks.trans h.disks
  inProgress := h'.inProgress.trans h.inProgress
  transfers := h'.transfers.trans h.transfers
  buffer := h'.buffer.trans h.buffer

lemma Alike.carryOut (h : Alike s s') : Alike (carryOut s k i n write) (carryOut s' k i n write) := by
  obtain ⟨hdisks, hprogress, htransfers, hbuffer⟩ := h
  cases write with
  | true =>
    refine ⟨?_, hprogress, congrArg (List.cons _) htransfers, hbuffer⟩
    simp only [Storage.carryOut, if_true, hdisks, hbuffer]
  | false =>
    refine ⟨hdisks, hprogress, congrArg (List.cons _) htransfers, ?_⟩
    simp only [Storage.carryOut, Bool.false_eq_true, if_false, hdisks, hbuffer]

def Completed (check : Except Status Unit) (d : AtaDevice) (i n : Nat) (write : Bool) (s s' : IoState) :
    Prop :=
  match check with
  | .error status => s'.irp.status = status ∧ s'.irp.information = 0 ∧ Alike s s'
  | .ok _ => s'.irp.status = .success ∧ s'.irp.information = n * sectorSize ∧
      Alike (carryOut s d.device i n write) s'

lemma Completed.congr {s₀ : IoState} (h : Alike s₀ s) (hc : Completed check d i n write s s') :
    Completed check d i n write s₀ s' := by
  cases check with
  | error status => exact ⟨hc.1, hc.2.1, h.trans hc.2.2⟩
  | ok u => exact ⟨hc.1, hc.2.1, h.carryOut.trans hc.2.2⟩

lemma ataFinish_runs {res : Except Status Nat} (hopen : s.irp.completed = false)
    (h : Answered check d i n write s res s') :
    Runs (fun _ => True) (ataFinish res) s' fun res' s'' =>
      res' = .ok () ∧ Completed check d i n write s s'' := by
  cases check with obtain ⟨rfl, t, rfl⟩ := h
  | error status =>
    refine .bind_of_ok modify_apply (.bind_of_ok get_apply ?_)
    rw [assert_pos hopen, pure_bind]
    exact ⟨rfl, rfl, rfl, rfl, rfl, rfl, rfl⟩
  | ok u =>
    refine .bind_of_ok modify_apply (.bind_of_ok get_apply ?_)
    rw [assert_pos ?_, pure_bind]
    · exact ⟨rfl, rfl, rfl, rfl, rfl, rfl, rfl⟩
    · cases write with
      | true | false => exact hopen

lemma ioGetCurrentIrpStackLocation_eq (h : 0xFF ≠ s.irp.currentStackLocation) : ioGetCurrentIrpStackLocation s =
      .ok (.ok (s.irp.stackLocations s.irp.currentStackLocation), s) := by
  rw [ioGetCurrentIrpStackLocation, bind_of_ok get_apply, assert_pos h]
  rfl

/-- The request has come to the driver of stack location `k`. -/
def enter (s : IoState) (k : Nat) : IoState := { s with irp := { s.irp with currentStackLocation := k } }

/-- The stack location `k` of the request is set. -/
def pass (s : IoState) (k : Nat) (l : StackLocation) : IoState :=
  { s with irp := { s.irp with stackLocations := update s.irp.stackLocations k l } }

lemma pass_location : (pass s k l).irp.stackLocations k = l := update_self ..

lemma alike_enter : Alike s (enter s k) := ⟨rfl, rfl, rfl, rfl⟩

lemma alike_pass : Alike s (pass s k l) := ⟨rfl, rfl, rfl, rfl⟩

lemma ioCopyCurrentStackLocationToNext_eq (hk : s.irp.currentStackLocation = k + 1) :
    ioCopyCurrentStackLocationToNext s = .ok (.ok (), pass s k (s.irp.stackLocations (k + 1))) := by
  rw [ioCopyCurrentStackLocationToNext, bind_of_ok get_apply, assert_pos (by omega), pure_bind, modify_apply, hk]
  rfl

lemma setNextOffset_eq (hk : s.irp.currentStackLocation = k + 1) :
    setNextOffset n s = .ok (.ok (), pass s k { s.irp.stackLocations k with offset := n }) := by
  rw [setNextOffset, bind_of_ok get_apply, assert_pos (by omega), pure_bind, modify_apply, hk]
  rfl

def Aligned (l : StackLocation) : Prop := l.length % sectorSize = 0 ∧ l.offset % sectorSize = 0

instance : DecidablePred Aligned := fun _ => inferInstanceAs (Decidable (_ ∧ _))

lemma ioEnterDriver_eq (hk : s.irp.currentStackLocation = k + 1) (hk' : 0xFF ≠ k) : ioEnterDriver sectorSize s =
      .ok (if Aligned (s.irp.stackLocations k) then .ok () else .error .deviceAlignmentNoSatisfied, enter s k) := by
  have hk1 : s.irp.currentStackLocation - 1 = k := by omega
  rw [ioEnterDriver, bind_of_ok get_apply, assert_pos (by omega), pure_bind, bind_of_ok modify_apply,
    hk1, bind_of_ok (ioGetCurrentIrpStackLocation_eq hk')]
  dsimp only
  by_cases hlen : isAddressAligned (s.irp.stackLocations k).length sectorSize = true
  · by_cases hoff : isAddressAligned (s.irp.stackLocations k).offset sectorSize = true
    · have h : Aligned (s.irp.stackLocations k) :=
        ⟨isAddressAligned_sector.mp hlen, isAddressAligned_sector.mp hoff⟩
      simp only [hlen, hoff, if_pos h]
      rfl
    · have h : ¬ Aligned (s.irp.stackLocations k) := fun h => hoff (isAddressAligned_sector.mpr h.2)
      simp only [hlen, hoff, if_neg h]
      rfl
  · have h : ¬ Aligned (s.irp.stackLocations k) := fun h => hlen (isAddressAligned_sector.mpr h.1)
    simp only [hlen, if_neg h]
    rfl

variable (hidle : s.inProgress d.device = false) (hopen : s.irp.completed = false)
include hidle hopen

lemma ioCallDriver_controller (hk : s.irp.currentStackLocation = 1) (hl : s.irp.stackLocations 0 = l)
    (h : Aligned l) :
    Runs (fun _ => True) (ioCallDriver (.controller d)) s fun res s' => res = .ok () ∧
      Completed (ataCheck d s.irp.asynchronous s.irp.dmaStatus l.length l.offset) d
        (l.offset / sectorSize) (l.length / sectorSize) (l.majorFunction = .write) s s' := by
  subst hl
  refine .bind_of_ok ((ioEnterDriver_eq hk (by decide)).trans (by rw [if_pos h])) ?_
  refine .bind_of_ok (ioGetCurrentIrpStackLocation_eq (show 0xFF ≠ 0 by decide)) ?_
  refine .bind (.attempt (.mono (ataTransfer_runs (s := enter s 0) hidle) ?_))
  intro res s' hres
  refine (ataFinish_runs (s := enter s 0) hopen hres).mono ?_
  rintro res' s'' ⟨hres', hc⟩
  exact ⟨hres', hc.congr alike_enter⟩

lemma ioCallDriver_disk (hk : s.irp.currentStackLocation = 2) (hl : s.irp.stackLocations 1 = l) (h : Aligned l) :
    Runs (fun _ => True) (ioCallDriver (.disk (.controller d))) s fun res s' => res = .ok () ∧
      Completed (ataCheck d s.irp.asynchronous s.irp.dmaStatus l.length l.offset) d
        (l.offset / sectorSize) (l.length / sectorSize) (l.majorFunction = .write) s s' := by
  subst hl
  refine .bind_of_ok ((ioEnterDriver_eq hk (by decide)).trans (by rw [if_pos h])) ?_
  refine .bind_of_ok (ioCopyCurrentStackLocationToNext_eq rfl) ?_
  refine (ioCallDriver_controller (s := pass (enter s 1) 0 (s.irp.stackLocations 1)) hidle hopen rfl
    pass_location h).mono ?_
  rintro res' s'' ⟨hres', hc⟩
  exact ⟨hres', hc.congr (alike_enter.trans alike_pass)⟩

end Drivers

/-- A volume: a partition that has been found on a disk, and the controller of that disk
    (C `_VolInitialize`). -/
structure Volume where
  controller : AtaDevice
  partition : Disk.PartitionInformation
  found : ∃ fuel disk layout, Disk.diskRetrievePartitionsFromDisk fuel disk = .ok (.ok layout) ∧
    partition ∈ layout.partitions

def Volume.device (v : Volume) : DeviceObject := .volume v.partition (.disk (.controller v.controller))

/-- The numbers of a partition are `DWORD`s. -/
def InDisk (p : Disk.PartitionInformation) : Prop := p.offsetInDisk < 2 ^ 32 ∧ p.partitionSize < 2 ^ 32

section Found

open Disk

variable {disk : Device} {fill extendedPartition : Bool} {offset first count fuel : Nat}
  {es : List Entry} {found : List PartitionInformation} {scan : Scan}

lemma scanEntries_inDisk {recurse : Nat → Nat → Nat → List PartitionInformation → Exec Scan}
    (hrec : ∀ offset first count found scan, (∀ q ∈ found, InDisk q) →
      recurse offset first count found = .ok scan → ∀ q ∈ scan.partitions, InDisk q)
    (hes : ∀ e ∈ es, e.numberOfSectors < 2 ^ 32) (hfound : ∀ q ∈ found, InDisk q)
    (h : scanEntries recurse offset extendedPartition first fill es count found = .ok scan) :
    ∀ q ∈ scan.partitions, InDisk q := by
  induction es generalizing count found with
  | nil =>
    cases h
    exact hfound
  | cons e es ih =>
    obtain ⟨he, hes⟩ := List.forall_mem_cons.mp hes
    rw [scanEntries] at h
    split at h
    · cases h
      exact hfound
    split at h
    · exact ih hes hfound h
    split at h
    · exact hrec _ _ _ _ _ hfound h
    · refine ih hes ?_ h
      intro q hq
      split at hq
      · obtain hq | hq := List.mem_append.mp hq
        · exact hfound q hq
        · obtain rfl := List.mem_singleton.mp hq
          exact ⟨Nat.mod_lt _ (by decide), he⟩
      · exact hfound q hq

lemma retrieve_inDisk (hfound : ∀ q ∈ found, InDisk q)
    (h : diskRetrievePartitionsFromDiskStartingAtOffset disk fill fuel offset extendedPartition first
      count found = .ok scan) : ∀ q ∈ scan.partitions, InDisk q := by
  induction fuel generalizing offset extendedPartition first count found scan with
  | zero => cases h
  | succ fuel ih =>
    rw [diskRetrievePartitionsFromDiskStartingAtOffset] at h
    obtain ⟨u, -, h⟩ := bind_ok.mp h
    cases hd : disk offset with
    | error status =>
      rw [hd] at h
      cases h
      exact hfound
    | ok mbr =>
      simp only [hd] at h
      split at h
      · cases h
        exact hfound
      · refine scanEntries_inDisk (fun _ _ _ _ _ hf hr => ih hf hr) ?_ hfound h
        intro e he
        obtain ⟨i, -, rfl⟩ := List.mem_map.mp he
        exact readLE_lt mbr _ 4

lemma Volume.inDisk (v : Volume) : InDisk v.partition := by
  obtain ⟨fuel, disk, layout, hr, hmem⟩ := v.found
  rw [diskRetrievePartitionsFromDisk] at hr
  obtain ⟨s, -, hr⟩ := bind_ok.mp hr
  split at hr
  · cases hr
  obtain ⟨s', hs', hr⟩ := bind_ok.mp hr
  split at hr
  · cases hr
  · cases hr
    exact retrieve_inDisk (fun q hq => absurd hq List.not_mem_nil) hs' _ hmem

end Found

def Request.location (r : Request) : StackLocation := ⟨if r.write then .write else .read, r.length, r.offset⟩

lemma Request.location_write (r : Request) : decide (r.location.majorFunction = .write) = r.write := by
  rw [Request.location]
  cases r.write with
  | true => rfl
  | false => rfl

def checkRequest (p : Disk.PartitionInformation) (d : AtaDevice) (r : Request) : Except Status Unit :=
  if Aligned r.location then
    match volCheckIOParameters p (r.offset / sectorSize) (r.length / sectorSize) with
    | .error status => .error status
    | .ok _ => ataCheck d r.asynchronous r.dmaStatus r.length
        ((r.offset / sectorSize + p.offsetInDisk) * sectorSize)
  else .error .deviceAlignmentNoSatisfied

lemma volCheckIOParameters_ok {u : Unit} (h : volCheckIOParameters p i n = .ok u) :
    i < p.partitionSize ∧ i + n ≤ p.partitionSize := by
  unfold volCheckIOParameters at h
  split at h
  · cases h
  split at h
  · cases h
  · omega

lemma rebase_eq (hp : InDisk p) (hi : i < p.partitionSize) :
    wadd 64 i p.offsetInDisk * sectorSize % 2 ^ 64 = (i + p.offsetInDisk) * sectorSize := by
  obtain ⟨hoff, hsize⟩ := hp
  unfold wadd sectorSize
  omega

lemma volForward_runs (hp : InDisk p) (hidle : s.inProgress d.device = false)
    (hopen : s.irp.completed = false) (hk : s.irp.currentStackLocation = 2)
    (hl : s.irp.stackLocations 2 = r.location) (ha : Aligned r.location) :
    Runs (fun _ => True) (volForward p (ioCallDriver (.disk (.controller d))) r.location) s fun res s' =>
      match volCheckIOParameters p (r.offset / sectorSize) (r.length / sectorSize) with
      | .error status => res = .error status ∧ s' = s
      | .ok _ => res = .ok () ∧ Completed (ataCheck d s.irp.asynchronous s.irp.dmaStatus r.length
          ((r.offset / sectorSize + p.offsetInDisk) * sectorSize)) d
            (r.offset / sectorSize + p.offsetInDisk) (r.length / sectorSize) r.write s s' := by
  rw [volForward]
  dsimp only [Request.location]
  cases hv : volCheckIOParameters p (r.offset / sectorSize) (r.length / sectorSize) with
  | error status => exact ⟨rfl, rfl⟩
  | ok u =>
    have hi := (volCheckIOParameters_ok hv).1
    rw [ofExcept_ok_bind, rebase_eq hp hi]
    refine .bind_of_ok (ioCopyCurrentStackLocationToNext_eq hk) ?_
    refine .bind_of_ok (setNextOffset_eq hk) ?_
    rw [hl]
    refine (ioCallDriver_disk (l := ⟨r.location.majorFunction, r.length,
      (r.offset / sectorSize + p.offsetInDisk) * sectorSize⟩) ?_ ?_ ?_ ?_ ?_).mono ?_
    · exact hidle
    · exact hopen
    · exact hk
    · rw [pass_location, pass_location]
      rfl
    · exact ⟨ha.1, Nat.mul_mod_left ..⟩
    · rintro res' s'' ⟨hres', hc⟩
      dsimp only at hc
      rw [Nat.mul_div_cancel _ (by decide), Request.location_write] at hc
      exact ⟨hres', hc.congr (alike_pass.trans alike_pass)⟩

def answer (check : Except Status Unit) (n : Nat) : Except Status Nat :=
  match check with
  | .error status => if status ≠ .success then .error status else .ok 0
  | .ok _ => .ok (n * sectorSize)

def after (p : Disk.PartitionInformation) (d : AtaDevice) (r : Request) (s : IoState) : IoState :=
  match checkRequest p d r with
  | .error _ => { s with irp := r.irp 3 }
  | .ok _ => carryOut { s with irp := r.irp 3 } d.device (r.offset / sectorSize + p.offsetInDisk)
      (r.length / sectorSize) r.write

lemma volDispatchReadWrite_runs (hp : InDisk p) (hidle : s.inProgress d.device = false)
    (hopen : s.irp.completed = false) (hnone : s.irp.information = 0)
    (hk : s.irp.currentStackLocation = 2)
    (hl : s.irp.stackLocations 2 = r.location) (ha : Aligned r.location)
    (hsync : s.irp.asynchronous = r.asynchronous) (hdma : s.irp.dmaStatus = r.dmaStatus) :
    Runs (fun _ => True) (volDispatchReadWrite p (ioCallDriver (.disk (.controller d)))) s fun res s' =>
      res = .ok () ∧ Completed (checkRequest p d r) d (r.offset / sectorSize + p.offsetInDisk)
        (r.length / sectorSize) r.write s s' := by
  have hloc : s.irp.stackLocations s.irp.currentStackLocation = r.location := by rw [hk, hl]
  refine .bind_of_ok (ioGetCurrentIrpStackLocation_eq (by omega)) ?_
  rw [hloc]
  refine .bind (.attempt (.mono (volForward_runs hp hidle hopen hk hl ha) ?_))
  intro res s' hres
  dsimp only
  rw [checkRequest, if_pos ha]
  cases hv : volCheckIOParameters p (r.offset / sectorSize) (r.length / sectorSize) with
  | error status =>
    rw [hv] at hres
    obtain ⟨rfl, rfl⟩ := hres
    refine .bind_of_ok modify_apply (.bind_of_ok get_apply ?_)
    rw [assert_pos hopen, pure_bind]
    exact ⟨rfl, rfl, hnone, rfl, rfl, rfl, rfl⟩
  | ok u =>
    rw [hv, hsync, hdma] at hres
    obtain ⟨rfl, hc⟩ := hres
    exact ⟨rfl, hc⟩

lemma ioReadWriteDevice_volume (hp : InDisk p) (hidle : s.inProgress d.device = false) :
    Runs (fun _ => True) (ioReadWriteDevice (.volume p (.disk (.controller d))) r) s fun res s' =>
      res = answer (checkRequest p d r) (r.length / sectorSize) ∧ Alike (after p d r s) s' := by
  have hl : (r.irp 3).stackLocations 2 = r.location := rfl
  have henter := ioEnterDriver_eq (s := { s with irp := r.irp 3 }) (k := 2) rfl (by decide)
  dsimp only at henter
  rw [hl] at henter
  refine .bind_of_ok modify_apply ?_
  rw [after]
  by_cases ha : Aligned r.location
  · rw [if_pos ha] at henter
    refine .bind (.bind_of_ok henter (.mono (volDispatchReadWrite_runs (r := r) hp hidle rfl rfl rfl hl ha
      rfl rfl) ?_))
    rintro _ s' ⟨rfl, hc⟩
    refine .bind_of_ok get_apply ?_
    cases hcheck : checkRequest p d r with rw [hcheck] at hc
    | error status =>
      obtain ⟨hstatus, hinfo, halike⟩ := hc
      refine .ite (fun h => .fail ?_) (fun h => .pure ?_)
      · exact ⟨by rw [answer, ← hstatus, if_pos h], alike_enter.trans halike⟩
      · exact ⟨by rw [answer, ← hstatus, if_neg h, hinfo], alike_enter.trans halike⟩
    | ok u =>
      obtain ⟨hstatus, hinfo, halike⟩ := hc
      rw [if_neg (by simp [hstatus])]
      exact .pure ⟨by rw [answer, hinfo], alike_enter.carryOut.trans halike⟩
  · rw [if_neg ha] at henter
    rw [checkRequest, if_neg ha]
    exact .of_eq (bind_of_fail (bind_of_fail henter)) ⟨rfl, alike_enter⟩

def InPartition (p : Disk.PartitionInformation) (x : Nat) : Prop :=
  p.offsetInDisk ≤ x ∧ x < p.offsetInDisk + p.partitionSize

/-- The sector `x` of a device is one of the volume. -/
def Volume.Has (v : Volume) (device x : Nat) : Prop := device = v.controller.device ∧ InPartition v.partition x

def Volume.Disjoint (v w : Volume) : Prop := ∀ device x, ¬ (v.Has device x ∧ w.Has device x)

def requests (d : DeviceObject) : List Request → Io Unit
  | [] => pure ()
  | r :: rs => do
    let _ ← (ioReadWriteDevice d r).attempt
    requests d rs

def seen (d : DeviceObject) (r : Request) (s : IoState) : Exec (Except Status Nat × Mem) :=
  match ioReadWriteDevice d r s with
  | .error e => .error e
  | .ok (res, s') => .ok (res, s'.irp.buffer)

def Idle (s : IoState) : Prop := ∀ device, s.inProgress device = false

lemma checkRequest_ok {u : Unit} (h : checkRequest p d r = .ok u) :
    r.offset / sectorSize + r.length / sectorSize ≤ p.partitionSize := by
  rw [checkRequest] at h
  split at h
  · split at h
    · cases h
    · next hv => exact (volCheckIOParameters_ok hv).2
  · cases h

lemma inPartition_of_le {x : Nat} (h : i + n ≤ p.partitionSize) (hle : i + p.offsetInDisk ≤ x)
    (hlt : x < i + p.offsetInDisk + n) : InPartition p x := ⟨by omega, by omega⟩

lemma inPartition_of_span {a : Nat} (h : i + n ≤ p.partitionSize)
    (ha : Span ((i + p.offsetInDisk) * sectorSize) (n * sectorSize) a) :
    InPartition p (a / sectorSize) := by
  obtain ⟨hle, hlt⟩ := ha
  unfold sectorSize at hle hlt ⊢
  refine inPartition_of_le h ?_ ?_
  · omega
  · omega

def TransferIn (p : Disk.PartitionInformation) (d : AtaDevice) (t : Transfer) : Prop :=
  t.device = d.device ∧ ∀ x, t.lba ≤ x → x < t.lba + t.count → InPartition p x

lemma after_transfers : ∃ new, (after p d r s).transfers = new ++ s.transfers ∧ ∀ t ∈ new, TransferIn p d t := by
  rw [after]
  cases hcheck : checkRequest p d r with
  | error status => exact ⟨[], rfl, fun t ht => absurd ht List.not_mem_nil⟩
  | ok u =>
    have hr := checkRequest_ok hcheck
    refine ⟨[⟨d.device, r.write, r.offset / sectorSize + p.offsetInDisk, r.length / sectorSize⟩], ?_, ?_⟩
    · dsimp only [carryOut]
      split
      · rfl
      · rfl
    · intro t ht
      obtain rfl := List.mem_singleton.mp ht
      refine ⟨rfl, fun x hle hlt => ?_⟩
      exact inPartition_of_le hr hle hlt

lemma after_disks {a : Nat} (h : ¬ (k = d.device ∧ InPartition p (a / sectorSize))) :
    (after p d r s).disks k a = s.disks k a := by
  rw [after]
  cases hcheck : checkRequest p d r with
  | error status => rfl
  | ok u =>
    have hr := checkRequest_ok hcheck
    dsimp only [carryOut]
    split
    · by_cases hk : k = d.device
      · subst hk
        dsimp only
        rw [update_self]
        exact copyTo_within _ fun hin => h ⟨rfl, inPartition_of_span hr hin⟩
      · exact congrFun (update_of_ne hk _ _) a
    · rfl

lemma after_inProgress : (after p d r s).inProgress = s.inProgress := by
  rw [after]
  split
  · rfl
  · dsimp only [carryOut]
    split
    · rfl
    · rfl

lemma after_buffer {s₁ s₂ : IoState}
    (h : ∀ a, InPartition p (a / sectorSize) → s₁.disks d.device a = s₂.disks d.device a) :
    (after p d r s₁).irp.buffer = (after p d r s₂).irp.buffer := by
  rw [after, after]
  cases hcheck : checkRequest p d r with
  | error status => rfl
  | ok u =>
    have hr := checkRequest_ok hcheck
    dsimp only [carryOut]
    split
    · rfl
    · funext x
      dsimp only [copyTo]
      split
      · next hx =>
        apply h
        refine inPartition_of_span hr ⟨Nat.le_add_right .., ?_⟩
        omega
      · rfl

lemma Volume.request_runs (v : Volume) (hidle : Idle s) :
    Runs (fun _ => True) (ioReadWriteDevice v.device r) s fun res s' =>
      res = answer (checkRequest v.partition v.controller r) (r.length / sectorSize) ∧
        Alike (after v.partition v.controller r s) s' :=
  ioReadWriteDevice_volume v.inDisk (hidle _)

lemma requests_runs (v : Volume) (rs : List Request) (hidle : Idle s) :
    Runs (fun _ => True) (requests v.device rs) s fun res s' => res = .ok () ∧ Idle s' ∧
      ∀ device a, ¬ v.Has device (a / sectorSize) → s'.disks device a = s.disks device a := by
  induction rs generalizing s with
  | nil => exact ⟨rfl, hidle, fun _ _ _ => rfl⟩
  | cons r rs ih =>
    refine .bind (.attempt (.mono (v.request_runs hidle) ?_))
    rintro res s' ⟨-, halike⟩
    have hidle' : Idle s' := by
      intro device
      rw [halike.inProgress, after_inProgress]
      exact hidle device
    refine (ih hidle').mono ?_
    rintro res' s'' ⟨hres, hidle'', hdisks⟩
    refine ⟨hres, hidle'', fun device a hn => ?_⟩
    rw [hdisks device a hn, halike.disks]
    exact after_disks hn

lemma seen_congr (v : Volume) {s' : IoState} (hidle : Idle s) (hidle' : Idle s')
    (h : ∀ device a, v.Has device (a / sectorSize) → s'.disks device a = s.disks device a) :
    seen v.device r s' = seen v.device r s := by
  obtain ⟨res, t, hrun, hres, halike⟩ := (v.request_runs (r := r) hidle).returns
  obtain ⟨res', t', hrun', hres', halike'⟩ := (v.request_runs (r := r) hidle').returns
  rw [seen, seen, hrun, hrun']
  dsimp only
  rw [hres, hres', halike.buffer, halike'.buffer, after_buffer fun a ha => h _ a ⟨rfl, ha⟩]

/-- A request to a volume reads and modifies sectors of its partition only. So requests to a volume
    that has no sector in common with it do not change what is seen of its own requests. -/
theorem volumes_isolated (v : Volume) (s : IoState) (hidle : Idle s) :
    (∀ r, ∃ res s' new, ioReadWriteDevice v.device r s = .ok (res, s') ∧ s'.transfers = new ++ s.transfers ∧
      (∀ t ∈ new, ∀ x, t.lba ≤ x → x < t.lba + t.count → v.Has t.device x) ∧
      ∀ device a, s'.disks device a ≠ s.disks device a → v.Has device (a / sectorSize)) ∧
    ∀ w : Volume, v.Disjoint w → ∀ rs r, ∃ s', requests w.device rs s = .ok (.ok (), s') ∧
      seen v.device r s' = seen v.device r s := by
  constructor
  · intro r
    obtain ⟨res, s', hrun, -, halike⟩ := (v.request_runs (r := r) hidle).returns
    obtain ⟨new, hnew, hin⟩ := after_transfers (p := v.partition) (d := v.controller) (r := r) (s := s)
    refine ⟨res, s', new, hrun, halike.transfers.trans hnew, ?_, ?_⟩
    · intro t ht x hle hlt
      exact ⟨(hin t ht).1, (hin t ht).2 x hle hlt⟩
    · intro device a hne
      by_contra hn
      rw [halike.disks] at hne
      exact hne (after_disks hn)
  · intro w hvw rs r
    obtain ⟨_, s', hrun, rfl, hidle', hdisks⟩ := (requests_runs w rs hidle).returns
    refine ⟨s', hrun, seen_congr v hidle hidle' ?_⟩
    intro device a hv
    exact hdisks device a fun hw => hvw device _ ⟨hv, hw⟩

lemma fullDisk_found {q : Disk.PartitionInformation}
    (h : returns (Disk.diskRetrievePartitionsFromDisk 3 (Disk.diskOf Disk.fullDisk)) (fun r =>
      match r with
      | .ok layout => decide (q ∈ layout.partitions)
      | .error _ => false) = true) :
    ∃ fuel disk layout, Disk.diskRetrievePartitionsFromDisk fuel disk = .ok (.ok layout) ∧
      q ∈ layout.partitions := by
  obtain ⟨r, hr, hq⟩ := returns_iff.mp h
  cases r with
  | error status => cases hq
  | ok layout => exact ⟨3, _, layout, hr, of_decide_eq_true hq⟩

def firstVolume : Volume := ⟨⟨0, true, 100⟩, ⟨10, 5, 0xB, true⟩, fullDisk_found (by decide)⟩

def secondVolume : Volume := ⟨⟨0, true, 100⟩, ⟨20, 5, 0xB, false⟩, fullDisk_found (by decide)⟩

def lastSector (write : Bool) : Request := ⟨write, 512, 2048, fun _ => 0, false, none⟩

def atRest : IoState where
  disks _ := fun x => UInt8.ofNat x
  taskFile _ := ⟨⟨0, 0⟩, ⟨0, 0⟩, ⟨0, 0⟩, ⟨0, 0⟩⟩
  inProgress _ := false
  transfers := []
  irp := (lastSector true).irp 3

/-- Writing to one volume, and reading from the other. -/
theorem volumes_isolated_fullDisk :
    checkRequest secondVolume.partition secondVolume.controller (lastSector true) = .ok () ∧
    checkRequest firstVolume.partition firstVolume.controller (lastSector false) = .ok () ∧
    ∃ s', requests secondVolume.device [lastSector true] atRest = .ok (.ok (), s') ∧
      seen firstVolume.device (lastSector false) s' = seen firstVolume.device (lastSector false) atRest := by
  refine ⟨rfl, rfl, (volumes_isolated firstVolume atRest fun _ => rfl).2 secondVolume ?_ _ _⟩
  rintro device x ⟨⟨-, -, hlt⟩, -, hle, -⟩
  have : x < 15 := hlt
  have : 20 ≤ x := hle
  omega

end HAL9000.Storage
