import HAL9000.Fat32.Operations

/-!
# FAT32: the geometry of a mounted volume

`FatInitVolume` takes the fields of the boot sector as they are and looks at the number of clusters
only. `fatInitVolume_signed` says which volumes it accepts. The geometry it derives is consistent just if
the sector size is not zero and the reserved sectors and the tables, as they are added up in 32 bits,
fit on the volume.
-/

namespace HAL9000.Fat32
open Lib

def Bpb.countOfClusters (b : Bpb) : Nat := wsub 32 b.totalSectors b.firstDataSector / b.secPerClus

def Bpb.fatData (b : Bpb) (device : VolumeDevice) : FatData where
  volumeDevice := device
  countOfClusters := b.countOfClusters
  rootDirectoryStartSector := (b.rootClus - 2) * b.secPerClus + b.firstDataSector
  reservedSectors := b.rsvdSecCnt
  firstDataSector := b.firstDataSector
  sectorsPerCluster := b.secPerClus
  bytesPerSector := b.bytsPerSec
  entriesPerSector := b.bytsPerSec / sizeofDirEntry
  allocationSize := b.secPerClus * b.bytsPerSec % 2 ^ 32

def Signed (device : VolumeDevice) (b : Bpb) : Prop := device.readFailure 0 512 = none ∧ b.signature = 0xAA55

structure Accepted (device : VolumeDevice) (b : Bpb) : Prop where
  signed : Signed device b
  secPerClus : b.secPerClus ≠ 0
  fat32 : 65525 ≤ b.countOfClusters
  rootClus : 2 ≤ b.rootClus ∧ b.rootClus ≤ wadd 32 b.countOfClusters 1
  alignment : device.deviceAlignment ≤ b.secPerClus * b.bytsPerSec % 2 ^ 32

/-- The geometry is consistent: nothing is zero that is divided by, the data region ends on the volume,
    and the root directory is in it. -/
structure Consistent (b : Bpb) (fd : FatData) : Prop where
  bytesPerSector : fd.bytesPerSector ≠ 0
  sectorsPerCluster : fd.sectorsPerCluster ≠ 0
  dataRegion : fd.firstDataSector + fd.countOfClusters * fd.sectorsPerCluster ≤ b.totalSectors
  root : fd.firstDataSector ≤ fd.rootDirectoryStartSector ∧
    fd.rootDirectoryStartSector <
      fd.firstDataSector + fd.countOfClusters * fd.sectorsPerCluster

variable {device : VolumeDevice} {v v' : Volume} {fd : FatData} {b : Bpb}

lemma ioReadDevice_ok {length offset : Nat} (h : device.readFailure offset length = none) :
    ioReadDevice device length offset v =
      .ok (.ok fun i => v.disk (offset + i), { v with reads := v.reads + 1 }) := by
  simp only [ioReadDevice, h]

lemma bpbOf_lt (sector : Mem) : (bpbOf sector).secPerClus < 256 ∧ (bpbOf sector).totalSectors < 2 ^ 32 ∧
    (bpbOf sector).firstDataSector < 2 ^ 32 := by
  have h16 := readLE_lt sector 19 2
  have h32 := readLE_lt sector 32 4
  refine ⟨readLE_lt sector 13 1, ?_, wadd_lt ..⟩
  unfold Bpb.totalSectors bpbOf
  simp only
  split
  · omega
  · omega

lemma fatInitVolume_signed (h : Signed device (bpbOf v.disk)) :
    (fatInitVolume device v = .error .divide ↔ (bpbOf v.disk).secPerClus = 0) ∧
      ∀ fd v', fatInitVolume device v = .ok (.ok fd, v') ↔ Accepted device (bpbOf v.disk) ∧
        fd = (bpbOf v.disk).fatData device ∧ v' = { v with reads := v.reads + 1 } := by
  obtain ⟨hread, hsig⟩ := h
  have hbuf : (fun i => v.disk (0 + i)) = v.disk := by
    funext i
    rw [Nat.zero_add]
  rw [fatInitVolume, Prog.bind_of_ok (ioReadDevice_ok hread), hbuf]
  generalize hb : bpbOf v.disk = b at hsig ⊢
  rw [if_neg (not_not.mpr hsig)]
  by_cases hspc : b.secPerClus = 0
  · simp only [if_pos hspc]
    exact ⟨iff_of_true rfl hspc, fun _ _ => iff_of_false nofun fun h => h.1.secPerClus hspc⟩
  simp only [if_neg hspc]
  by_cases hcount : wsub 32 b.totalSectors b.firstDataSector / b.secPerClus < 65525
  · simp only [if_pos hcount]
    exact ⟨iff_of_false nofun hspc, fun _ _ => iff_of_false nofun fun h => absurd h.1.fat32 (Nat.not_le.mpr hcount)⟩
  simp only [if_neg hcount]
  simp only [firstSectorOfCluster]
  by_cases hroot : b.rootClus >
      wadd 32 (wsub 32 b.totalSectors b.firstDataSector / b.secPerClus) 1 ∨ b.rootClus < 2
  · simp only [if_pos hroot]
    refine ⟨iff_of_false nofun hspc, fun _ _ => iff_of_false nofun fun h => ?_⟩
    have := h.1.rootClus
    unfold Bpb.countOfClusters at this
    omega
  simp only [if_neg hroot, Prog.ofExcept_ok_bind]
  by_cases hal : b.secPerClus * b.bytsPerSec % 2 ^ 32 ≥ device.deviceAlignment
  · rw [Prog.assert_pos hal]
    refine ⟨iff_of_false nofun hspc, fun _ _ => ?_⟩
    constructor
    · intro h
      cases h
      exact ⟨⟨⟨hread, hsig⟩, hspc, Nat.not_lt.mp hcount,
        ⟨Nat.not_lt.mp fun h => hroot (.inr h), Nat.not_lt.mp fun h => hroot (.inl h)⟩, hal⟩, rfl, rfl⟩
    · rintro ⟨_, rfl, rfl⟩
      rfl
  · rw [Prog.assert_neg hal]
    exact ⟨iff_of_false nofun hspc, fun _ _ => iff_of_false nofun fun h => hal h.1.alignment⟩

lemma fatInitVolume_unsigned (h : ¬ Signed device (bpbOf v.disk)) :
    ∃ status v', fatInitVolume device v = .ok (.error status, v') := by
  cases hread : device.readFailure 0 512 with
  | some status => exact ⟨status, _, Prog.bind_of_fail (by simp only [ioReadDevice, hread]; rfl)⟩
  | none =>
    have hbuf : (fun i => v.disk (0 + i)) = v.disk := by
      funext i
      rw [Nat.zero_add]
    have hsig : (bpbOf v.disk).signature ≠ 0xAA55 := fun hsig => h ⟨hread, hsig⟩
    rw [fatInitVolume, Prog.bind_of_ok (ioReadDevice_ok hread), hbuf]
    simp only [if_pos hsig]
    exact ⟨_, _, rfl⟩

lemma consistent_iff (hlt : b.secPerClus < 256 ∧ b.totalSectors < 2 ^ 32 ∧ b.firstDataSector < 2 ^ 32)
    (ha : Accepted device b) :
    Consistent b (b.fatData device) ↔ b.bytsPerSec ≠ 0 ∧ b.firstDataSector ≤ b.totalSectors := by
  obtain ⟨h256, htot, hfirst⟩ := hlt
  have hdiv := Nat.div_add_mod (wsub 32 b.totalSectors b.firstDataSector) b.secPerClus
  have hmod := Nat.mod_lt (wsub 32 b.totalSectors b.firstDataSector) (Nat.pos_of_ne_zero ha.secPerClus)
  have hcount : b.countOfClusters * b.secPerClus + wsub 32 b.totalSectors b.firstDataSector %
      b.secPerClus = wsub 32 b.totalSectors b.firstDataSector := by
    rw [Bpb.countOfClusters, Nat.mul_comm]
    exact hdiv
  constructor
  · intro h
    refine ⟨h.bytesPerSector, ?_⟩
    by_contra hlt
    -- the difference wraps around, and the data region ends far behind the volume
    have hw : wsub 32 b.totalSectors b.firstDataSector = b.totalSectors + 2 ^ 32 - b.firstDataSector := by
      unfold wsub
      omega
    have := h.dataRegion
    change b.firstDataSector + b.countOfClusters * b.secPerClus ≤ b.totalSectors at this
    omega
  · rintro ⟨hbytes, hle⟩
    rw [wsub_eq htot hle] at hcount
    refine ⟨hbytes, ha.secPerClus, ?_, Nat.le_add_left _ _, ?_⟩
    · change b.firstDataSector + b.countOfClusters * b.secPerClus ≤ b.totalSectors
      omega
    · change (b.rootClus - 2) * b.secPerClus + b.firstDataSector <
        b.firstDataSector + b.countOfClusters * b.secPerClus
      have hroot := ha.rootClus
      have hle : wadd 32 b.countOfClusters 1 ≤ b.countOfClusters + 1 := Nat.mod_le _ _
      have := Nat.mul_lt_mul_of_pos_right (show b.rootClus - 2 < b.countOfClusters by omega)
        (Nat.pos_of_ne_zero ha.secPerClus)
      omega

/-- Mounting a volume divides by zero nowhere, and the geometry of a volume it accepts is
    consistent. -/
def InitConsistent (device : VolumeDevice) (v : Volume) : Prop := fatInitVolume device v ≠ .error .divide ∧
    ∀ fd v', fatInitVolume device v = .ok (.ok fd, v') → Consistent (bpbOf v.disk) fd

/-- For every boot sector and every device: mounting is safe just if a signed boot sector has sectors
    in its clusters, and one that passes all tests has bytes in its sectors and its tables on the
    volume. -/
theorem init_consistent_iff (device : VolumeDevice) (v : Volume) : InitConsistent device v ↔
      (Signed device (bpbOf v.disk) → (bpbOf v.disk).secPerClus ≠ 0) ∧
        (Accepted device (bpbOf v.disk) → (bpbOf v.disk).bytsPerSec ≠ 0 ∧
          (bpbOf v.disk).firstDataSector ≤ (bpbOf v.disk).totalSectors) := by
  by_cases hs : Signed device (bpbOf v.disk)
  · constructor
    · rintro ⟨hdiv, hcons⟩
      refine ⟨fun _ h0 => hdiv ((fatInitVolume_signed hs).1.mpr h0), fun ha => ?_⟩
      exact (consistent_iff (bpbOf_lt v.disk) ha).mp
        (hcons _ _ (((fatInitVolume_signed hs).2 _ _).mpr ⟨ha, rfl, rfl⟩))
    · rintro ⟨hspc, hcond⟩
      constructor
      · intro h
        exact hspc hs ((fatInitVolume_signed hs).1.mp h)
      · intro fd v' h
        obtain ⟨ha, rfl, _⟩ := ((fatInitVolume_signed hs).2 _ _).mp h
        exact (consistent_iff (bpbOf_lt v.disk) ha).mpr (hcond ha)
  · obtain ⟨status, v', heq⟩ := fatInitVolume_unsigned hs
    refine iff_of_true ⟨?_, ?_⟩ ⟨fun h => absurd h hs, fun h => absurd h.signed hs⟩
    · rw [heq]
      nofun
    · rw [heq]
      nofun

def reliableDevice : VolumeDevice := ⟨512, fun _ _ => none, fun _ _ => none⟩

def bootSector (secPerClus totSec32 fatSz32 : Nat) : Mem :=
  writeLE (writeLE (writeLE (writeLE (writeLE (writeLE (writeLE (writeLE (fun _ => 0) 11 2 512)
    13 1 secPerClus) 14 2 1) 16 1 1) 32 4 totSec32) 36 4 fatSz32) 44 4 2) 510 2 0xAA55

/-- Without sectors in a cluster, mounting divides by zero. With tables that are larger than the
    volume, it accepts a data region behind the end of the volume. -/
theorem init_inconsistent : fatInitVolume reliableDevice ⟨bootSector 0 100000 100, 0⟩ = .error .divide ∧
      ∃ fd v', fatInitVolume reliableDevice ⟨bootSector 1 50 100, 0⟩ = .ok (.ok fd, v') ∧
        ¬ Consistent (bpbOf (bootSector 1 50 100)) fd := by
  have hzero : Signed reliableDevice (bpbOf (bootSector 0 100000 100)) :=
    ⟨rfl, by decide⟩
  have hacc : Accepted reliableDevice (bpbOf (bootSector 1 50 100)) :=
    ⟨⟨rfl, by decide⟩, by decide, by decide, by decide,
      by decide⟩
  refine ⟨(fatInitVolume_signed hzero).1.mpr (by decide), _, _,
    ((fatInitVolume_signed hacc.signed).2 _ _).mpr ⟨hacc, rfl, rfl⟩, fun hc => ?_⟩
  have hle := ((consistent_iff (bpbOf_lt _) hacc).mp hc).2
  exact absurd hle (by decide)

end HAL9000.Fat32
