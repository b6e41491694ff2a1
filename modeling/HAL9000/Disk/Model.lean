import HAL9000.CommonLib.Base
import HAL9000.CommonLib.Memory
import HAL9000.Lib.ByteMem

/-!
# Partitions of a disk

Port of the part of `Disk/src/disk.c` that finds the partitions of a disk: it reads the master boot
record and the chain of extended boot records. A disk gives, for each sector, its bytes or the status
of a read that has failed. Pool allocations are taken to succeed.

Sector numbers are `DWORD`s.
-/

namespace HAL9000.Disk
open Lib

abbrev Device := Nat → Except Status Mem

def mbrNoOfPartitions : Nat := 4

def mbrExtPartitionNoOfEntries : Nat := 2

/-- C `sizeof(MBR_PARTITION_ENTRY)`. -/
def mbrPartitionEntrySize : Nat := 16

def mbrStatusActive : UInt8 := 0x80

def mbrStatusInactive : UInt8 := 0x00

def mbrPartitionExtendedChs : UInt8 := 0x5

def mbrPartitionExtendedLba : UInt8 := 0xF

def mbrBootSignature : Nat := 0xAA55

/-- Where an entry starts in its boot record (C `&pMbr->Partitions[i]`). -/
def entryOffset (i : Nat) : Nat := 446 + mbrPartitionEntrySize * i

/-- The fields of a partition entry that are looked at (C `MBR_PARTITION_ENTRY`), and whether all its
    bytes are zero. -/
structure Entry where
  status : UInt8
  partitionType : UInt8
  firstSectorLba : Nat
  numberOfSectors : Nat
  unused : Bool
deriving DecidableEq

def entry (mbr : Mem) (i : Nat) : Entry where
  status := mbr (entryOffset i)
  partitionType := mbr (entryOffset i + 4)
  firstSectorLba := readLE mbr (entryOffset i + 8) 4
  numberOfSectors := readLE mbr (entryOffset i + 12) 4
  unused := mbrPartitionEntrySize ==
    clMemscan (fun k => mbr (entryOffset i + k)) mbrPartitionEntrySize 0

def bootSignature (mbr : Mem) : Nat := readLE mbr 510 2

def entries (mbr : Mem) (n : Nat) : List Entry := (List.range n).map (entry mbr)

def Entry.extended (e : Entry) : Bool :=
  e.partitionType = mbrPartitionExtendedLba ∨ e.partitionType = mbrPartitionExtendedChs

/-- The status byte is one of the two valid ones. -/
def Entry.valid (e : Entry) : Bool := e.status = mbrStatusActive ∨ e.status = mbrStatusInactive

/-- A partition (C `PARTITION_INFORMATION`). -/
structure PartitionInformation where
  offsetInDisk : Nat
  partitionSize : Nat
  partitionType : UInt8
  bootable : Bool
deriving DecidableEq, Repr

/-- What a scan returns: its status, the number of partitions, and the partitions it has noted down. -/
structure Scan where
  status : Status
  partitionCount : Nat
  partitions : List PartitionInformation
deriving DecidableEq

def Entry.partition (e : Entry) (firstPartitionLba : Nat) : PartitionInformation where
  offsetInDisk := firstPartitionLba
  partitionSize := e.numberOfSectors
  partitionType := e.partitionType
  bootable := e.status = mbrStatusActive

/-- The loop over the entries of a record. `recurse` scans the extended boot record at a sector, given
    the sector of the first one. -/
def scanEntries (recurse : Nat → Nat → Nat → List PartitionInformation → Exec Scan)
    (diskOffset : Nat) (extendedPartition : Bool) (firstExtendedPartitionLba : Nat) (fill : Bool) :
    List Entry → Nat → List PartitionInformation → Exec Scan
  | [], count, found => pure ⟨.success, count, found⟩
  | e :: es, count, found =>
    if extendedPartition && e.unused then pure ⟨.success, count, found⟩
    else if !e.valid then
      scanEntries recurse diskOffset extendedPartition firstExtendedPartitionLba fill es count found
    else if e.extended then
      -- nothing is looked for behind an extended entry
      recurse (wadd 32 e.firstSectorLba firstExtendedPartitionLba)
        (if extendedPartition then firstExtendedPartitionLba else e.firstSectorLba) count found
    else
      scanEntries recurse diskOffset extendedPartition firstExtendedPartitionLba fill es
        (wadd 32 count 1)
        (if fill then found ++ [e.partition (wadd 32 e.firstSectorLba diskOffset)] else found)

/-- Scan a boot record and those it leads to. The partitions are counted, and noted down if there is
    somewhere to note them (C `_DiskRetrievePartitionsFromDiskStartingAtOffset`). -/
def diskRetrievePartitionsFromDiskStartingAtOffset (disk : Device) (fill : Bool) :
    Nat → Nat → Bool → Nat → Nat → List PartitionInformation → Exec Scan
  | 0, _, _, _, _, _ => throw .fuel
  | fuel + 1, diskOffset, extendedPartition, firstExtendedPartitionLba, count, found => do
    ensure ((extendedPartition ^^ decide (0 = firstExtendedPartitionLba)) = true)
    match disk diskOffset with
    | .error status => pure ⟨status, count, found⟩
    | .ok mbr =>
      if bootSignature mbr ≠ mbrBootSignature then pure ⟨.diskMbrNotPresent, count, found⟩
      else
        scanEntries
          (fun offset first => diskRetrievePartitionsFromDiskStartingAtOffset disk fill fuel offset true first)
          diskOffset extendedPartition firstExtendedPartitionLba fill
          (entries mbr (if extendedPartition then mbrExtPartitionNoOfEntries else mbrNoOfPartitions))
          count found

/-- The partitions of a disk (C `DISK_LAYOUT_INFORMATION`). -/
structure DiskLayout where
  numberOfPartitions : Nat
  partitions : List PartitionInformation
deriving DecidableEq

/-- Find the partitions of a disk. The first scan counts them, the second one notes them down
    (C `_DiskRetrievePartitionsFromDisk`). -/
def diskRetrievePartitionsFromDisk (fuel : Nat) (disk : Device) : Exec (Except Status DiskLayout) := do
  let s ← diskRetrievePartitionsFromDiskStartingAtOffset disk false fuel 0 false 0 0 []
  if s.status ≠ .success then pure (.error s.status)
  else
    let s ← diskRetrievePartitionsFromDiskStartingAtOffset disk true fuel 0 false 0 0 []
    if s.status ≠ .success then pure (.error s.status)
    else pure (.ok ⟨s.partitionCount, s.partitions⟩)

end HAL9000.Disk
