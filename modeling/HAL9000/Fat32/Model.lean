import HAL9000.Lib.Prog
import HAL9000.Lib.ByteMem
import HAL9000.CommonLib.String

/-!
# FAT32: clusters and directory entries

Port of `FAT32/src/fat_utils.c` over the structures of `fat_structures.h`.

A volume is the bytes of its device. Functions that read or write it are programs over `Volume`, whose
status is the one the C function returns and whose value is what it stores in its `OUT` parameters. A
transfer fails where the device says so, and otherwise it transfers all bytes. Memory allocations
succeed.

Sector numbers are those of the volume, and their byte offsets do not reach `2 ^ 64`. The divisors are
those of a mounted volume: where a division by zero can happen is part of `fatInitVolume`.
-/

namespace HAL9000.Fat32
open Lib

/-! ### Constants -/

def attrVolumeId : Nat := 0x08

def attrNormal : Nat := 0x00

def attrDirectory : Nat := 0x10

def attrLongName : Nat := 0x0F

def attrLongNameMask : Nat := 0x3F

def freeEntry : UInt8 := 0xE5

def freeAll : UInt8 := 0x00

def freeJapEntry : UInt8 := 0x05

/-- Size of a directory entry (C `sizeof(DIR_ENTRY)`). -/
def sizeofDirEntry : Nat := 32

/-- Size of a table entry (C `sizeof(FAT32_ENTRY)`). -/
def sizeofFatEntry : Nat := 4

/-- Size of the information sector (C `sizeof(FSINFO)`). -/
def sizeofFsInfo : Nat := 512

/-- The bits of a table entry that hold a cluster (C `FAT32_CLUSTER_MASK`). -/
def clusterMask : Nat := 0x0FFFFFFF

/-- End of a chain (C `FAT32_EOC_MARK`). -/
def eocMark : Nat := 0x0FFFFFFF

/-- A cluster that is not to be used (C `FAT32_BAD_CLUSTER`). -/
def badCluster : Nat := 0x0FFFFFF7

/-- The cluster marks the end of a chain (C `FAT32_EOC`). -/
def isEoc (cluster : Nat) : Bool := cluster > badCluster

/-- A field of the information sector that is not known (C `FAT32_UNKNOWN`). -/
def unknown : Nat := 0xFFFFFFFF

def shortNameChars : Nat := 11

def shortNameName : Nat := 8

def shortNameExt : Nat := 3

def shortNameMaxLength : Nat := 16

def longNameTotalChars : Nat := 13

def longNameMaxChars : Nat := 255

def longNameOrdEndMask : Nat := 0x40

/-! ### The volume -/

/-- The device of a volume, as far as the driver sees it: what it wants its transfers aligned to, and
    which transfers, given by their offset and length, fail (C `DEVICE_OBJECT`). -/
structure VolumeDevice where
  deviceAlignment : Nat
  readFailure : Nat → Nat → Option Status
  writeFailure : Nat → Nat → Option Status

/-- A mounted volume (C `FAT_DATA`). -/
structure FatData where
  volumeDevice : VolumeDevice
  countOfClusters : Nat
  rootDirectoryStartSector : Nat
  reservedSectors : Nat
  firstDataSector : Nat
  sectorsPerCluster : Nat
  bytesPerSector : Nat
  entriesPerSector : Nat
  allocationSize : Nat

/-- The bytes of the device, and how many reads have been made. -/
structure Volume where
  disk : Mem
  reads : Nat

abbrev Fs := Prog Volume Status

/-- Read from the device; only the bytes asked for are in the buffer (C `IoReadDeviceEx`). -/
def ioReadDevice (d : VolumeDevice) (length offset : Nat) : Fs Mem := fun v =>
  match d.readFailure offset length with
  | some status => .ok (.error status, { v with reads := v.reads + 1 })
  | none => .ok (.ok fun i => v.disk (offset + i), { v with reads := v.reads + 1 })

/-- Write a buffer to the device (C `IoWriteDeviceEx`). -/
def ioWriteDevice (d : VolumeDevice) (buffer : Mem) (length offset : Nat) : Fs Unit := fun v =>
  match d.writeFailure offset length with
  | some status => .ok (.error status, v)
  | none => .ok (.ok (), { v with disk := copyTo v.disk offset length buffer })

variable (fd : FatData)

/-! ### Clusters and sectors -/

/-- The first sector of a cluster (C `FirstSectorOfCluster`). -/
def firstSectorOfCluster (cluster : Nat) : Except Status Nat :=
  if cluster > wadd 32 fd.countOfClusters 1 ∨ cluster < 2 then .error .deviceClusterInvalid
  else .ok ((cluster - 2) * fd.sectorsPerCluster + fd.firstDataSector)

/-- The cluster of a sector. A sector before the first data sector wraps around (C `ClusterOfSector`). -/
def clusterOfSector (sector : Nat) : Except Status Nat :=
  let cluster := wadd 64 (wsub 64 sector fd.firstDataSector / fd.sectorsPerCluster) 2
  if cluster > wadd 32 fd.countOfClusters 1 ∨ cluster < 2 then .error .deviceClusterInvalid
  else .ok cluster

/-- The sector of the table that holds the entry of a cluster. -/
def fatSector (cluster : Nat) : Nat := fd.reservedSectors + cluster * sizeofFatEntry / fd.bytesPerSector

def fatEntriesPerSector : Nat := fd.bytesPerSector / sizeofFatEntry

def fatEntryAt (entries : Mem) (index : Nat) : Nat := readLE entries (sizeofFatEntry * index) 4

/-- Set an entry of a sector of the table. The bits that hold no cluster are kept. -/
def setFatEntryAt (entries : Mem) (index value : Nat) : Mem := writeLE entries (sizeofFatEntry * index) 4
    (fatEntryAt entries index &&& wnot 32 clusterMask ||| value)

/-- The cluster behind another one. A chain that runs into a free cluster is ended there
    (C `NextClusterInChain`). -/
def nextClusterInChain (currentCluster : Nat) : Fs Nat := do
  let indexInSector := currentCluster % fatEntriesPerSector fd
  let offset := fatSector fd currentCluster * fd.bytesPerSector
  let entries ← ioReadDevice fd.volumeDevice fd.bytesPerSector offset
  let nextCluster := fatEntryAt entries indexInSector &&& clusterMask
  if nextCluster = 0 then
    ioWriteDevice fd.volumeDevice (setFatEntryAt entries indexInSector eocMark) fd.bytesPerSector
      offset
    pure eocMark
  else if nextCluster = badCluster then pure eocMark
  else pure nextCluster

/-! ### Free clusters -/

/-- The loop over the entries of a sector of the table: the first free one of the next `n`. -/
def freeInSector (entries : Mem) : Nat → Nat → Option Nat
  | 0, _ => none
  | n + 1, index =>
    if fatEntryAt entries index &&& clusterMask = 0 then some index
    else freeInSector entries n (index + 1)

/-- The loop over the sectors of the table, with `n` sectors to go. The first sector is searched from
    an entry on. -/
def freeInFat (entriesPerFat : Nat) (markReserved : Bool) : Nat → Nat → Nat → Fs Nat
  | 0, _, _ => pure 0
  | n + 1, currentSector, indexInSector => do
    let offset := currentSector * fd.bytesPerSector
    let entries ← ioReadDevice fd.volumeDevice fd.bytesPerSector offset
    match freeInSector entries (fatEntriesPerSector fd - indexInSector) indexInSector with
    | none => freeInFat entriesPerFat markReserved n (currentSector + 1) 0
    | some index =>
      Prog.when markReserved
        (ioWriteDevice fd.volumeDevice (setFatEntryAt entries index eocMark) fd.bytesPerSector offset)
      let clusterIndex := (currentSector - fd.reservedSectors) * fatEntriesPerSector fd + index
      Prog.assert (2 ≤ clusterIndex ∧ clusterIndex < entriesPerFat)
      Prog.assert (unknown ≠ clusterIndex)
      pure clusterIndex

/-- The first free cluster from a cluster on, or 0 (C `_FirstFreeCluster`). -/
def firstFreeCluster (firstCheckedCluster : Nat) (markReserved : Bool) : Fs Nat :=
  let entriesPerFat := wadd 32 fd.countOfClusters 2
  let sectorsPerFat := entriesPerFat * sizeofFatEntry / fd.bytesPerSector
  if entriesPerFat ≤ firstCheckedCluster then pure 0
  else
    let firstCheckedCluster := if unknown = firstCheckedCluster then 2 else firstCheckedCluster
    let currentSector := fatSector fd firstCheckedCluster
    -- the loop goes to a sector of the table, but counts the sectors of the volume
    if currentSector < sectorsPerFat then
      freeInFat fd entriesPerFat markReserved (sectorsPerFat - currentSector) currentSector
        (firstCheckedCluster % fatEntriesPerSector fd)
    else Prog.fail .unsuccessful

/-! ### The information sector -/

/-- Number of free clusters (C `FSI_Free_Count`). -/
def fsiFreeCount (fsInfo : Mem) : Nat := readLE fsInfo 488 4

/-- Where to look for a free cluster (C `FSI_Nxt_Free`). -/
def fsiNxtFree (fsInfo : Mem) : Nat := readLE fsInfo 492 4

def setFsiFreeCount (fsInfo : Mem) (n : Nat) : Mem := writeLE fsInfo 488 4 n

def setFsiNxtFree (fsInfo : Mem) (n : Nat) : Mem := writeLE fsInfo 492 4 n

/-- The loop that counts the free clusters behind one of them. It ends at the first failure. -/
def countFreeClusters : Nat → Nat → Nat → Fs Nat
  | 0, _, _ => Prog.fault .fuel
  | fuel + 1, freeCluster, count => do
    match ← (firstFreeCluster fd (freeCluster + 1) false).attempt with
    | .error _ => pure count
    | .ok freeCluster =>
      if freeCluster = 0 then pure count else countFreeClusters fuel freeCluster (wadd 32 count 1)

def linkCluster (lastClusterFromChain reservedCluster : Nat) : Fs Unit := do
  let offset := fatSector fd lastClusterFromChain * fd.bytesPerSector
  let entries ← ioReadDevice fd.volumeDevice fd.bytesPerSector offset
  ioWriteDevice fd.volumeDevice
    (setFatEntryAt entries (lastClusterFromChain % fatEntriesPerSector fd) reservedCluster)
    fd.bytesPerSector offset

/-- The guarded block of `_AddNewClusterToChain`: the cluster and the information sector in memory, at
    whatever point it is left. -/
def addNewClusterGuarded (lastClusterFromChain : Nat) : Fs (Nat × Mem) := do
  match ← (ioReadDevice fd.volumeDevice sizeofFsInfo (1 * fd.bytesPerSector)).attempt with
  | .error _ => pure (0, fun _ => 0)
  | .ok fsInfo => do
    Prog.assert (sizeofFsInfo = fd.bytesPerSector)
    if 0 = fsiFreeCount fsInfo then pure (0, setFsiNxtFree fsInfo unknown)
    else
      match ← (firstFreeCluster fd (fsiNxtFree fsInfo) true).attempt with
      | .error _ => pure (0, fsInfo)
      | .ok reservedCluster =>
        if 0 = reservedCluster then do
          Prog.assert (unknown = fsiFreeCount fsInfo)
          pure (0, setFsiNxtFree (setFsiFreeCount fsInfo 0) unknown)
        else
          match ← (linkCluster fd lastClusterFromChain reservedCluster).attempt with
          | .error _ => pure (reservedCluster, fsInfo)
          | .ok _ =>
            let info := setFsiNxtFree fsInfo reservedCluster
            if unknown = fsiFreeCount fsInfo then do
              let count ← countFreeClusters fd (fd.countOfClusters + 3) reservedCluster 0
              pure (reservedCluster, setFsiFreeCount info count)
            else pure (reservedCluster, setFsiFreeCount info (wsub 32 (fsiFreeCount fsInfo) 1))

/-- Reserve a free cluster and link it to the end of a chain. The status is the one of the last write,
    whatever has gone wrong before (C `_AddNewClusterToChain`). -/
def addNewClusterToChain (lastClusterFromChain : Nat) : Fs Nat := do
  Prog.assert (isEoc lastClusterFromChain = false)
  let (reservedCluster, fsInfo) ← addNewClusterGuarded fd lastClusterFromChain
  let status ← (ioWriteDevice fd.volumeDevice fsInfo sizeofFsInfo (1 * fd.bytesPerSector)).attempt
  Prog.assert (sizeofFsInfo = fd.bytesPerSector)
  match status with
  | .error status => Prog.fail status
  | .ok _ => pure reservedCluster

/-- The first sector of the cluster behind that of a sector, or 0 at the end of the chain
    (C `NextSectorInClusterChain`). -/
def nextSectorInClusterChain (currentSector : Nat) (extendChain : Bool) : Fs Nat := do
  let currentCluster ← Prog.ofExcept (clusterOfSector fd currentSector)
  let nextCluster ← nextClusterInChain fd currentCluster
  if isEoc nextCluster then
    if extendChain then
      let newCluster ← addNewClusterToChain fd currentCluster
      Prog.ofExcept (firstSectorOfCluster fd newCluster)
    else pure 0
  else Prog.ofExcept (firstSectorOfCluster fd nextCluster)

/-! ### Directory entries

A directory entry is 32 bytes of a buffer, given by its address. -/

/-- Attributes (C `DIR_Attr`, `LDIR_Attr`). -/
def dirAttr (entries : Mem) (a : Nat) : Nat := (entries (a + 0xB)).toNat

/-- First cluster (C `WORDS_TO_DWORD(DIR_FstClusHI, DIR_FstClusLO)`). -/
def dirCluster (entries : Mem) (a : Nat) : Nat := readLE entries (a + 0x14) 2 * 2 ^ 16 + readLE entries (a + 0x1A) 2

def setDirCluster (entries : Mem) (a cluster : Nat) : Mem :=
  writeLE (writeLE entries (a + 0x14) 2 (cluster / 2 ^ 16)) (a + 0x1A) 2 (cluster % 2 ^ 16)

/-- Size of the file (C `DIR_FileSize`). -/
def dirFileSize (entries : Mem) (a : Nat) : Nat := readLE entries (a + 0x1C) 4

def isFree (entries : Mem) (a : Nat) : Bool := entries a = freeEntry ∨ entries a = freeJapEntry

def isLong (entries : Mem) (a : Nat) : Bool := dirAttr entries a &&& attrLongNameMask = attrLongName

def bytesPerCluster : Nat := fd.bytesPerSector * fd.sectorsPerCluster

def entriesPerCluster : Nat := fd.entriesPerSector * fd.sectorsPerCluster

/-- The loop of `GetDirEntryFromSector`, with `n` entries to go. -/
def findDirEntry (entries : Mem) (cluster : Nat) : Nat → Nat → Option Nat
  | 0, _ => none
  | n + 1, index =>
    if isFree entries (sizeofDirEntry * index) || isLong entries (sizeofDirEntry * index) then
      findDirEntry entries cluster n (index + 1)
    else if cluster = dirCluster entries (sizeofDirEntry * index) then some index
    else findDirEntry entries cluster n (index + 1)

/-- The entry of a cluster of a directory that belongs to a first sector, with its index
    (C `GetDirEntryFromSector`). -/
def getDirEntryFromSector (entrySector dirFirstSector : Nat) : Fs (Nat × Mem) := do
  let entries ← ioReadDevice fd.volumeDevice (bytesPerCluster fd) (entrySector * fd.bytesPerSector)
  let cluster ← Prog.ofExcept (clusterOfSector fd dirFirstSector)
  match findDirEntry entries cluster (bytesPerCluster fd / sizeofDirEntry) 0 with
  | some index => pure (index, fun i => entries (sizeofDirEntry * index + i))
  | none => Prog.fail .elementNotFound

/-- Write an entry back (C `WriteDirEntryToSector`). -/
def writeDirEntryToSector (entrySector entryIndex : Nat) (dirEntry : Mem) : Fs Unit := do
  let offset := entrySector * fd.bytesPerSector
  let entries ← ioReadDevice fd.volumeDevice (bytesPerCluster fd) offset
  ioWriteDevice fd.volumeDevice
    (copyTo entries (sizeofDirEntry * entryIndex) sizeofDirEntry dirEntry) (bytesPerCluster fd) offset

/-! ### Dates -/

/-- A point in time (C `DATETIME`). -/
structure DateTime where
  day : Nat
  month : Nat
  year : Nat
  second : Nat
  minute : Nat
  hour : Nat
deriving DecidableEq, Repr

/-- The date as it is stored, with its fields cut to their bits (C `_ConvertDateToFatDate`). -/
def convertDateToFatDate (t : DateTime) : Nat :=
  t.day % 2 ^ 5 + 2 ^ 5 * (t.month % 2 ^ 4) + 2 ^ 9 * (wsub 16 t.year 1980 % 2 ^ 7)

/-- The time as it is stored (C `_ConvertTimeToFatTime`). -/
def convertTimeToFatTime (t : DateTime) : Nat :=
  t.second / 2 % 2 ^ 5 + 2 ^ 5 * (t.minute % 2 ^ 6) + 2 ^ 11 * (t.hour % 2 ^ 5)

/-- A stored date and time (C `ConvertFatDateTimeToDateTime`). -/
def convertFatDateTimeToDateTime (fatDate fatTime : Nat) : Except Status DateTime :=
  let t : DateTime :=
    { day := fatDate % 2 ^ 5
      month := fatDate / 2 ^ 5 % 2 ^ 4
      year := fatDate / 2 ^ 9 % 2 ^ 7 + 1980
      second := fatTime % 2 ^ 5 * 2
      minute := fatTime / 2 ^ 5 % 2 ^ 6
      hour := fatTime / 2 ^ 11 % 2 ^ 5 }
  if t.day < 1 ∨ t.day > 31 ∨ t.month < 1 ∨ t.month > 12 then .error .timeInvalid
  else if fatTime % 2 ^ 5 > 29 ∨ t.minute > 59 ∨ t.hour > 23 then .error .timeInvalid
  else .ok t

/-! ### Names -/

/-- The loop of `ConvertFatNameToName` over the name: where the spaces at its end start. -/
def lastSpaceIndex (name : Mem) : Nat := (List.range shortNameName).foldl
    (fun last i => if name i = 32 then (if last > i then i else last) else shortNameName) shortNameName

/-- A short name, with the length it has (C `ConvertFatNameToName`). -/
def convertFatNameToName (fatName : Mem) (bufferSize : Nat) : Except Status (List UInt8) × Nat :=
  let normalName := stringOf (lastSpaceIndex fatName) fatName
  let ext := ((List.range shortNameExt).map fun i => fatName (i + shortNameName)).takeWhile (· ≠ 32)
  let nameLen := normalName.length + ext.length + if 0 ≠ ext.length then 1 else 0
  if nameLen ≥ bufferSize then (.error .bufferTooSmall, nameLen)
  else if 0 = ext.length then (.ok normalName, nameLen)
  else (.ok (normalName ++ 46 :: ext.takeWhile (· ≠ 0)), nameLen)

/-- The characters in an entry of a long name: every other byte of `LDIR_Name1`, `LDIR_Name2` and
    `LDIR_Name3`. -/
def longChars (entries : Mem) (a : Nat) : List UInt8 :=
  [1, 3, 5, 7, 9, 14, 16, 18, 20, 22, 24, 28, 30].map fun i => entries (a + i)

/-- The loops of `WritePartialLongFatNameToName`, with the status, the index behind the last character
    and the buffer. -/
def writeLongChars (bufferSize : Nat) : List UInt8 → Nat → Mem → Status × Nat × Mem
  | [], index, buffer => (.success, index, buffer)
  | c :: cs, index, buffer =>
    if c = 0 then (.success, index, buffer)
    else if index ≥ wsub 32 bufferSize 1 then (.bufferTooSmall, index, buffer)
    else writeLongChars bufferSize cs (index + 1) (Function.update buffer index c)

/-- Put the characters of an entry in their place in a long name. The zero byte behind the name is
    written unchecked; outside of the buffer it destroys something else
    (C `WritePartialLongFatNameToName`). -/
def writePartialLongFatNameToName (entries : Mem) (a bufferSize : Nat) (buffer : Mem) : Exec (Status × Mem) :=
  let ord := (entries a).toNat
  let entryOrdinal := wsub 32 (ord &&& wnot 32 longNameOrdEndMask) 1
  let index := longNameTotalChars * entryOrdinal % 2 ^ 32
  match writeLongChars bufferSize (longChars entries a) index buffer with
  | (.success, index, buffer) =>
    if isBooleanFlagOn ord longNameOrdEndMask then
      if index < bufferSize then .ok (.success, Function.update buffer index 0) else .error .wild
    else .ok (.success, buffer)
  | (status, _, buffer) => .ok (status, buffer)

end HAL9000.Fat32
