import HAL9000.Fat32.Model

/-!
# FAT32: files and directories

Port of `FAT32/src/fat_operations.c`.

`FatSearchDirectoryEntry` and `FatQueryDirectory` go through a directory with the same loop, here
`scanDirectory`; they differ in what they do at a short entry. The condition of that loop is evaluated
behind the last entry of a cluster too, where the buffer is at its end. What lies there in memory is
`past`, given the number of reads made so far; where it is `none`, looking at it is a fault.
-/

namespace HAL9000.Fat32
open Lib

/-! ### Mounting a volume -/

/-- The fields of a boot sector (C `FAT_BPB`). -/
structure Bpb where
  bytsPerSec : Nat
  secPerClus : Nat
  rsvdSecCnt : Nat
  numFats : Nat
  totSec16 : Nat
  fatSz16 : Nat
  totSec32 : Nat
  fatSz32 : Nat
  rootClus : Nat
  signature : Nat

def bpbOf (sector : Mem) : Bpb where
  bytsPerSec := readLE sector 11 2
  secPerClus := readLE sector 13 1
  rsvdSecCnt := readLE sector 14 2
  numFats := readLE sector 16 1
  totSec16 := readLE sector 19 2
  fatSz16 := readLE sector 22 2
  totSec32 := readLE sector 32 4
  fatSz32 := readLE sector 36 4
  rootClus := readLE sector 44 4
  signature := readLE sector 510 2

def Bpb.fatSize (b : Bpb) : Nat := if 0 ≠ b.fatSz16 then b.fatSz16 else b.fatSz32

def Bpb.totalSectors (b : Bpb) : Nat := if 0 ≠ b.totSec16 then b.totSec16 else b.totSec32

/-- Number of sectors before the data, as it is computed in 32 bits. -/
def Bpb.firstDataSector (b : Bpb) : Nat := wadd 32 b.rsvdSecCnt (b.numFats * b.fatSize % 2 ^ 32)

/-- Find out the geometry of a volume (C `FatInitVolume`). -/
def fatInitVolume (device : VolumeDevice) : Fs FatData := do
  let sector ← ioReadDevice device 512 0
  let bpb := bpbOf sector
  if bpb.signature ≠ 0xAA55 then Prog.fail .diskMbrNotPresent
  else
    let dataSectors := wsub 32 bpb.totalSectors bpb.firstDataSector
    if bpb.secPerClus = 0 then Prog.fault .divide
    else
      let countOfClusters := dataSectors / bpb.secPerClus
      if countOfClusters < 65525 then Prog.fail .deviceFilesystemUnsupported
      else
        let fd : FatData :=
          { volumeDevice := device
            countOfClusters := countOfClusters
            rootDirectoryStartSector := 0
            reservedSectors := bpb.rsvdSecCnt
            firstDataSector := bpb.firstDataSector
            sectorsPerCluster := bpb.secPerClus
            bytesPerSector := bpb.bytsPerSec
            entriesPerSector := bpb.bytsPerSec / sizeofDirEntry
            allocationSize := bpb.secPerClus * bpb.bytsPerSec % 2 ^ 32 }
        let root ← Prog.ofExcept (firstSectorOfCluster fd bpb.rootClus)
        Prog.assert (fd.allocationSize ≥ device.deviceAlignment)
        pure { fd with rootDirectoryStartSector := root }

/-! ### Going through a directory -/

/-- What is known of a file (C `FILE_INFORMATION`). -/
structure FileInformation where
  creationTime : Option DateTime
  lastWriteTime : Option DateTime
  fileSize : Nat
  fileAttributes : Nat
deriving DecidableEq, Repr

def fileAttributeNormal : Nat := 1

def fileAttributeDirectory : Nat := 2

def fileAttributeVolume : Nat := 4

def demandDateTime (fatDate fatTime : Nat) : Exec DateTime :=
  match convertFatDateTimeToDateTime fatDate fatTime with
  | .ok t => .ok t
  | .error _ => .error .check

/-- The file that an entry is about (C `_FatPopulateFileInformationFromFatEntry`). -/
def fatPopulateFileInformationFromFatEntry (fd : FatData) (entries : Mem) (a : Nat) : Exec FileInformation :=
  let size := alignAddressUpper (dirFileSize entries a) fd.volumeDevice.deviceAlignment
  if isBooleanFlagOn (dirAttr entries a) attrVolumeId then .ok ⟨none, none, size, fileAttributeVolume⟩
  else do
    let creation ← demandDateTime (readLE entries (a + 0x10) 2) (readLE entries (a + 0xE) 2)
    let write ← demandDateTime (readLE entries (a + 0x18) 2) (readLE entries (a + 0x16) 2)
    pure ⟨some creation, some write, size,
      if isBooleanFlagOn (dirAttr entries a) attrDirectory then fileAttributeDirectory
      else fileAttributeNormal⟩

/-- What a visit of a short entry decides: to go on, or to leave with a result. -/
inductive Visit (ρ β : Type) where
  | next (acc : ρ) (longName : Mem)
  | leave (result : β)

/-- A visit: from the sector of the cluster, the buffer, the place of the entry in it, the long name and what has
    been found out so far. -/
abbrev Visitor (ρ β : Type) := Nat → Mem → Nat → Mem → ρ → Fs (Visit ρ β)

/-- The variables of the loop: the cluster that is gone through and the buffer with its entries, the
    index of the current one, the long name put together so far, and what has been found out. -/
structure Scan (ρ : Type) where
  sectorToParse : Nat
  entries : Option Mem
  index : Nat
  longName : Mem
  acc : ρ

section Loop

variable {ρ β : Type} (fd : FatData) (past : Nat → Option UInt8)
  (visit : Visitor ρ β)

/-- Read the next cluster, if the current one is done; there is none at the end of the chain. -/
def refill (s : Scan ρ) : Fs (Option (Scan ρ × Mem)) :=
  if s.index % entriesPerCluster fd = 0 then do
    let sector ← match s.entries with
      | none => pure s.sectorToParse
      | some _ => nextSectorInClusterChain fd s.sectorToParse false
    if s.entries.isSome ∧ sector = 0 then pure none
    else
      let entries ← ioReadDevice fd.volumeDevice (bytesPerCluster fd) (sector * fd.bytesPerSector)
      pure (some ({ s with sectorToParse := sector, entries := some entries, index := 0 }, entries))
  else
    match s.entries with
    | none => Prog.fault .wild
    | some entries => pure (some (s, entries))

/-- The first byte of an entry, which may lie behind the end of the buffer. -/
def peek (entries : Mem) (index : Nat) : Fs UInt8 := fun v =>
  if sizeofDirEntry * index < bytesPerCluster fd then .ok (.ok (entries (sizeofDirEntry * index)), v)
  else
    match past v.reads with
    | some b => .ok (.ok b, v)
    | none => .error .wild

def scanEntry (s : Scan ρ) (entries : Mem) : Fs (Visit ρ β) :=
  let a := sizeofDirEntry * s.index
  if isFree entries a then pure (.next s.acc s.longName)
  else if isLong entries a then do
    let (status, longName) ←
      Prog.ofExec (writePartialLongFatNameToName entries a (longNameMaxChars + 1) s.longName)
    Prog.assert (status = .success)
    pure (.next s.acc longName)
  else do
    match ← visit s.sectorToParse entries a s.longName s.acc with
    | .leave b => pure (.leave b)
    | .next acc longName => pure (.next acc (Function.update longName 0 0))

/-- The end of an iteration: a visit has left the loop, or its condition is evaluated. -/
def nextEntry (again : Scan ρ → Fs (ρ ⊕ β)) (s : Scan ρ) (entries : Mem) : Visit ρ β → Fs (ρ ⊕ β)
  | .leave b => pure (.inr b)
  | .next acc longName => do
    let b ← peek fd past entries (s.index + 1)
    if b = freeAll then pure (.inl acc)
    else again { s with index := s.index + 1, longName := longName, acc := acc }

/-- The loop over the entries of a directory. It ends with what has been found out, or with the result
    that a visit has left with. -/
def scanDirectory : Nat → Scan ρ → Fs (ρ ⊕ β)
  | 0, _ => Prog.fault .fuel
  | fuel + 1, s => do
    match ← refill fd s with
    | none => pure (.inl s.acc)
    | some (s, entries) =>
      let visited ← scanEntry visit s entries
      nextEntry fd past (scanDirectory fuel) s entries visited

def scanStart (sector : Nat) (acc : ρ) : Scan ρ := ⟨sector, none, 0, fun _ => 0, acc⟩

end Loop

/-! ### Searching -/

/-- What a search finds: the first sector of the file, the file, and the first sector of the cluster
    its entry is in. -/
structure Found where
  sector : Nat
  fileInformation : Option FileInformation
  parentSector : Nat

/-- What `FatSearchDirectoryEntry` does at a short entry. -/
def searchVisit (fd : FatData) (name : List UInt8) (searchType : Nat) (wantInfo : Bool)
    (sectorToParse : Nat) (entries : Mem) (a : Nat) (longName : Mem) (_ : Unit) :
    Fs (Visit Unit Found) :=
  match convertFatNameToName (fun i => entries (a + i)) shortNameMaxLength with
  | (.error _, _) => Prog.fault .check
  | (.ok shortName, _) =>
    if clStricmp (stringOf (longNameMaxChars + 1) longName) name = 0 ∨ clStricmp shortName name = 0 then
      if dirAttr entries a &&& (attrDirectory ||| attrVolumeId) ≠ searchType then
        Prog.fail .fileTypeInvalid
      else do
        let sector ← Prog.ofExcept (firstSectorOfCluster fd (dirCluster entries a))
        if wantInfo then
          let info ← Prog.ofExec (fatPopulateFileInformationFromFatEntry fd entries a)
          pure (.leave ⟨sector, some info, sectorToParse⟩)
        else pure (.leave ⟨sector, none, sectorToParse⟩)
    else pure (.next () longName)

/-- Search a directory for a name (C `FatSearchDirectoryEntry`). -/
def fatSearchDirectoryEntry (fd : FatData) (past : Nat → Option UInt8) (fuel sectorToSearch : Nat)
    (name : List UInt8) (searchType : Nat) (wantInfo : Bool) : Fs Found := do
  match ← scanDirectory fd past (searchVisit fd name searchType wantInfo) fuel
      (scanStart sectorToSearch ()) with
  | .inl _ => Prog.fail .fileNotFound
  | .inr found => pure found

def fatDelimiter : UInt8 := 92

/-- The loop of `FatSearch`, over what is left of the path. -/
def searchPath (fd : FatData) (past : Nat → Option UInt8) (fuel : Nat) (searchType : Nat)
    (wantInfo : Bool) : Nat → Nat → List UInt8 → Fs Found
  | 0, _, _ => Prog.fault .fuel
  | n + 1, currentSearchSector, rest => do
    let partialNameEnd := clStrchr rest fatDelimiter
    let last := partialNameEnd = 0
    let length := if last then rest.length else partialNameEnd
    if length ≥ longNameMaxChars ∨ length = 0 then Prog.fail .pathNotValid
    else
      let found ← fatSearchDirectoryEntry fd past fuel currentSearchSector (rest.take length)
        (if last then searchType else attrDirectory) wantInfo
      if last then pure found
      else searchPath fd past fuel searchType wantInfo n found.sector (rest.drop (length + 1))

/-- Search for a path (C `FatSearch`). -/
def fatSearch (fd : FatData) (past : Nat → Option UInt8) (fuel : Nat) (name : List UInt8)
    (searchType : Nat) (wantInfo : Bool) : Fs Found :=
  match name with
  | [] => Prog.fail .invalidFileName
  | c :: rest =>
    if fatDelimiter ≠ c then Prog.fail .invalidFileName
    else if 1 = name.length then
      if searchType &&& attrDirectory ≠ attrDirectory then Prog.fail .fileTypeInvalid
      else pure ⟨fd.rootDirectoryStartSector,
        if wantInfo then some ⟨none, none, 0, fileAttributeVolume⟩ else none, 0⟩
    else searchPath fd past fuel searchType wantInfo name.length fd.rootDirectoryStartSector rest

/-! ### Reading and writing files -/

/-- The first loop of `FatReadFile` and `FatWriteFile`: go to the cluster of an offset. -/
def skipClusters (fd : FatData) (sectorOffset : Nat) (extendChain : Bool) : Nat → Nat → Nat → Fs Nat
  | 0, _, _ => Prog.fault .fuel
  | fuel + 1, sectorsTraversed, currentSector =>
    if sectorsTraversed + fd.sectorsPerCluster ≤ sectorOffset then do
      Prog.assert (sectorOffset ≥ fd.sectorsPerCluster)
      let nextSector ← nextSectorInClusterChain fd currentSector extendChain
      skipClusters fd sectorOffset extendChain fuel (sectorsTraversed + fd.sectorsPerCluster) nextSector
    else pure currentSector

/-- The second loop of `FatReadFile`: what is left to read, and the buffer, filled up to `pos`. -/
def readSectors (fd : FatData) : Nat → Nat → Nat → Nat → Mem → Nat → Fs (Nat × Mem)
  | 0, _, _, _, _, _ => Prog.fault .fuel
  | fuel + 1, currentSector, sectorsRemaining, sectorsToRead, buffer, pos => do
    let bytesToRead := sectorsToRead * fd.bytesPerSector
    let data ← ioReadDevice fd.volumeDevice bytesToRead (currentSector * fd.bytesPerSector)
    let buffer := copyTo buffer pos bytesToRead data
    let sectorsRemaining := sectorsRemaining - sectorsToRead
    if 0 = sectorsRemaining then pure (0, buffer)
    else
      let nextSector ← nextSectorInClusterChain fd currentSector false
      if 0 = nextSector then pure (sectorsRemaining, buffer)
      else
        readSectors fd fuel nextSector sectorsRemaining
          (min fd.sectorsPerCluster sectorsRemaining) buffer (pos + bytesToRead)

/-- The second loop of `FatWriteFile`, with the buffer written up to `pos`. -/
def writeSectors (fd : FatData) (buffer : Mem) : Nat → Nat → Nat → Nat → Nat → Fs Unit
  | 0, _, _, _, _ => Prog.fault .fuel
  | fuel + 1, currentSector, sectorsRemaining, sectorsToWrite, pos => do
    let bytesToWrite := sectorsToWrite * fd.bytesPerSector
    ioWriteDevice fd.volumeDevice (fun i => buffer (pos + i)) bytesToWrite
      (currentSector * fd.bytesPerSector)
    let sectorsRemaining := sectorsRemaining - sectorsToWrite
    if 0 = sectorsRemaining then pure ()
    else
      let nextSector ← nextSectorInClusterChain fd currentSector true
      writeSectors fd buffer fuel nextSector sectorsRemaining
        (min fd.sectorsPerCluster sectorsRemaining) (pos + bytesToWrite)

/-- Read sectors of a file into a buffer. The value is the number of sectors read, and the buffer
    (C `FatReadFile`). -/
def fatReadFile (fd : FatData) (now : DateTime) (baseFileSector sectorOffset dirEntrySector : Nat)
    (buffer : Mem) (sectorsToRead : Nat) : Fs (Nat × Mem) := do
  Prog.assert (isAddressAligned baseFileSector fd.sectorsPerCluster = true)
  if 0 = sectorsToRead then pure (0, buffer)
  else
    let currentSector ← skipClusters fd sectorOffset false (sectorOffset + 1) 0 baseFileSector
    Prog.assert (0 ≠ currentSector)
    let within := sectorOffset % fd.sectorsPerCluster
    let (sectorsRemaining, buffer) ← readSectors fd (sectorsToRead + 1) (currentSector + within)
      sectorsToRead (min sectorsToRead (fd.sectorsPerCluster - within)) buffer 0
    let (index, dirEntry) ← getDirEntryFromSector fd dirEntrySector baseFileSector
    -- the date of the last access
    writeDirEntryToSector fd dirEntrySector index (writeLE dirEntry 0x12 2 (convertDateToFatDate now))
    pure (sectorsToRead - sectorsRemaining, buffer)

/-- The entry of a file after it has been written to: its size, and the dates of the last access and of
    the last change. -/
def writtenEntry (now : DateTime) (nextByteToWrite : Nat) (dirEntry : Mem) : Mem :=
  let dirEntry :=
    if nextByteToWrite > dirFileSize dirEntry 0 then writeLE dirEntry 0x1C 4 nextByteToWrite
    else dirEntry
  let dirEntry := writeLE dirEntry 0x12 2 (convertDateToFatDate now)
  let dirEntry := writeLE dirEntry 0x18 2 (convertDateToFatDate now)
  writeLE dirEntry 0x16 2 (convertTimeToFatTime now)

/-- Write a buffer to sectors of a file, which grows where it is too short. The value is the number of
    sectors written (C `FatWriteFile`). -/
def fatWriteFile (fd : FatData) (now : DateTime) (baseFileSector sectorOffset dirEntrySector : Nat)
    (buffer : Mem) (sectorsToWrite : Nat) : Fs Nat := do
  Prog.assert (isAddressAligned baseFileSector fd.sectorsPerCluster = true)
  if 0 = sectorsToWrite then pure 0
  else
    let currentSector ← skipClusters fd sectorOffset true (sectorOffset + 1) 0 baseFileSector
    Prog.assert (0 ≠ currentSector)
    let within := sectorOffset % fd.sectorsPerCluster
    writeSectors fd buffer (sectorsToWrite + 1) (currentSector + within) sectorsToWrite
      (min sectorsToWrite (fd.sectorsPerCluster - within)) 0
    let (index, dirEntry) ← getDirEntryFromSector fd dirEntrySector baseFileSector
    let nextByteToWrite := (sectorOffset + sectorsToWrite) % 2 ^ 32 * fd.bytesPerSector % 2 ^ 32
    writeDirEntryToSector fd dirEntrySector index (writtenEntry now nextByteToWrite dirEntry)
    pure sectorsToWrite

/-! ### Creating entries -/

/-- The loop of `FatCreateDirectoryEntry` that goes to the last cluster of the parent. -/
def lastClusterInChain (fd : FatData) : Nat → Nat → Fs Nat
  | 0, _ => Prog.fault .fuel
  | fuel + 1, currentClusterInChain => do
    let tempCluster ← nextClusterInChain fd currentClusterInChain
    if isEoc tempCluster then pure currentClusterInChain else lastClusterInChain fd fuel tempCluster

/-- The loop of `FatCreateDirectoryEntry` over the entries of a cluster, with `n` entries to go. -/
def freeDirEntry (entries : Mem) : Nat → Nat → Option Nat
  | 0, _ => none
  | n + 1, index =>
    if isFree entries (sizeofDirEntry * index) || entries (sizeofDirEntry * index) = freeAll then
      some index
    else freeDirEntry entries n (index + 1)

def stampEntry (now : DateTime) (entries : Mem) (a : Nat) : Mem :=
  let e := writeLE entries (a + 0x10) 2 (convertDateToFatDate now)
  let e := writeLE e (a + 0x18) 2 (convertDateToFatDate now)
  let e := writeLE e (a + 0x12) 2 (convertDateToFatDate now)
  let e := writeLE e (a + 0xE) 2 (convertTimeToFatTime now)
  writeLE e (a + 0x16) 2 (convertTimeToFatTime now)

/-- Put a new entry into a cluster: the name is the one given, followed by spaces. -/
def putDirEntry (now : DateTime) (entries : Mem) (a : Nat) (name : List UInt8) (cluster : Nat) (attr : Nat) : Mem :=
  let e := fill entries a sizeofDirEntry 0
  let e := copyTo e a shortNameChars fun i => name.getD i 32
  let e := setDirCluster e a cluster
  let e := writeLE e (a + 0xB) 1 attr
  stampEntry now e a

/-- The first cluster of a new file or directory: a directory gets the entries of itself and of its
    parent. -/
def newCluster (now : DateTime) (attr cluster parentCluster : Nat) : Mem :=
  if attr &&& (attrDirectory ||| attrVolumeId) = attrDirectory then
    putDirEntry now (putDirEntry now (fun _ => 0) 0 [46] cluster attrDirectory) sizeofDirEntry [46, 46]
      parentCluster attrDirectory
  else fun _ => 0

def maxPath : Nat := 260

/-- The part of `FatCreateDirectoryEntry` from step 3 on, for a parent directory and a name. -/
def createIn (fd : FatData) (fuel : Nat) (now : DateTime) (parentSector : Nat)
    (newEntryName : List UInt8) (fileAttributes : Nat) : Fs Unit := do
  let parentCluster ← Prog.ofExcept (clusterOfSector fd parentSector)
  let lastCluster ← lastClusterInChain fd fuel parentCluster
  let finalSector ← Prog.ofExcept (firstSectorOfCluster fd lastCluster)
  let offset := finalSector * fd.bytesPerSector
  let entries ← ioReadDevice fd.volumeDevice (bytesPerCluster fd) offset
  -- the first two entries of the root directory are left out
  let start := if finalSector = fd.firstDataSector then 2 else 0
  match freeDirEntry entries (entriesPerCluster fd - start) start with
  | none => Prog.fail .diskFull
  | some index =>
    let fsInfo ← ioReadDevice fd.volumeDevice fd.bytesPerSector (1 * fd.bytesPerSector)
    if 0 = fsiFreeCount fsInfo then Prog.fail .diskFull
    else
      -- the hint is taken as it is, be the cluster free or not
      let cluster := fsiNxtFree fsInfo
      let fsInfo := setFsiFreeCount fsInfo (wsub 32 (fsiFreeCount fsInfo) 1)
      let fsInfo := setFsiNxtFree fsInfo (wadd 32 cluster 1)
      ioWriteDevice fd.volumeDevice fsInfo fd.bytesPerSector (1 * fd.bytesPerSector)
      ioWriteDevice fd.volumeDevice
        (putDirEntry now entries (sizeofDirEntry * index) newEntryName cluster fileAttributes)
        (bytesPerCluster fd) offset
      let sectorAllocated ← Prog.ofExcept (firstSectorOfCluster fd cluster)
      ioWriteDevice fd.volumeDevice
        (newCluster now fileAttributes cluster (if fd.firstDataSector = parentSector then 0 else parentCluster))
        (bytesPerCluster fd) (sectorAllocated * fd.bytesPerSector)
      let fatOffset := fatSector fd cluster * fd.bytesPerSector
      let fat ← ioReadDevice fd.volumeDevice fd.bytesPerSector fatOffset
      let a := cluster * sizeofFatEntry % fd.bytesPerSector
      ioWriteDevice fd.volumeDevice
        (writeLE fat a 4 (readLE fat a 4 &&& wnot 32 clusterMask ||| eocMark)) fd.bytesPerSector
        fatOffset

/-- Create a file or a directory. A path or a name that is too long for its buffer destroys something
    else (C `FatCreateDirectoryEntry`). -/
def fatCreateDirectoryEntry (fd : FatData) (past : Nat → Option UInt8) (fuel : Nat) (now : DateTime)
    (name : List UInt8) (fileAttributes : Nat) : Fs Unit := do
  let lastBackslashIndex := clStrrchr name fatDelimiter
  if lastBackslashIndex = 0 ∧ name.head? ≠ some fatDelimiter then Prog.fail .pathNotValid
  else
    let fullPath := if 0 = lastBackslashIndex then [fatDelimiter] else name.take lastBackslashIndex
    let newEntryName := name.drop (lastBackslashIndex + 1)
    if lastBackslashIndex ≥ maxPath ∨ newEntryName.length > shortNameChars then Prog.fault .wild
    else
      let parent ← fatSearch fd past fuel fullPath attrDirectory false
      match ← (fatSearch fd past fuel name attrNormal false).attempt with
      | .ok _ => Prog.fail .fileAlreadyExists
      | .error .fileTypeInvalid => Prog.fail .fileAlreadyExists
      | .error _ => createIn fd fuel now parent.sector newEntryName fileAttributes

/-! ### Listing a directory -/

/-- A record of the answer (C `FILE_DIRECTORY_INFORMATION`). -/
structure DirectoryRecord where
  nextEntryOffset : Nat
  basicFileInformation : FileInformation
  shortFilename : List UInt8
  filename : List UInt8
deriving DecidableEq, Repr

/-- (C `sizeof(FILE_DIRECTORY_INFORMATION)`) -/
def sizeofDirectoryRecord : Nat := 64

/-- The size needed so far, and the records written so far, the last one first. -/
structure Listing where
  requiredSize : Nat
  records : List DirectoryRecord
deriving DecidableEq, Repr

/-- Set the offset of the last record, now that another one follows. -/
def linkRecord : List DirectoryRecord → List DirectoryRecord
  | [] => []
  | r :: rs => { r with nextEntryOffset := sizeofDirectoryRecord + r.filename.length } :: rs

/-- What `FatQueryDirectory` does at a short entry. -/
def queryVisit (fd : FatData) (directoryInformationSize : Nat) (_ : Nat) (entries : Mem) (a : Nat)
    (longName : Mem) (acc : Listing) : Fs (Visit Listing Empty) :=
  match convertFatNameToName (fun i => entries (a + i)) shortNameMaxLength with
  | (.error _, _) => Prog.fault .check
  | (.ok shortName, shortNameLength) => do
    let long := stringOf longNameMaxChars longName
    -- `strncpy` does not take an empty name
    Prog.assert (long = [] → shortNameLength ≠ 0)
    let longName := if long = [] then
        fun i => if i < shortName.length then shortName.getD i 0
          else if i = shortName.length then 0 else longName i
      else longName
    let longNameLength := if long = [] then shortNameLength else long.length
    let name := (List.range longNameLength).map longName
    let requiredSize := wadd 32 acc.requiredSize (sizeofDirectoryRecord + longNameLength)
    if requiredSize ≤ directoryInformationSize then do
      let info ← Prog.ofExec (fatPopulateFileInformationFromFatEntry fd entries a)
      pure (.next ⟨requiredSize, ⟨0, info, shortName, name⟩ :: linkRecord acc.records⟩ longName)
    else pure (.next { acc with requiredSize := requiredSize } longName)

/-- List a directory (C `FatQueryDirectory`). The status may be the count that `snprintf` has left in it, the length
    of the last short name: no mask bit of a failure is set in it, so it is a success like the others. -/
def fatQueryDirectory (fd : FatData) (past : Nat → Option UInt8) (fuel directorySector : Nat)
    (directoryInformationSize : Nat) : Fs Listing := do
  match ← scanDirectory fd past (queryVisit fd directoryInformationSize) fuel
      (scanStart directorySector ⟨0, []⟩) with
  | .inl acc => pure acc
  | .inr result => nomatch result

end HAL9000.Fat32
