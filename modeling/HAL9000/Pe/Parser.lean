import HAL9000.Lib.ByteMem
import HAL9000.CommonLib.Base

/-!
# Executables

Port of `PE_Parser/src/pe_parser.c`. An executable is a buffer somewhere in memory; a read outside of the
buffer stops the call. The structures of `PE_Parser/headers/pe_structures.h` are packed, so a field is at
the sum of the sizes of those before it. The pointers to the results are not null.
-/

namespace HAL9000.Pe
open Lib

/-- The buffer with the executable: its address, its size and the memory it is in. -/
structure Image where
  base : Nat
  size : Nat
  mem : Mem

/-- Read a number, of which all bytes have to be in the buffer. -/
def Image.read (m : Image) (address width : Nat) : Exec Nat :=
  if m.base ≤ address ∧ address + width ≤ m.base + m.size then pure (readLE m.mem address width)
  else throw .wild

def mzSignature : Nat := 0x5A4D

def ntSignature : Nat := 0x4550

def imageFileMachineAmd64 : Nat := 0x8664

def imageDirectoryEntryComDescriptor : Nat := 14

/-! Sizes of `IMAGE_FILE_HEADER`, `IMAGE_NT_HEADERS64`, `IMAGE_SECTION_HEADER` and
`IMAGE_DATA_DIRECTORY`. -/

def sizeofFileHeader : Nat := 20
def sizeofNtHeaders : Nat := 264
def sizeofSectionHeader : Nat := 40
def sizeofDataDirectory : Nat := 8

/-! Where the fields are: `e_lfanew` in the DOS header, the others in the NT headers. -/

def lfanew : Nat := 60
def machine : Nat := 4
def numberOfSections : Nat := 6
def sizeOfOptionalHeader : Nat := 20
def addressOfEntryPoint : Nat := 40
def imageBase : Nat := 48
def sectionAlignment : Nat := 56
def fileAlignment : Nat := 60
def sizeOfImage : Nat := 80
def sizeOfHeaders : Nat := 84
def subsystem : Nat := 92
def numberOfRvaAndSizes : Nat := 132
def dataDirectory : Nat := 136

/-- A `LONG` as an offset to a pointer. -/
def signExtend (v : Nat) : Nat := if v < 2 ^ 31 then v else v + (2 ^ 64 - 2 ^ 32)

/-- C `PE_NT_HEADER_INFO`. -/
structure NtHeaderInfo where
  imageBase : Nat
  ntBase : Nat
  addressOfEntryPoint : Nat
  imageAlignment : Nat
  fileAlignment : Nat
  preferredImageBase : Nat
  preferredAddressOfEntryPoint : Nat
  size : Nat
  machine : Nat
  subsystem : Nat
  sizeOfHeaders : Nat
  numberOfSections : Nat
deriving DecidableEq, Repr

/-- C `PE_SECTION_INFO`. -/
structure SectionInfo where
  baseAddress : Nat
  size : Nat
  characteristics : Nat
deriving DecidableEq, Repr

/-- C `PE_DATA_DIRECTORY`. -/
structure DataDirectoryInfo where
  baseAddress : Nat
  size : Nat
deriving DecidableEq, Repr

def readNtHeaders (m : Image) (nt : Nat) : Exec NtHeaderInfo := do
  let size ← m.read (nt + sizeOfImage) 4
  let machine ← m.read (nt + machine) 2
  let subsystem ← m.read (nt + subsystem) 2
  let entry ← m.read (nt + addressOfEntryPoint) 4
  let sizeOfHeaders ← m.read (nt + sizeOfHeaders) 4
  let numberOfSections ← m.read (nt + numberOfSections) 2
  let imageAlignment ← m.read (nt + sectionAlignment) 4
  let fileAlignment ← m.read (nt + fileAlignment) 4
  let preferred ← m.read (nt + imageBase) 8
  pure {
    imageBase := m.base
    ntBase := nt
    addressOfEntryPoint := wadd 64 m.base entry
    imageAlignment := imageAlignment
    fileAlignment := fileAlignment
    preferredImageBase := preferred
    preferredAddressOfEntryPoint := wadd 64 preferred entry
    size := size
    machine := machine
    subsystem := subsystem
    sizeOfHeaders := sizeOfHeaders
    numberOfSections := numberOfSections }

/-- C `PeRetrieveNtHeader`. -/
def peRetrieveNtHeader (m : Image) : Exec (Except Status NtHeaderInfo) := do
  if m.base = 0 then pure (.error .invalidParameter1)
  else if m.size = 0 then pure (.error .invalidParameter2)
  else
    let magic ← m.read m.base 2
    if magic ≠ mzSignature then pure (.error .invalidMzImage)
    else
      let e ← m.read (m.base + lfanew) 4
      let nt := wadd 64 m.base (signExtend e)
      if ¬ checkBounds nt sizeofNtHeaders m.base m.size then pure (.error .invalidImageSize)
      else
        let signature ← m.read nt 4
        if signature ≠ ntSignature then pure (.error .invalidPeImage)
        else
          let info ← readNtHeaders m nt
          pure (.ok info)

/-- C `PeRetrieveSection`. -/
def peRetrieveSection (m : Image) (info : NtHeaderInfo) (sectionIndex : Nat) :
    Exec (Except Status SectionInfo) := do
  if sectionIndex ≥ info.numberOfSections then pure (.error .invalidParameter2)
  else if info.machine ≠ imageFileMachineAmd64 then pure (.error .unsupported)
  else
    let optional ← m.read (info.ntBase + sizeOfOptionalHeader) 2
    let pSections := wadd 64 info.ntBase (4 + sizeofFileHeader + optional)
    if ¬ checkBounds pSections (sizeofSectionHeader * info.numberOfSections) info.imageBase info.size then
      pure (.error .invalidImageSize)
    else
      let header := pSections + sizeofSectionHeader * sectionIndex
      let virtualAddress ← m.read (header + 12) 4
      let virtualSize ← m.read (header + 8) 4
      let characteristics ← m.read (header + 36) 4
      let baseAddress := wadd 64 info.imageBase virtualAddress
      if ¬ checkBounds baseAddress virtualSize info.imageBase info.size then
        pure (.error .invalidImageSize)
      else pure (.ok ⟨baseAddress, virtualSize, characteristics⟩)

/-- C `PeRetrieveDataDirectory`. -/
def peRetrieveDataDirectory (m : Image) (info : NtHeaderInfo) (directory : Nat) :
    Exec (Except Status DataDirectoryInfo) := do
  if imageDirectoryEntryComDescriptor < directory then pure (.error .invalidParameter2)
  else if info.machine ≠ imageFileMachineAmd64 then pure (.error .unsupported)
  else
    let count ← m.read (info.ntBase + numberOfRvaAndSizes) 4
    if directory ≥ count then pure (.error .invalidParameter2)
    else
      let pDataDirectory := wadd 64 info.ntBase (dataDirectory + sizeofDataDirectory * directory)
      if ¬ checkBounds pDataDirectory sizeofDataDirectory info.imageBase info.size then
        pure (.error .invalidImageSize)
      else
        let virtualAddress ← m.read pDataDirectory 4
        let size ← m.read (pDataDirectory + 4) 4
        let baseAddress := wadd 64 info.imageBase virtualAddress
        if ¬ checkBounds baseAddress size info.imageBase info.size then pure (.error .invalidImageSize)
        else pure (.ok ⟨baseAddress, size⟩)

end HAL9000.Pe
