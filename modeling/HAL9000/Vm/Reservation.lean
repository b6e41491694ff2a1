import HAL9000.CommonLib.Bitmap

/-!
# Reservation spaces: the code

Port of `HAL9000/src/vm_reservation_space.c`. The list of reservations is an array of records at the
start of the metadata area; the commit bitmaps lie behind it in memory. Locks and trace output are
left out: the functions run under the reservation lock. Releasing a reservation also asks the MMU to
unmap the pages of its bitmap and closes its backing file; neither touches the reservation space.
-/

namespace HAL9000.Vm
open Lib

/-- What a record of the list is used for (C `VMM_RESERVATION_STATE`). -/
inductive ReservationState where
  | free
  | used
  | last
deriving DecidableEq, Repr

/-- A record of the reservation list (C `VMM_RESERVATION`). File objects are addresses, 0 is none. -/
structure Reservation where
  startVa : Nat := 0
  size : Nat := 0
  pageRights : Nat := 0
  state : ReservationState := .free
  uncacheable : Bool := false
  backingFile : Nat := 0
  commitBitmap : Bitmap := {}
deriving DecidableEq, Repr

/-- Size of a record (C `sizeof(VMM_RESERVATION)`). -/
def sizeofReservation : Nat := 56

/-- A space from which virtual addresses are reserved (C `VMM_RESERVATION_SPACE`), with the records
    of its list and the memory its bitmaps lie in. -/
structure ReservationSpace where
  freeVirtualAddressPointer : Nat
  startOfVirtualAddressSpace : Nat
  bitmapAddressStart : Nat
  reservedAreaSize : Nat
  freeBitmapAddress : Nat
  reservationList : Nat
  slots : Nat → Reservation
  mem : Mem

def vmmAllocTypeReserve : Nat := 1

def vmmAllocTypeCommit : Nat := 2

def vmmFreeTypeDecommit : Nat := 1

def vmmFreeTypeRelease : Nat := 2

def reservationListPercentageInHundreds : Nat := 20 * 100

/-- A fraction of a value (C `CalculatePercentage`). -/
def calculatePercentage (wholeValue hundredsOfPercentage : Nat) : Exec Nat := do
  ensure (hundredsOfPercentage ≤ 10000)
  ensure (wholeValue ≤ (2 ^ 64 - 1) / hundredsOfPercentage)
  pure (wholeValue * hundredsOfPercentage / 10000)

/-- Lay out the metadata area; `slots` and `mem` are what it held before
    (C `VmReservationSpaceInit`). -/
def vmReservationSpaceInit (reservationMetadataBaseAddress reservationBaseAddress
    reservationMetadataSize : Nat) (slots : Nat → Reservation) (mem : Mem) :
    Exec ReservationSpace := do
  ensure (0 ≠ reservationMetadataBaseAddress)
  ensure (isAddressAligned reservationMetadataBaseAddress pageSize)
  ensure (reservationMetadataSize ≠ 0)
  let sizeForReservationList ←
    calculatePercentage reservationMetadataSize reservationListPercentageInHundreds
  let bitmapAddressStart := wadd 64 reservationMetadataBaseAddress sizeForReservationList
  let freeVirtualAddressPointer :=
    if reservationBaseAddress = 0 then
      wadd 64 reservationMetadataBaseAddress reservationMetadataSize
    else reservationBaseAddress
  pure {
    reservationList := reservationMetadataBaseAddress
    bitmapAddressStart := bitmapAddressStart
    freeBitmapAddress := bitmapAddressStart
    freeVirtualAddressPointer := freeVirtualAddressPointer
    startOfVirtualAddressSpace := freeVirtualAddressPointer
    reservedAreaSize := reservationMetadataSize
    slots := slots
    mem := mem }

def setSlot (rs : ReservationSpace) (i : Nat) (r : Reservation) : ReservationSpace :=
  { rs with slots := Function.update rs.slots i r }

/-- Mark the first record as the end of the list (C `VmReservationSpaceFinishInit`). -/
def vmReservationSpaceFinishInit (rs : ReservationSpace) : ReservationSpace :=
  setSlot rs 0 { rs.slots 0 with state := .last }

/-- Number of records that start below the bitmaps: the bound of the loops over the list. -/
def slotCount (rs : ReservationSpace) : Nat :=
  (rs.bitmapAddressStart - rs.reservationList + (sizeofReservation - 1)) / sizeofReservation

/-- The loop of `_VmFindReservation`: `n` records from `i` on. -/
def findReservationFrom (rs : ReservationSpace) (address size : Nat) : Nat → Nat → Option Nat
  | 0, _ => none
  | n + 1, i =>
    match (rs.slots i).state with
    | .last => none
    | .free => findReservationFrom rs address size n (i + 1)
    | .used =>
      if checkBounds address size (rs.slots i).startVa (rs.slots i).size then some i
      else findReservationFrom rs address size n (i + 1)

/-- The first reservation that contains the range, if any (C `_VmFindReservation`). -/
def vmFindReservation (rs : ReservationSpace) (address size : Nat) : Exec (Option Nat) := do
  ensure (0 ≠ address)
  ensure (0 ≠ size)
  pure (findReservationFrom rs address size (slotCount rs) 0)

/-- The loop of `_VmFindFirstFreeReservation`: `n` records from `i` on. -/
def findFirstFreeFrom (rs : ReservationSpace) : Nat → Nat → Option (Nat × ReservationSpace)
  | 0, _ => none
  | n + 1, i =>
    match (rs.slots i).state with
    | .free => some (i, rs)
    | .last =>
      let rs := setSlot rs i { rs.slots i with state := .free }
      some (i, setSlot rs (i + 1) { rs.slots (i + 1) with state := .last })
    | .used => findFirstFreeFrom rs n (i + 1)

/-- A record for a new reservation; the end of the list moves up if there is none below it
    (C `_VmFindFirstFreeReservation`). -/
def vmFindFirstFreeReservation (rs : ReservationSpace) : Option (Nat × ReservationSpace) :=
  findFirstFreeFrom rs (slotCount rs) 0

/-- Fill in a record and give it a cleared commit bitmap (C `_VmInitializeReservation`). -/
def vmInitializeReservation (rs : ReservationSpace) (address size pageRights : Nat)
    (uncacheable : Bool) (fileObject : Nat) (slot : Nat) : Exec ReservationSpace := do
  ensure (0 ≠ address)
  ensure (0 ≠ size)
  ensure (isAddressAligned address pageSize)
  ensure (isAddressAligned size pageSize)
  let noOfPages := size / pageSize
  ensure (noOfPages ≤ maxDword)
  let bitmap ← bitmapPreinit noOfPages
  ensure (0 ≠ bitmap.bufferSize)
  ensure (isAddressAligned rs.freeBitmapAddress pageSize)
  let (mem, bitmap) ← bitmapInitEx rs.mem bitmap rs.freeBitmapAddress false
  let bitmapSize := alignAddressUpper bitmap.bufferSize pageSize
  ensure (checkBounds rs.freeBitmapAddress bitmapSize rs.reservationList rs.reservedAreaSize)
  let reservation : Reservation :=
    { state := .used
      startVa := address
      size := size
      pageRights := pageRights
      uncacheable := uncacheable
      backingFile := fileObject
      commitBitmap := bitmap }
  pure (setSlot { rs with mem := mem, freeBitmapAddress := wadd 64 rs.freeBitmapAddress bitmapSize }
    slot reservation)

/-- Set or clear the commit bits of the pages of a range
    (C `_VmCommitReservation` and `_VmDecommitReservation`). -/
def vmChangeCommit (mem : Mem) (address size : Nat) (r : Reservation) (set : Bool) : Exec Mem := do
  ensure (0 ≠ address)
  ensure (0 ≠ size)
  ensure (isAddressAligned address pageSize)
  ensure (isAddressAligned size pageSize)
  let noOfPages := size / pageSize
  let startIndex := wsub 64 address r.startVa / pageSize
  ensure (noOfPages ≤ maxDword)
  ensure (startIndex ≤ maxDword)
  bitmapSetBitsValue mem r.commitBitmap startIndex noOfPages set

/-- Commit a range of a reservation (C `_VmCommitReservation`). -/
def vmCommitReservation (mem : Mem) (address size : Nat) (r : Reservation) : Exec Mem :=
  vmChangeCommit mem address size r true

/-- Decommit a range of a reservation (C `_VmDecommitReservation`). -/
def vmDecommitReservation (mem : Mem) (address size : Nat) (r : Reservation) : Exec Mem :=
  vmChangeCommit mem address size r false

/-- Whether the page of an address is committed (C `_VmIsVaCommited`). -/
def vmIsVaCommited (mem : Mem) (r : Reservation) (address : Nat) : Exec Bool := do
  ensure (0 ≠ address)
  let pageNo := wsub 64 address r.startVa / pageSize
  ensure (pageNo ≤ maxDword)
  bitmapGetBitValue mem r.commitBitmap pageNo

/-- Reserve or commit a page-aligned range (C `_VmChangeVaReservationState`). -/
def vmChangeVaReservationState (rs : ReservationSpace) (address size allocationType pageRights : Nat)
    (uncacheable : Bool) (fileObject : Nat) : Exec (Status × ReservationSpace) := do
  ensure (0 ≠ address)
  ensure (0 ≠ size)
  ensure (allocationType = vmmAllocTypeReserve ∨ allocationType = vmmAllocTypeCommit)
  ensure (isAddressAligned address pageSize)
  ensure (isAddressAligned size pageSize)
  match ← vmFindReservation rs address size with
  | none =>
    if allocationType ≠ vmmAllocTypeReserve then
      pure (.memoryIsNotReserved, rs)
    else
      match vmFindFirstFreeReservation rs with
      | none => throw .check
      | some (slot, rs) =>
        let rs ← vmInitializeReservation rs address size pageRights uncacheable fileObject slot
        pure (.success, rs)
  | some slot =>
    if allocationType = vmmAllocTypeReserve then
      pure (.memoryAlreadyReserved, rs)
    else if (rs.slots slot).pageRights ≠ pageRights then
      pure (.memoryConflictingAccessRights, rs)
    else if (rs.slots slot).uncacheable ≠ uncacheable then
      pure (.memoryConflictingCacheability, rs)
    else
      let mem ← vmCommitReservation rs.mem address size (rs.slots slot)
      pure (.success, { rs with mem := mem })

/-- The page-aligned range an allocation asks for, and the space after the address was drawn
    (first half of C `VmReservationSpaceAllocRegion`). -/
def allocRange (rs : ReservationSpace) (baseAddress size : Nat) : Nat × Nat × ReservationSpace :=
  if 0 ≠ baseAddress then
    let pBaseAddress := alignAddressLower baseAddress pageSize
    let alignedSize :=
      alignAddressUpper (wadd 64 size (wsub 64 baseAddress pBaseAddress)) pageSize
    (pBaseAddress, alignedSize, rs)
  else
    -- `VmReservationSpaceDetermineNextFreeVirtualAddress`: the pointer only ever moves up
    let alignedSize := alignAddressUpper size pageSize
    (rs.freeVirtualAddressPointer, alignedSize, { rs with
        freeVirtualAddressPointer := wadd 64 rs.freeVirtualAddressPointer alignedSize })

/-- The result of an allocation (the `OUT` parameters of C `VmReservationSpaceAllocRegion`). -/
structure AllocResult where
  status : Status
  mappedAddress : Nat := 0
  mappedSize : Nat := 0
deriving DecidableEq, Repr

/-- One of the two steps of an allocation, taken if it was asked for and nothing failed before. -/
def changeIfAsked (allocType type : Nat) (address size rights : Nat) (uncacheable : Bool)
    (fileObject : Nat) (x : Status × ReservationSpace) : Exec (Status × ReservationSpace) :=
  if x.1 = .success ∧ isBooleanFlagOn allocType type then
    vmChangeVaReservationState x.2 address size type rights uncacheable fileObject
  else pure x

/-- Reserve, commit, or both (C `VmReservationSpaceAllocRegion`). -/
def vmReservationSpaceAllocRegion (rs : ReservationSpace) (baseAddress size allocType rights : Nat)
    (uncacheable : Bool) (fileObject : Nat) : Exec (AllocResult × ReservationSpace) := do
  ensure (size ≠ 0)
  ensure (isFlagOn allocType (vmmAllocTypeCommit ||| vmmAllocTypeReserve))
  let (pBaseAddress, alignedSize, rs) := allocRange rs baseAddress size
  if 0 ≠ baseAddress ∧ pBaseAddress < rs.startOfVirtualAddressSpace then
    pure ({ status := .memoryCannotBeReserved }, rs)
  else
    -- the two are independent of each other and can be both active
    let x ← changeIfAsked allocType vmmAllocTypeReserve pBaseAddress alignedSize rights uncacheable
      fileObject (.success, rs)
    let x ← changeIfAsked allocType vmmAllocTypeCommit pBaseAddress alignedSize rights uncacheable
      fileObject x
    if x.1 = .success then
      pure ({ status := x.1, mappedAddress := pBaseAddress, mappedSize := alignedSize }, x.2)
    else
      pure ({ status := x.1 }, x.2)

/-- Release a reservation or decommit a range of it; the result is the range to unmap
    (C `VmReservationSpaceFreeRegion`). -/
def vmReservationSpaceFreeRegion (rs : ReservationSpace) (address size freeType : Nat) :
    Exec (Nat × Nat × ReservationSpace) := do
  ensure (address ≠ 0)
  ensure ((isBooleanFlagOn freeType vmmFreeTypeRelease ∧ size = 0) ∨
    (isBooleanFlagOn freeType vmmFreeTypeDecommit ∧ size ≠ 0))
  ensure (isBooleanFlagOn freeType vmmFreeTypeRelease ≠ isBooleanFlagOn freeType vmmFreeTypeDecommit)
  match ← vmFindReservation rs address 1 with
  | none => throw .check
  | some slot =>
    let r := rs.slots slot
    if isBooleanFlagOn freeType vmmFreeTypeRelease then
      ensure (isAddressAligned r.commitBitmap.bitmapBuffer pageSize)
      pure (r.startVa, r.size, setSlot rs slot {})
    else
      let alignedAddress := alignAddressLower address pageSize
      let alignedSize := alignAddressUpper (wadd 64 size (wsub 64 address alignedAddress)) pageSize
      let mem ← vmDecommitReservation rs.mem alignedAddress alignedSize r
      pure (alignedAddress, alignedSize, { rs with mem := mem })

end HAL9000.Vm
