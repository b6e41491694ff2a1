import HAL9000.CommonLib.Base
import HAL9000.CommonLib.List
import HAL9000.Lib.ByteMem

/-!
# The heap

Port of `CommonLib/src/cl_heap.c`. The entries of the heap, with their headers, list links and tails,
lie in memory, byte by byte, and so does the head of the list of entries. The other fields of the heap
header are kept in a record, as nothing else writes there.

Addresses are 64-bit words. The calls read and write memory at any address.
-/

namespace HAL9000.ClHeap
open Lib LinkMem

def heapMinimumSize : Nat := 64 * 1024

def heapMagic : Nat := 0xACE2302E

def heapFreePattern : UInt8 := 0xAF

def heapDefaultAlignment : Nat := 16

/-- Size of the heap header (C `sizeof(HEAP_HEADER)`). -/
def sizeofHeapHeader : Nat := 72

/-- Size of the header of an entry (C `sizeof(HEAP_ENTRY)`). -/
def sizeofHeapEntry : Nat := 0x20

/-- Size of the tail of an entry (C `sizeof(HEAP_TAIL)`). -/
def sizeofHeapTail : Nat := 4

def poolAllocateZeroMemory : Nat := 0x2

def poolAllocatePanicIfFail : Nat := 0x4

/-- The links of a `LIST_ENTRY` in memory. -/
instance : LinkMem Mem Nat where
  flink m a := readLE m a 8
  blink m a := readLE m (a + 8) 8
  setFlink m a v := writeLE m a 8 v
  setBlink m a v := writeLE m (a + 8) 8 v

/-- A heap: the fields of its header (C `HEAP_HEADER`) and the memory. -/
structure Heap where
  heapSizeMaximum : Nat
  heapSizeRemaining : Nat
  baseAddress : Nat
  freeAddress : Nat
  heapNumberOfAllocations : Nat
  entryToRestartSearch : Nat
  mem : Mem

/-- Address of the list head in the header (C `&HeapHeader->HeapAllocations`). -/
def Heap.heapAllocations (h : Heap) : Nat := h.baseAddress + 56

/-- Address of the list entry of a heap entry (C `&HeapEntry->ListEntry`). -/
def listEntry (heapEntry : Nat) : Nat := wadd 64 heapEntry 0x10

/-- The heap entry a list entry is in (C `CONTAINING_RECORD`). -/
def containingHeapEntry (entry : Nat) : Nat := wsub 64 entry 0x10

/-- Field `Magic` of a heap entry. -/
def entryMagic (m : Mem) (e : Nat) : Nat := readLE m e 4

/-- Field `Tag` of a heap entry. -/
def entryTag (m : Mem) (e : Nat) : Nat := readLE m (wadd 64 e 4) 4

/-- Field `Size` of a heap entry. -/
def entrySize (m : Mem) (e : Nat) : Nat := readLE m (wadd 64 e 8) 4

/-- Field `Offset` of a heap entry. -/
def entryOffset (m : Mem) (e : Nat) : Nat := readLE m (wadd 64 e 0xC) 4

def entryEnd (m : Mem) (e : Nat) : Nat := wadd 64 e (sizeofHeapEntry + entrySize m e + sizeofHeapTail)

/-- Make a heap of a region of memory (C `ClHeapInit`). -/
def clHeapInit (mem : Mem) (baseAddress memoryAvailable : Nat) : Except Status Heap :=
  if baseAddress = 0 then throw .invalidParameter1
  else if memoryAvailable < heapMinimumSize then throw .heapTooSmall
  else
    pure {
      heapSizeMaximum := memoryAvailable
      heapSizeRemaining := memoryAvailable - sizeofHeapHeader
      baseAddress := baseAddress
      freeAddress := wadd 64 baseAddress sizeofHeapHeader
      heapNumberOfAllocations := 0
      entryToRestartSearch := baseAddress + 56
      mem := initializeListHead mem (baseAddress + 56) }

/-- C `_ValidateHeapEntry`. -/
def validateHeapEntry (m : Mem) (heapEntry tag : Nat) : Exec Bool := do
  ensure (0 ≠ heapEntry)
  ensure (0 ≠ tag)
  let totalSize := (sizeofHeapEntry + entrySize m heapEntry + sizeofHeapTail) % 2 ^ 32
  let heapTail := wsub 64 (wadd 64 heapEntry totalSize) sizeofHeapTail
  pure (decide (entryMagic m heapEntry = heapMagic ∧ readLE m heapTail 4 = heapMagic ∧
    entryTag m heapEntry ≠ 0 ∧ tag = entryTag m heapEntry))

/-- Write the fields of an entry and link it in, if it goes to the end of the list; the result is the
    memory and the address of the tail: the part of `_InitHeapEntry` that writes. -/
def writeHeapEntry (m : Mem) (heapAllocations e dataAddress tag size : Nat) (addToLinkedList : Bool) : Mem × Nat :=
  let m := writeLE m e 4 heapMagic
  let m := writeLE m (wadd 64 e 8) 4 size
  let m := writeLE m (wadd 64 e 4) 4 tag
  let m := if addToLinkedList then insertTailList m heapAllocations (listEntry e) else m
  let m := writeLE m (wadd 64 e 0xC) 4 (wsub 64 dataAddress e % 2 ^ 32)
  let heapTail := wadd 64 dataAddress (entrySize m e)
  (writeLE m heapTail 4 heapMagic, heapTail)

/-- What `_InitHeapEntry` returns: the heap, where the entry was placed, and the address behind it, or
    0 if the space is too small. -/
structure Placed where
  heap : Heap
  heapEntry : Nat
  tempAddress : Nat

/-- Write a new entry into a free space that starts at `heapEntry` (C `_InitHeapEntry`). -/
def initHeapEntry (h : Heap) (heapEntry tag size alignment : Nat) (addToLinkedList : Bool)
    (sizeAvailable : Nat) : Placed :=
  let unalignedDataAddress := wadd 64 heapEntry sizeofHeapEntry
  let dataAddress := alignAddressUpper unalignedDataAddress alignment
  let heapEntrySize := (size + sizeofHeapEntry + sizeofHeapTail) % 2 ^ 32
  if sizeAvailable < wadd 64 (wsub 64 dataAddress unalignedDataAddress) heapEntrySize then
    ⟨h, heapEntry, 0⟩
  else
    -- the entry comes just before the aligned data
    let e := wsub 64 dataAddress sizeofHeapEntry
    let w := writeHeapEntry h.mem h.heapAllocations e dataAddress tag size addToLinkedList
    ⟨{ h with
        mem := w.1
        heapSizeRemaining := wsub 64 h.heapSizeRemaining heapEntrySize
        heapNumberOfAllocations := wadd 64 h.heapNumberOfAllocations 1 },
      e, wadd 64 w.2 sizeofHeapTail⟩

/-- The loop of `ClHeapAllocatePoolWithTag` over the spaces between two entries. `prevHeap` and
    `curHeap` keep their values when an iteration is skipped because the list head is met. -/
def searchSpaces (h : Heap) (size tag alignment : Nat) : Nat → Nat → Nat → Nat → Nat → Exec (Option (Heap × Nat))
  | 0, _, _, _, _ => throw .fuel
  | fuel + 1, prev, prevHeap, cur, curHeap => do
    if h.entryToRestartSearch = cur then pure none
    else if cur = h.heapAllocations ∨ prev = h.heapAllocations then
      searchSpaces h size tag alignment fuel cur curHeap (flink h.mem cur) curHeap
    else
      ensure (0 ≠ prevHeap)
      let curHeap := containingHeapEntry cur
      let startAddress := entryEnd h.mem prevHeap
      let sizeBetweenEntries := wsub 64 curHeap startAddress
      if (size + sizeofHeapEntry + sizeofHeapTail : Int) ≤ sint 64 sizeBetweenEntries then
        let p := initHeapEntry h startAddress tag size alignment false sizeBetweenEntries
        if p.tempAddress = 0 then
          searchSpaces h size tag alignment fuel cur curHeap (flink h.mem cur) curHeap
        else
          let valid ← validateHeapEntry p.heap.mem prevHeap (entryTag p.heap.mem prevHeap)
          ensure (valid = true)
          pure (some ({ p.heap with
            mem := insertHeadList p.heap.mem prev (listEntry p.heapEntry)
            entryToRestartSearch := listEntry p.heapEntry }, p.heapEntry))
      else searchSpaces h size tag alignment fuel cur curHeap (flink h.mem cur) curHeap

def searchFromRestart (fuel : Nat) (h : Heap) (size tag alignment : Nat) : Exec (Option (Heap × Nat)) := do
  ensure (isListEmpty h.mem h.heapAllocations = false)
  let prev := flink h.mem h.entryToRestartSearch
  searchSpaces h size tag alignment fuel prev (containingHeapEntry prev) (flink h.mem prev) 0

/-- Place an entry, at the end of the heap or between two entries: `ClHeapAllocatePoolWithTag` up to
    its `__finally`. -/
def allocateEntry (fuel : Nat) (h : Heap) (size tag allocationAlignment : Nat) : Exec (Option (Heap × Nat)) :=
  if size = 0 then pure none
  else if tag = 0 then pure none
  else
    let alignment := if allocationAlignment = 0 then heapDefaultAlignment else allocationAlignment
    let sizeRequired := size + sizeofHeapEntry + sizeofHeapTail
    if sizeRequired > h.heapSizeRemaining then pure none
    else
      let remainingSizeUntilEnd := wsub 64
        (wsub 64 (wadd 64 h.baseAddress h.heapSizeMaximum) h.freeAddress) sizeofHeapEntry
      let p := if (sizeRequired : Int) ≤ sint 64 remainingSizeUntilEnd then
          initHeapEntry h h.freeAddress tag size alignment true remainingSizeUntilEnd
        else ⟨h, h.freeAddress, 0⟩
      if p.tempAddress ≠ 0 then
        pure (some ({ p.heap with freeAddress := p.tempAddress }, p.heapEntry))
      else
        let remainingSizeBeforeCurrent := wsub 64
          (wsub 64 h.heapSizeRemaining remainingSizeUntilEnd) sizeofHeapEntry
        if (sizeRequired : Int) > sint 64 remainingSizeBeforeCurrent then pure none
        else searchFromRestart fuel h size tag alignment

/-- Allocate memory; the address is 0 if there is no room (C `ClHeapAllocatePoolWithTag`). -/
def clHeapAllocatePoolWithTag (fuel : Nat) (h : Heap) (flags allocationSize tag
    allocationAlignment : Nat) : Exec (Heap × Nat) := do
  match ← allocateEntry fuel h allocationSize tag allocationAlignment with
  | none =>
    if isFlagOn flags poolAllocatePanicIfFail then throw .demanded
    else pure (h, 0)
  | some (h', e) =>
    let mappedAddress := wadd 64 e (entryOffset h'.mem e)
    if isFlagOn flags poolAllocatePanicIfFail then ensure (0 ≠ mappedAddress)
    if isFlagOn flags poolAllocateZeroMemory then
      pure ({ h' with mem := fill h'.mem mappedAddress allocationSize 0 }, mappedAddress)
    else pure (h', mappedAddress)

/-- Where the entry before this one ends, or where the entries start. -/
def endOfPrevious (h : Heap) (e : Nat) : Nat :=
  if blink h.mem (listEntry e) = h.heapAllocations then wadd 64 h.baseAddress sizeofHeapHeader
  else entryEnd h.mem (containingHeapEntry (blink h.mem (listEntry e)))

/-- Free an allocation (C `ClHeapFreePoolWithTag`). -/
def clHeapFreePoolWithTag (h : Heap) (memoryAddress tag : Nat) : Exec Heap := do
  ensure (0 ≠ memoryAddress)
  ensure (0 ≠ tag)
  let e := wsub 64 memoryAddress sizeofHeapEntry
  let endAddress := wadd 64 memoryAddress (entrySize h.mem e + sizeofHeapTail)
  let valid ← validateHeapEntry h.mem e tag
  ensure (valid = true)
  let previousAddress := endOfPrevious h e
  let m := (removeEntryList h.mem (listEntry e)).1
  let heapEntrySize := entrySize m e + sizeofHeapEntry + sizeofHeapTail
  ensure (heapEntrySize ≤ maxDword)
  pure { h with
    mem := fill m e heapEntrySize heapFreePattern
    heapSizeRemaining := wadd 64 h.heapSizeRemaining heapEntrySize
    heapNumberOfAllocations := wsub 64 h.heapNumberOfAllocations 1
    freeAddress := if endAddress = h.freeAddress then previousAddress else h.freeAddress }

end HAL9000.ClHeap
