import HAL9000.CommonLib.Base

/-!
# Page tables: the code

Port of `HAL/src/pte.c` and of the page walk of `HAL9000/src/vmm.c`: `_VmWalkPagingTables`, its three
callbacks `_VmMapPage`, `_VmUnmapPage`, `_VmRetrievePhyAccess`, and the functions built on them.

Physical memory is seen as paging-structure entries, indexed by the physical address of the entry.
The code reaches it through `PA2VA`, which adds one fixed offset to every physical address; the
offset is dropped here. TLB invalidation has no effect on the tables and is left out, and so are the
reserved and ignored bits of an entry, which no modelled function reads.
-/

namespace HAL9000.Paging
open Lib

/-- A 64-bit paging-structure entry (C `PT_ENTRY`). Bit 7 is `PAT` in the last level and `PageSize`
    in the levels above (C `PD_ENTRY_PT`). -/
structure PtEntry where
  present : Bool := false
  readWrite : Bool := false
  userSupervisor : Bool := false
  pwt : Bool := false
  pcd : Bool := false
  accessed : Bool := false
  dirty : Bool := false
  pat : Bool := false
  global : Bool := false
  physicalAddress : BitVec 40 := 0
  xd : Bool := false
deriving DecidableEq, Repr

/-- How an entry is to be mapped (C `PTE_MAP_FLAGS`). -/
structure PteMapFlags where
  patIndex : BitVec 3 := 0
  writable : Bool := false
  executable : Bool := false
  pagingStructure : Bool := false
  userAccess : Bool := false
  globalPage : Bool := false

/-- Physical memory, by the physical address of an entry. -/
abbrev PhysMem := Nat → PtEntry

/-- The entry that maps a physical address (C `PteMap`). -/
def pteMap (physicalAddress : Nat) (flags : PteMapFlags) : PtEntry where
  present := true
  readWrite := flags.writable
  xd := !flags.executable
  userSupervisor := flags.userAccess
  pat := !flags.pagingStructure && flags.patIndex.getLsbD 2
  pcd := !flags.pagingStructure && flags.patIndex.getLsbD 1
  pwt := !flags.pagingStructure && flags.patIndex.getLsbD 0
  global := !flags.pagingStructure && flags.globalPage
  physicalAddress := BitVec.ofNat 40 (physicalAddress >>> 12)

/-- The zeroed entry (C `PteUnmap`). -/
def pteUnmap : PtEntry := {}

/-- The 4 KB frame or table an entry points at (C `PteGetPhysicalAddress`). -/
def pteGetPhysicalAddress (e : PtEntry) : Nat := e.physicalAddress.toNat <<< 12

/-- The 2 MB frame an entry points at (C `PteLargePageGetPhysicalAddress`). -/
def pteLargePageGetPhysicalAddress (e : PtEntry) : Nat := (e.physicalAddress.toNat >>> 9) <<< 21

def setEntry (mem : PhysMem) (addr : Nat) (e : PtEntry) : PhysMem :=
  fun a => if a = addr then e else mem a

/-- Zero a whole frame (C `memzero(.., PAGE_SIZE)`). -/
def zeroFrame (mem : PhysMem) (addr : Nat) : PhysMem :=
  fun a => if addr ≤ a ∧ a < addr + pageSize then {} else mem a

/-- Where the paging structures are taken from (C `PAGING_DATA`). -/
structure PagingData where
  basePhysicalAddress : Nat
  numberOfFrames : Nat
  currentIndex : Nat
  kernelSpace : Bool
deriving DecidableEq, Repr

/-- The caching indices found in the PAT (C `VMM_DATA`). -/
structure VmmData where
  writeBackIndex : Nat
  uncacheableIndex : Nat

/-- The tables, their frame pool, and the frames handed back to `MmuReleaseMemory`. -/
structure PagingState where
  mem : PhysMem
  data : PagingData
  released : List Nat := []

/-- Index of a virtual address into the tables of one level (C `MASK_PML4_OFFSET` and its
    siblings: `(va >> shift) & 0x1FF`). -/
def maskOffset (shift va : Nat) : Fin 512 := Fin.ofNat 512 (va >>> shift)

/-- The levels of the walk with their offsets (C `offsets` of `_VmWalkPagingTables`). -/
def walkLevels (va : Nat) : List (Nat × Fin 512) :=
  [(1, maskOffset 39 va), (2, maskOffset 30 va), (3, maskOffset 21 va), (4, maskOffset 12 va)]

def pagingTablesFirstLevel : Nat := 1

def pagingTablesLastLevel : Nat := 4

/-- The callback of a walk: address of the entry, virtual address, level; `false` ends the walk of
    this page (C `FUNC_PageWalkCallback`). -/
abbrev PageWalkCallback (σ : Type) := Nat → Nat → Nat → σ → Exec (σ × Bool)

section Walk

variable {σ : Type} (memOf : σ → PhysMem) (walkCallback : PageWalkCallback σ)

/-- One page of the walk: down the levels until the callback ends it (inner loop of C
    `_VmWalkPagingTables`). -/
def vmWalkPage (va : Nat) : List (Nat × Fin 512) → Nat → σ → Exec σ
  | [], _, s => pure s
  | (level, offset) :: rest, curStructPa, s => do
    let pCurrentEntry := curStructPa + 8 * offset.val
    let (s, bContinue) ← walkCallback pCurrentEntry va level s
    if bContinue then
      if level ≠ pagingTablesLastLevel then
        ensure ((memOf s pCurrentEntry).pat = false)
      vmWalkPage va rest (pteGetPhysicalAddress (memOf s pCurrentEntry)) s
    else
      pure s

/-- Base of the top table named by a CR3 value (C `Cr3.Pcide.PhysicalAddress << 12`). -/
def pml4Base (cr3 : Nat) : Nat := (cr3 / 2 ^ 12 % 2 ^ 40) * 2 ^ 12

/-- Walk every page of a range (C `_VmWalkPagingTables`). -/
def vmWalkPagingTables (cr3 baseAddress size : Nat) (s : σ) : Exec σ :=
  (List.range ((size + (pageSize - 1)) / pageSize)).foldlM
    (fun s i =>
      let currentVa := wadd 64 baseAddress (i * pageSize)
      vmWalkPage memOf walkCallback currentVa (walkLevels currentVa) (pml4Base cr3) s) s

end Walk

/-- The next unused frame for a paging structure
    (C `_VmRetrieveNextPhysicalAddressForPagingStructure`). The product is computed in 32 bits. -/
def vmRetrieveNextPhysicalAddressForPagingStructure (data : PagingData) : Exec (Nat × PagingData) := do
  ensure (data.currentIndex < data.numberOfFrames)
  let nextAddress := wadd 64 data.basePhysicalAddress (data.currentIndex * pageSize % 2 ^ 32)
  pure (nextAddress, { data with currentIndex := (data.currentIndex + 1) % 2 ^ 32 })

/-- Map a fresh zeroed table (C `_VmSetupPagingStructure`). -/
def vmSetupPagingStructure (pagingStructure : Nat) (s : PagingState) : Exec PagingState := do
  let (physicalAddr, data) ← vmRetrieveNextPhysicalAddressForPagingStructure s.data
  let flags : PteMapFlags :=
    { writable := true, executable := true, pagingStructure := true,
      userAccess := !s.data.kernelSpace }
  let mem := setEntry s.mem pagingStructure (pteMap physicalAddr flags)
  pure { s with mem := zeroFrame mem physicalAddr, data := data }

/-- What a mapping walk carries (C `VMM_MAP_UNMAP_PAGE_WALK_CONTEXT`). -/
structure MapContext where
  physicalAddressBase : Nat
  virtualAddressBase : Nat
  pageRights : Nat
  invalidate : Bool
  uncacheable : Bool

def pageRightsWrite : Nat := 1

def pageRightsExecute : Nat := 2

/-- The entry a mapping walk stores in the last level. -/
def mappedEntry (vmm : VmmData) (ctx : MapContext) (kernelSpace : Bool) (va : Nat) : PtEntry :=
  let physAddr := wadd 64 ctx.physicalAddressBase (wsub 64 va ctx.virtualAddressBase)
  pteMap physAddr
    { executable := isBooleanFlagOn ctx.pageRights pageRightsExecute
      writable := isBooleanFlagOn ctx.pageRights pageRightsWrite
      patIndex := BitVec.ofNat 3 (if ctx.uncacheable then vmm.uncacheableIndex else vmm.writeBackIndex)
      globalPage := kernelSpace
      userAccess := !kernelSpace }

/-- Map one level of one page (C `_VmMapPage`). -/
def vmMapPage (vmm : VmmData) (ctx : MapContext) : PageWalkCallback PagingState :=
  fun pageTable va level s => do
    ensure (va ≠ 0)
    ensure (pagingTablesFirstLevel ≤ level ∧ level ≤ pagingTablesLastLevel)
    if (s.mem pageTable).present && !(level == pagingTablesLastLevel && ctx.invalidate) then
      pure (s, true)
    else if level = pagingTablesLastLevel then
      let entry := mappedEntry vmm ctx s.data.kernelSpace va
      pure ({ s with mem := setEntry s.mem pageTable entry }, true)
    else
      let s ← vmSetupPagingStructure pageTable s
      pure (s, true)

/-- Unmap one level of one page (C `_VmUnmapPage`). -/
def vmUnmapPage (releaseMemory : Bool) : PageWalkCallback PagingState :=
  fun pageTable va level s => do
    ensure (va ≠ 0)
    ensure (pagingTablesFirstLevel ≤ level ∧ level ≤ pagingTablesLastLevel)
    if !(s.mem pageTable).present then
      pure (s, false)
    else if level = pagingTablesLastLevel then
      let pa := pteGetPhysicalAddress (s.mem pageTable)
      pure ({ s with
        mem := setEntry s.mem pageTable pteUnmap
        released := if releaseMemory then s.released ++ [pa] else s.released }, true)
    else
      pure (s, true)

/-- What a lookup walk carries (C `VMM_RETRIEVE_PHYS_ACCESS_PAGE_WALK_CONTEXT`). -/
structure PhysAccess where
  mem : PhysMem
  physicalAddress : Nat := 0
  accessed : Bool := false
  dirty : Bool := false

/-- Read back, and clear if asked to, the accessed and dirty bits of the entry that maps the page
    (the `__finally` block of C `_VmRetrievePhyAccess`). -/
def clearAccessBits (clearAccessed clearDirty : Bool) (pageTable : Nat) (s : PhysAccess) :
    PhysAccess :=
  let e := s.mem pageTable
  { s with
    accessed := e.accessed
    dirty := e.dirty
    mem := setEntry s.mem pageTable
      { e with accessed := !clearAccessed && e.accessed, dirty := !clearDirty && e.dirty } }

/-- Look up one level of one page (C `_VmRetrievePhyAccess`). -/
def vmRetrievePhyAccess (clearAccessed clearDirty : Bool) : PageWalkCallback PhysAccess :=
  fun pageTable va level s => do
    ensure (va ≠ 0)
    ensure (pagingTablesFirstLevel ≤ level ∧ level ≤ pagingTablesLastLevel)
    let e := s.mem pageTable
    if !e.present then
      pure ({ s with physicalAddress := 0 }, false)
    else if level < pagingTablesLastLevel - 1 then
      pure (s, true)
    else if level = pagingTablesLastLevel - 1 then
      if e.pat then
        let pa := wadd 64 (pteLargePageGetPhysicalAddress e) (va % 2 ^ 21)
        pure (clearAccessBits clearAccessed clearDirty pageTable { s with physicalAddress := pa }, false)
      else
        pure (s, true)
    else
      let pa := pteGetPhysicalAddress e
      pure (clearAccessBits clearAccessed clearDirty pageTable { s with physicalAddress := pa }, false)

/-- Map a range of physical memory at a virtual address (C `VmmMapMemoryInternal`). -/
def vmmMapMemoryInternal (vmm : VmmData) (s : PagingState) (physicalAddress size baseAddress : Nat)
    (pageRights : Nat) (invalidate uncacheable : Bool) : Exec PagingState := do
  ensure (isAddressAligned physicalAddress pageSize)
  ensure (0 ≠ size ∧ isAddressAligned size pageSize)
  let ctx : MapContext :=
    { physicalAddressBase := physicalAddress, virtualAddressBase := baseAddress,
      pageRights := pageRights, invalidate := invalidate, uncacheable := uncacheable }
  vmWalkPagingTables PagingState.mem (vmMapPage vmm ctx) s.data.basePhysicalAddress baseAddress size s

/-- Unmap a range (C `VmmUnmapMemoryEx`). -/
def vmmUnmapMemoryEx (cr3 : Nat) (s : PagingState) (virtualAddress size : Nat)
    (releaseMemory : Bool) : Exec PagingState :=
  if virtualAddress = 0 ∨ ¬ isAddressAligned virtualAddress pageSize then
    pure s
  else if 0 = size ∨ ¬ isAddressAligned size pageSize then
    pure s
  else
    vmWalkPagingTables PagingState.mem (vmUnmapPage releaseMemory) cr3 virtualAddress size s

/-- Translate a page; `accessed` and `dirty` say whether the caller wants these bits, in which case
    they are also cleared (C `VmmGetPhysicalAddressEx`). -/
def vmmGetPhysicalAddressEx (cr3 : Nat) (mem : PhysMem) (virtualAddress : Nat)
    (accessed dirty : Bool) : Exec PhysAccess := do
  ensure (virtualAddress ≠ 0)
  ensure (isAddressAligned virtualAddress pageSize)
  vmWalkPagingTables PhysAccess.mem (vmRetrievePhyAccess accessed dirty) cr3 virtualAddress pageSize
    { mem := mem }

end HAL9000.Paging
