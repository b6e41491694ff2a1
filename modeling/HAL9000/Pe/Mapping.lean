import HAL9000.Paging.Model
import HAL9000.Pe.Parser

/-!
# Mapping an executable

Port of `_MmuMapPeInMemory` of `HAL9000/src/mmu.c`. The image is in the buffer already; its pages are mapped
a second time from `addressToMap` on, with the rights of the sections that are in them. What the page tables
translate is seen as a map from the addresses of pages to frames and rights (`VmmMapMemoryInternal` is called
with `Invalidate`, so a page that is mapped already is mapped anew).

A section is mapped when the page it starts in is complete: `remaining` is what is missing to the end of
that page and `prevSectionRequiredRights` are the rights of the sections that are waiting for it.
-/

namespace HAL9000.Pe
open Lib Paging

def pageRightsRead : Nat := 0

def imageScnMemExecute : Nat := 0x20000000

def imageScnMemRead : Nat := 0x40000000

def imageScnMemWrite : Nat := 0x80000000

/-- A mapped page. -/
structure Mapping where
  frame : Nat
  rights : Nat
deriving DecidableEq, Repr

abbrev Pages := Nat → Option Mapping

def SectionInfo.rights (s : SectionInfo) : Nat :=
  (if isBooleanFlagOn s.characteristics imageScnMemRead then pageRightsRead else 0) |||
  (if isBooleanFlagOn s.characteristics imageScnMemWrite then pageRightsWrite else 0) |||
  (if isBooleanFlagOn s.characteristics imageScnMemExecute then pageRightsExecute else 0)

/-- The size of a section in memory: a `DWORD`. -/
def NtHeaderInfo.sectionSize (info : NtHeaderInfo) (s : SectionInfo) : Nat :=
  alignAddressUpper s.size info.imageAlignment % 2 ^ 32

/-- The local variables of the loop over the sections. -/
structure MapState where
  pages : Pages
  prevSectionRequiredRights : Nat
  remaining : Nat
  sectionSize : Nat
  pAlignedAddress : Nat

section
/-! `MmuGetPhysicalAddress` and the parameters `AddressToMap` and `HeaderInfo`. -/
variable (mmuGetPhysicalAddress : Nat → Nat) (addressToMap : Nat) (info : NtHeaderInfo)

/-- Map a page of the image (the calls of `VmmMapMemoryInternal`). -/
def mapImagePage (rights page : Nat) (pages : Pages) : Exec Pages := do
  let pa := mmuGetPhysicalAddress (wadd 64 info.imageBase (wsub 64 page addressToMap))
  ensure (isAddressAligned pa pageSize)
  ensure (page ≠ 0)
  pure fun p => if p = page then some ⟨pa, rights⟩ else pages p

/-- Map page after page, as long as there are more. -/
def mapWhile (more : Nat → Bool) (rights : Nat) : Nat → Nat → Pages → Exec Pages
  | 0, _, _ => throw .fuel
  | fuel + 1, page, pages => do
    if more page then
      let pages ← mapImagePage mmuGetPhysicalAddress addressToMap info rights page pages
      mapWhile more rights fuel (wadd 64 page pageSize) pages
    else pure pages

/-- No image has more pages: sizes are `DWORD`s. -/
def maxPages : Nat := 2 ^ 20 + 1

def mapHeaders (pages : Pages) : Exec Pages :=
  let last := wsub 64 (wadd 64 addressToMap info.sizeOfHeaders) pageSize
  mapWhile mmuGetPhysicalAddress addressToMap info (fun page => decide (page < last)) pageRightsRead
    maxPages addressToMap pages

/-- The page that a section shares with the sections before it. -/
def mapSharedPage (rights : Nat) (st : MapState) : Exec MapState := do
  if 0 ≠ st.remaining then
    let pages ← mapImagePage mmuGetPhysicalAddress addressToMap info
      (st.prevSectionRequiredRights ||| rights) st.pAlignedAddress st.pages
    pure { st with
      pages := pages
      pAlignedAddress := wadd 64 st.pAlignedAddress pageSize
      sectionSize := wsub 32 st.sectionSize st.remaining }
  else pure st

def mapWholePages (rights : Nat) (st : MapState) : Exec MapState := do
  let stop := wadd 64 st.pAlignedAddress st.sectionSize
  let pages ← mapWhile mmuGetPhysicalAddress addressToMap info
    (fun page => decide (wadd 64 page pageSize ≤ stop)) rights maxPages st.pAlignedAddress st.pages
  pure { st with
    pages := pages
    remaining := pageSize - addressOffset st.sectionSize pageSize
    prevSectionRequiredRights := rights }

def mapSection (s : SectionInfo) (st : MapState) : Exec MapState := do
  ensure (¬ isBooleanFlagOn s.rights (pageRightsWrite ||| pageRightsExecute))
  if info.sectionSize s < st.remaining then
    -- the page is not complete yet
    pure { st with
      sectionSize := info.sectionSize s
      remaining := st.remaining - info.sectionSize s
      prevSectionRequiredRights := st.prevSectionRequiredRights ||| s.rights }
  else
    let pAlignedAddress :=
      alignAddressLower (wadd 64 addressToMap (wsub 64 s.baseAddress info.imageBase)) pageSize
    let st ← mapSharedPage mmuGetPhysicalAddress addressToMap info s.rights
      { st with sectionSize := info.sectionSize s, pAlignedAddress := pAlignedAddress }
    mapWholePages mmuGetPhysicalAddress addressToMap info s.rights st

/-- The next `n` sections, from the one with index `i` on. -/
def mapSections (m : Image) : Nat → Nat → MapState → Exec (Status × MapState)
  | 0, _, st => pure (.success, st)
  | n + 1, i, st => do
    match ← peRetrieveSection m info i with
    | .error status => pure (status, st)
    | .ok s =>
      let st ← mapSection mmuGetPhysicalAddress addressToMap info s st
      mapSections m n (i + 1) st

/-- C `_MmuMapPeInMemory`. -/
def mmuMapPeInMemory (m : Image) (pages : Pages) : Exec (Status × Pages) := do
  ensure (isAddressAligned info.imageBase pageSize)
  ensure (addressToMap ≠ 0)
  ensure (isAddressAligned addressToMap pageSize)
  if info.fileAlignment ≠ info.imageAlignment then pure (.notImplemented, pages)
  else
    let pages ← mapHeaders mmuGetPhysicalAddress addressToMap info pages
    let (status, st) ← mapSections mmuGetPhysicalAddress addressToMap info m info.numberOfSections 0
      { pages := pages
        prevSectionRequiredRights := pageRightsRead
        remaining := pageSize - addressOffset info.sizeOfHeaders pageSize
        sectionSize := 0
        pAlignedAddress := 0 }
    if status ≠ .success then pure (status, st.pages)
    else if st.sectionSize ≠ 0 then
      let pages ← mapImagePage mmuGetPhysicalAddress addressToMap info st.prevSectionRequiredRights
        st.pAlignedAddress st.pages
      pure (.success, pages)
    else pure (.success, st.pages)

end

end HAL9000.Pe
