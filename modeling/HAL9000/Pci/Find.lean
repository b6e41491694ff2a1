import HAL9000.CommonLib.Base

/-!
# Finding PCI devices

Port of the two searches of `HAL9000/src/pci_system.c`. They differ in the filter only. A search walks the
list of devices and stores each match in the caller's array; the entries of the array that were written are
the ones that are not `none`. The checks for null pointers are left out.

The capacity is compared with the number of devices found by `>`, so the match that no longer fits is
still stored, one entry behind the array.
-/

namespace HAL9000.Pci
open Lib

/-- What a device is (C `PCI_DESCRIPTION`). -/
structure PciDescription where
  vendorId : Nat
  deviceId : Nat
  subclass : Nat
  classCode : Nat
deriving DecidableEq, Repr

/-- Where a device is (C `PCI_DEVICE_LOCATION`). -/
structure PciDeviceLocation where
  bus : Nat
  device : Nat
  function : Nat
deriving DecidableEq, Repr

/-- A device of the list: what its header says, and where it is (C `PCI_DEVICE_DESCRIPTION`). -/
structure PciDevice where
  header : PciDescription
  deviceLocation : PciDeviceLocation
deriving DecidableEq, Repr

/-- A filter by what a device is (C `PCI_SPEC`). -/
structure PciSpec where
  description : PciDescription
  matchClass : Bool
  matchSubclass : Bool
  matchVendor : Bool
  matchDevice : Bool

/-- A filter by where a device is (C `PCI_SPEC_LOCATION`). -/
structure PciSpecLocation where
  location : PciDeviceLocation
  matchBus : Bool
  matchDevice : Bool
  matchFunction : Bool

def PciSpec.accepts (s : PciSpec) (d : PciDevice) : Bool :=
  (!s.matchClass || d.header.classCode == s.description.classCode) &&
  (!s.matchSubclass || d.header.subclass == s.description.subclass) &&
  (!s.matchVendor || d.header.vendorId == s.description.vendorId) &&
  (!s.matchDevice || d.header.deviceId == s.description.deviceId)

def PciSpecLocation.accepts (s : PciSpecLocation) (d : PciDevice) : Bool :=
  (!s.matchBus || d.deviceLocation.bus == s.location.bus) &&
  (!s.matchDevice || d.deviceLocation.device == s.location.device) &&
  (!s.matchFunction || d.deviceLocation.function == s.location.function)

/-- What a search returns, with the entries it has written. -/
structure Found where
  status : Status
  numberOfDevices : Nat
  pciDevices : Nat → Option PciDevice

section Search

variable (accepts : PciDevice → Bool) (hasArray : Bool) (capacity : Nat)

/-- The loop of a search, from a number of devices found on. -/
def findFrom : List PciDevice → Nat → (Nat → Option PciDevice) → Found
  | [], n, array => ⟨if 0 ≠ n then .success else .elementNotFound, n, array⟩
  | d :: ds, n, array =>
    if accepts d then
      if hasArray then
        if n > capacity then
          ⟨.bufferTooSmall, capacity, array⟩
        else
          findFrom ds (wadd 32 n 1) (Function.update array n (some d))
      else
        findFrom ds (wadd 32 n 1) array
    else
      findFrom ds n array

/-- A search, with or without an array for its results; `numberOfDevices` is the capacity of the array. -/
def pciSystemFindDevices (pciDeviceList : List PciDevice) : Found :=
  findFrom accepts hasArray capacity pciDeviceList 0 fun _ => none

end Search

/-- C `PciSystemFindDevicesMatchingSpecification`. -/
def pciSystemFindDevicesMatchingSpecification (pciDeviceList : List PciDevice) (specification : PciSpec)
    (hasArray : Bool) (numberOfDevices : Nat) : Found :=
  pciSystemFindDevices specification.accepts hasArray numberOfDevices pciDeviceList

/-- C `PciSystemFindDevicesMatchingLocation`. -/
def pciSystemFindDevicesMatchingLocation (pciDeviceList : List PciDevice) (specification : PciSpecLocation)
    (hasArray : Bool) (numberOfDevices : Nat) : Found :=
  pciSystemFindDevices specification.accepts hasArray numberOfDevices pciDeviceList

/-- What the searches are for: nothing is written behind the array, on success it holds the matching devices
    in order, and the buffer is too small exactly when they do not fit. -/
structure Lists (found : Found) (matching : List PciDevice) (capacity : Nat) : Prop where
  inside : ∀ i, capacity ≤ i → found.pciDevices i = none
  success : found.status = .success →
    found.numberOfDevices = matching.length ∧ ∀ i, found.pciDevices i = matching[i]?
  tooSmall : found.status = .bufferTooSmall ↔ capacity < matching.length

variable {accepts : PciDevice → Bool} {capacity n : Nat} {ds : List PciDevice}
  {array : Nat → Option PciDevice}

lemma findFrom_fits (pre : List PciDevice) (hn : n = pre.length) (ha : ∀ i, array i = pre[i]?)
    (hc : capacity < 2 ^ 32) (h : (pre ++ ds.filter accepts).length ≤ capacity) :
    Lists (findFrom accepts true capacity ds n array) (pre ++ ds.filter accepts) capacity := by
  induction ds generalizing pre n array with
  | nil =>
    simp only [List.filter_nil, List.append_nil] at h ⊢
    refine ⟨fun i hi => ?_, fun _ => ⟨hn, ha⟩, iff_of_false ?_ (by omega)⟩
    · exact (ha i).trans (List.getElem?_eq_none (by omega))
    · unfold findFrom
      split <;> simp
  | cons d ds ih =>
    by_cases hd : accepts d = true
    · rw [List.filter_cons_of_pos hd, List.append_cons] at h ⊢
      have hlen : n + 1 ≤ capacity := by
        simp only [List.length_append, List.length_singleton] at h
        omega
      have hw : wadd 32 n 1 = n + 1 := Nat.mod_eq_of_lt (by omega)
      rw [findFrom, if_pos hd, if_pos rfl, if_neg (by omega)]
      refine ih _ (by rw [hw, hn, List.length_append]; rfl) (fun i => ?_) h
      rw [List.getElem?_append, List.getElem?_singleton, Function.update_apply, ha]
      grind
    · rw [List.filter_cons_of_neg hd] at h ⊢
      rw [findFrom, if_neg hd]
      exact ih _ hn ha h

lemma findFrom_keeps (h : array capacity ≠ none) :
    (findFrom accepts true capacity ds n array).pciDevices capacity ≠ none := by
  induction ds generalizing n array with
  | nil => exact h
  | cons d ds ih =>
    unfold findFrom
    split
    · rw [if_pos rfl]
      split
      · exact h
      · refine ih ?_
        rw [Function.update_apply]
        split <;> simp [h]
    · exact ih h

lemma findFrom_behind (hc : capacity < 2 ^ 32) (hn : n ≤ capacity) (h : capacity < n + (ds.filter accepts).length) :
    (findFrom accepts true capacity ds n array).pciDevices capacity ≠ none := by
  induction ds generalizing n array with
  | nil => simp at h; omega
  | cons d ds ih =>
    by_cases hd : accepts d = true
    · rw [List.filter_cons_of_pos hd, List.length_cons] at h
      rw [findFrom, if_pos hd, if_pos rfl, if_neg (by omega)]
      by_cases he : n = capacity
      · exact findFrom_keeps (by simp [he])
      · have hw : wadd 32 n 1 = n + 1 := Nat.mod_eq_of_lt (by omega)
        exact ih (by omega) (by omega)
    · rw [List.filter_cons_of_neg hd] at h
      rw [findFrom, if_neg hd]
      exact ih hn h

lemma lists_iff (accepts : PciDevice → Bool) (ds : List PciDevice) (hc : capacity < 2 ^ 32) :
    Lists (pciSystemFindDevices accepts true capacity ds) (ds.filter accepts) capacity ↔
      (ds.filter accepts).length ≤ capacity := by
  constructor
  · intro h
    by_contra hlt
    exact findFrom_behind hc (Nat.zero_le _) (by omega) (h.inside capacity (le_refl _))
  · intro h
    exact findFrom_fits [] rfl (by simp) hc h

/-- A search into an array does what it is for if and only if the matching devices fit. -/
theorem pciSystemFindDevices_lists_iff (devices : List PciDevice) (specification : PciSpec)
    (location : PciSpecLocation) (capacity : Nat) (hc : capacity ≤ maxDword) :
    (Lists (pciSystemFindDevicesMatchingSpecification devices specification true capacity)
        (devices.filter specification.accepts) capacity ↔
      (devices.filter specification.accepts).length ≤ capacity) ∧
    (Lists (pciSystemFindDevicesMatchingLocation devices location true capacity)
        (devices.filter location.accepts) capacity ↔
      (devices.filter location.accepts).length ≤ capacity) :=
  ⟨lists_iff _ _ (Nat.lt_succ_of_le hc), lists_iff _ _ (Nat.lt_succ_of_le hc)⟩

def anyDevice : PciDevice := ⟨⟨0x8086, 0x10D3, 0, 2⟩, ⟨0, 3, 0⟩⟩

def anySpec : PciSpec := ⟨anyDevice.header, false, false, false, false⟩

/-- Two devices and an array for one: both are written, and the search succeeds. -/
theorem pciSystemFindDevices_one_behind :
    let found := pciSystemFindDevicesMatchingSpecification [anyDevice, anyDevice] anySpec true 1
    found.status = .success ∧ found.numberOfDevices = 2 ∧ found.pciDevices 1 = some anyDevice := by
  decide

/-- Two devices and an array for two. -/
theorem pciSystemFindDevices_fits :
    Lists (pciSystemFindDevicesMatchingSpecification [anyDevice, anyDevice] anySpec true 2)
      [anyDevice, anyDevice] 2 :=
  ((pciSystemFindDevices_lists_iff [anyDevice, anyDevice] anySpec
    ⟨anyDevice.deviceLocation, false, false, false⟩ 2 (by decide)).1).mpr (by decide)

end HAL9000.Pci
