import HAL9000.Lib.Exec
import HAL9000.Lib.Word

/-!
# Common macros

Port of the macros of `CommonLib/inc/base.h` that the modelled code uses. Addresses, sizes and
`QWORD`s are naturals; every operation that can wrap around in C wraps around here. `ASSERT` is
`Lib.ensure`: a failed assertion stops the system, so it stops the call.
-/

namespace HAL9000
open Lib

/-- The outcomes of the modelled functions (C `STATUS`). -/
inductive Status where
  | success
  | unsuccessful
  | invalidParameter1
  | invalidParameter2
  | invalidParameter3
  | invalidParameter4
  | invalidParameter5
  | invalidParameter6
  | invalidParameter7
  | invalidParameter8
  | invalidBuffer
  | invalidFunction
  | invalidMzImage
  | invalidPeImage
  | invalidImageSize
  | unsupported
  | notImplemented
  | elementNotFound
  | heapTooSmall
  | diskMbrNotPresent
  | diskFull
  | deviceSectorOffsetExceeded
  | deviceSectorCountExceeded
  | deviceNotInitialized
  | deviceDataAlignmentError
  | deviceAlignmentNoSatisfied
  | deviceFilesystemUnsupported
  | deviceClusterInvalid
  | fileNotFound
  | fileTypeInvalid
  | fileAlreadyExists
  | invalidFileName
  | pathNotValid
  | timeInvalid
  | bufferTooSmall
  | parseFailed
  | memoryCannotBeReserved
  | memoryAlreadyReserved
  | memoryIsNotReserved
  | memoryIsNotCommited
  | memoryConflictingAccessRights
  | memoryConflictingCacheability
  | memoryInsufficientAccessRights
  | memoryPreventsUsermodeAccess
  | heapInsufficientResources
  | bufferTooLarge
  | deviceDmaPhysicalAddressTooHigh
  | deviceDmaPhysicalSpanTooLarge
  | deviceDisabled
  | deviceNotConnected
  | deviceCouldNotBeCreated
  | deviceDoesNotExist
  | deviceInterruptNotConfigured
  | deviceInterruptPriorityNotAvailable
  | deviceInterruptNotAvailable
  | alreadyInitialized
deriving DecidableEq, Repr

/-- States of a thread (C `THREAD_STATE`). -/
inductive ThreadState where
  | running
  | ready
  | blocked
  | dying
deriving DecidableEq, Repr

def pageSize : Nat := 0x1000

def maxWord : Nat := 0xFFFF

def maxDword : Nat := 0xFFFFFFFF

/-- At least one of the flags is set (C `IsFlagOn`). -/
def isFlagOn (x f : Nat) : Bool := 0 != x &&& f

/-- All the flags are set (C `IsBooleanFlagOn`). -/
def isBooleanFlagOn (x f : Nat) : Bool := f == x &&& f

/-- Round an address down (C `AlignAddressLower`). -/
def alignAddressLower (addr alig : Nat) : Nat := addr &&& wnot 64 (wsub 64 alig 1)

/-- Round an address up (C `AlignAddressUpper`). -/
def alignAddressUpper (addr alig : Nat) : Nat := alignAddressLower (wsub 64 (wadd 64 addr alig) 1) alig

/-- How far the address is above a multiple of the alignment (C `AddressOffset`). -/
def addressOffset (addr alig : Nat) : Nat := addr &&& (alig - 1)

def pageCount (va size : Nat) : Nat := (va % 4096 + size + 4095) / 4096

/-- The address is a multiple of the alignment (C `IsAddressAligned`). -/
def isAddressAligned (addr alig : Nat) : Bool := 0 == addr &&& wsub 64 alig 1

/-- The range `[p, p + ps)` lies in `[b, b + s)`, with both ends computed in 64 bits
(C `CHECK_BOUNDS`). -/
def checkBounds (p ps b s : Nat) : Bool := decide (b ≤ p ∧ wadd 64 p ps ≤ wadd 64 b s)

lemma wsub_two_pow {k : Nat} (hk : k ≤ 64) : wsub 64 (2 ^ k) 1 = 2 ^ k - 1 := by
  have h0 := Nat.two_pow_pos k
  have hp : 2 ^ k ≤ 2 ^ 64 := Nat.pow_le_pow_right (by decide) hk
  unfold wsub
  omega

lemma alignAddressLower_eq {a k : Nat} (h : a < 2 ^ 64) (hk : k ≤ 64) :
    alignAddressLower a (2 ^ k) = a / 2 ^ k * 2 ^ k := by
  rw [alignAddressLower, wsub_two_pow hk, and_wnot_two_pow h hk]

lemma isAddressAligned_iff {a k : Nat} (hk : k ≤ 64) : isAddressAligned a (2 ^ k) = true ↔ a % 2 ^ k = 0 := by
  rw [isAddressAligned, wsub_two_pow hk, Nat.and_two_pow_sub_one_eq_mod, beq_iff_eq, eq_comm]

lemma alignAddressLower_page {a : Nat} (h : a < 2 ^ 64) : alignAddressLower a pageSize = a / 4096 * 4096 :=
  alignAddressLower_eq (k := 12) h (by decide)

lemma isAddressAligned_page {a : Nat} : isAddressAligned a pageSize = true ↔ a % 4096 = 0 :=
  isAddressAligned_iff (k := 12) (by decide)

lemma addressOffset_page {a : Nat} : addressOffset a pageSize = a % 4096 := Nat.and_two_pow_sub_one_eq_mod a 12

lemma alignAddressUpper_eq {a k : Nat} (ha : a + 2 ^ k ≤ 2 ^ 64) :
    alignAddressUpper a (2 ^ k) = (a + 2 ^ k - 1) / 2 ^ k * 2 ^ k := by
  have h0 : 0 < 2 ^ k := Nat.two_pow_pos k
  have hk : k ≤ 64 := (Nat.pow_le_pow_iff_right (by omega : 1 < 2)).mp (by omega)
  have e1 : wsub 64 (wadd 64 a (2 ^ k)) 1 = a + 2 ^ k - 1 := by
    unfold wsub wadd
    omega
  rw [alignAddressUpper, e1, alignAddressLower_eq (by omega) hk]

lemma alignAddressUpper_bounds {a m : Nat} (hm : 1 ≤ m) (hm' : m < 2 ^ 64) (h : a + m ≤ 2 ^ 64) :
    a ≤ alignAddressUpper a m ∧ alignAddressUpper a m < a + m := by
  have e1 : wsub 64 m 1 = m - 1 := wsub_eq hm' hm
  have e2 : wsub 64 (wadd 64 a m) 1 = a + m - 1 := by
    unfold wsub wadd
    omega
  have h' := and_wnot_le (w := 64) (a := a + m - 1) (m := m - 1) (by omega) (by omega)
  rw [alignAddressUpper, e2, alignAddressLower, e1]
  omega

lemma checkBounds_iff {p ps b s : Nat} :
    checkBounds p ps b s = true ↔ b ≤ p ∧ (p + ps) % 2 ^ 64 ≤ (b + s) % 2 ^ 64 := by
  rw [checkBounds, decide_eq_true_iff]
  rfl

end HAL9000
