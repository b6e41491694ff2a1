import HAL9000.CommonLib.Bitmap
import HAL9000.Lib.Prog

/-!
# Interrupt registration

Port of `IomuRegisterInterrupt` in `HAL9000/src/iomu.c`, with the functions of `isr.c` and
`ioapic_system.c` it calls. Every interrupt vector has a list of the routines that handle it. A level
(IRQL) has sixteen vectors; a bitmap says which vectors are taken. An interrupt that comes in over a
line of an I/O APIC also needs the redirection entry of that line to hold its vector.
-/

namespace HAL9000.Iomu
open Lib

def noOfReservedExceptions : Nat := 32

def noOfTotalInterrupts : Nat := 256

def vectorsPerIrql : Nat := 0x10

/-- First vector of a level, a byte (C `IRQL_TO_VECTOR`). -/
def irqlToVector (irql : Nat) : Nat := irql <<< 4 % 256

/-- The level of a vector (C `VECTOR_TO_IRQL`). -/
def vectorToIrql (vector : Nat) : Nat := vector >>> 4

/-- What of a PCI device the registration looks at: whether it can signal interrupts by messages, and the
    line the routing tables give it (C `PCI_DEVICE_DESCRIPTION`). -/
structure PciDevice where
  msiCapable : Bool
  interruptLine : Nat
deriving DecidableEq, Repr

/-- Where an interrupt comes from (C `IO_INTERRUPT_TYPE` and the union behind it). -/
inductive IoInterruptType where
  | legacy (irq : Nat)
  | lapic
  | pci (pciDevice : PciDevice)
deriving DecidableEq, Repr

/-- The interrupt to register (C `IO_INTERRUPT`). -/
structure IoInterrupt where
  type : IoInterruptType
  irql : Nat
  exclusive : Bool
  serviceRoutine : Nat
deriving DecidableEq, Repr

/-- A routine in the list of a vector, and the device it is called for
    (C `REGISTERED_INTERRUPT_ENTRY`). -/
structure RegisteredInterruptEntry where
  function : Nat
  device : Nat
deriving DecidableEq, Repr

/-- An I/O APIC and the lines it handles (C `IO_APIC_ENTRY`). -/
structure IoApicEntry where
  irqBase : Nat
  maximumRedirectionEntry : Nat
deriving DecidableEq, Repr

/-- The I/O APICs, and the lines that stand for other ones (C `IO_APIC_SYSTEM_DATA`). -/
structure IoApicSystemData where
  apicList : List IoApicEntry
  interruptOverrides : List (Nat × Nat)
deriving DecidableEq, Repr

/-- The vectors, their handlers and the redirection entries. An entry that was never written is `none`
    (C `m_iomuData`, `m_isrRoutines` and the tables of the I/O APICs). -/
structure IomuData where
  mem : Mem
  interruptBitmap : Bitmap
  registeredInterrupts : Nat → List RegisteredInterruptEntry
  isrRoutines : Nat → Bool
  redirectionTable : Nat × Nat → Option Nat

/-- How the calls end that are not modelled: the allocation of the new entry, and the programming of a
    PCI device that signals by messages. -/
structure Lower where
  allocated : Bool
  programPci : Except Status Unit

def Lower.succeeds : Lower := ⟨true, .ok ()⟩

/-- The taken vectors at the start are those of the exceptions (C `IomuPreinit`). -/
def iomuPreinit (mem : Mem) (bitmapBuffer : Nat) : Exec IomuData := do
  let bitmap ← bitmapPreinit noOfTotalInterrupts
  let (mem, bitmap) ← bitmapInitEx mem bitmap bitmapBuffer false
  let mem ← bitmapSetBitsValue mem bitmap 0 noOfReservedExceptions true
  pure {
    mem := mem
    interruptBitmap := bitmap
    registeredInterrupts := fun _ => []
    isrRoutines := fun _ => false
    redirectionTable := fun _ => none }

/-- The last override of a line (C `_IoApicReturnInterruptOverrideForIrq`). -/
def ioApicReturnInterruptOverrideForIrq (io : IoApicSystemData) (irq : Nat) : Option (Nat × Nat) :=
  io.interruptOverrides.reverse.find? fun o => o.1 == irq

/-- The I/O APIC of a line and the place of its redirection entry there
    (C `_IoApicSystemGetIoApicForIrq`). -/
def ioApicSystemGetIoApicForIrq (io : IoApicSystemData) (irq : Nat) : Option (Nat × Nat) :=
  let finalIrq := match ioApicReturnInterruptOverrideForIrq io irq with
    | some o => o.2
    | none => irq
  match io.apicList.findIdx? fun a =>
      a.irqBase ≤ finalIrq ∧ finalIrq + 1 ≤ a.irqBase + (a.maximumRedirectionEntry + 1) with
  | some i => some (i, finalIrq - (io.apicList.getD i ⟨0, 0⟩).irqBase)
  | none => none

/-- The vector a line is programmed with (C `IoApicSystemGetVectorForIrq`). -/
def ioApicSystemGetVectorForIrq (io : IoApicSystemData) (s : IomuData) (irq : Nat) : Except Status Nat :=
  match ioApicSystemGetIoApicForIrq io irq with
  | none => .error .deviceDoesNotExist
  | some entry =>
    match s.redirectionTable entry with
    | none => .error .deviceInterruptNotConfigured
    | some vector => .ok vector

/-- Program a line that is not programmed yet (C `IoApicSystemSetInterrupt` without `Overwrite`). -/
def ioApicSystemSetInterrupt (io : IoApicSystemData) (irq vector : Nat) : Prog IomuData Status Unit :=
  match ioApicSystemGetIoApicForIrq io irq with
  | none => Prog.fail .deviceDoesNotExist
  | some entry => do
    let s ← Prog.get
    if s.redirectionTable entry ≠ none then Prog.fail .deviceInterruptNotAvailable
    else Prog.modify fun s =>
      { s with redirectionTable := Function.update s.redirectionTable entry (some vector) }

/-- Install the handler of a vector (C `IsrInstallEx`). -/
def isrInstallEx (vector : Nat) : Prog IomuData Status Unit := do
  Prog.assert (vector > noOfReservedExceptions)
  let s ← Prog.get
  if s.isrRoutines (vector - noOfReservedExceptions) then Prog.fail .alreadyInitialized
  else Prog.modify fun s =>
    { s with isrRoutines := Function.update s.isrRoutines (vector - noOfReservedExceptions) true }

/-- The interrupt comes in over a line of an I/O APIC (C `bIoApicInterrupt`). -/
def IoInterrupt.ioApicInterrupt (interrupt : IoInterrupt) : Bool :=
  match interrupt.type with
  | .legacy _ => true
  | .lapic => false
  | .pci d => !d.msiCapable

/-- The device signals the interrupt by messages. -/
def IoInterrupt.byMessage (interrupt : IoInterrupt) : Bool :=
  match interrupt.type with
  | .pci d => d.msiCapable
  | _ => false

/-- The line of the interrupt (C `interruptLine`). -/
def IoInterrupt.interruptLine (interrupt : IoInterrupt) : Nat :=
  match interrupt.type with
  | .legacy irq => irq
  | .lapic => 0xFF
  | .pci d => if d.msiCapable then 0xFF else d.interruptLine

/-- The vector the line of the interrupt already has, if it has one. -/
def registeredVector (io : IoApicSystemData) (interrupt : IoInterrupt) : Prog IomuData Status (Option Nat) :=
  if interrupt.ioApicInterrupt then do
    -- the line of a PCI device is cut to a byte
    Prog.assert (interrupt.interruptLine ≤ 0xFF)
    let s ← Prog.get
    match ioApicSystemGetVectorForIrq io s interrupt.interruptLine with
    | .ok vector =>
      if vectorToIrql vector ≠ interrupt.irql then Prog.fail .deviceInterruptPriorityNotAvailable
      else pure (some vector)
    | .error status =>
      if status ≠ .deviceInterruptNotConfigured then Prog.fail status else pure none
  else pure none

def takeVector (irql : Nat) : Prog IomuData Status Nat := do
  let s ← Prog.get
  let r ← Prog.ofExec (bitmapScanFromToAndFlip s.mem s.interruptBitmap (irqlToVector irql)
    (irqlToVector irql + vectorsPerIrql) 1 false)
  Prog.modify fun s => { s with mem := r.2 }
  pure r.1

/-- The vector for the interrupt: the one its line has, a free one of its level, or the first one of its
    level, to be shared. -/
def chooseVector (interrupt : IoInterrupt) : Option Nat → Prog IomuData Status Nat
  | some vector =>
    if interrupt.exclusive then Prog.fail .deviceInterruptNotAvailable else pure vector
  | none => do
    let bitmapResult ← takeVector interrupt.irql
    if maxDword = bitmapResult then
      if interrupt.exclusive then Prog.fail .deviceInterruptNotAvailable
      else pure (irqlToVector interrupt.irql)
    else pure (bitmapResult % 256)

/-- Put a routine at the end of the list of a vector. -/
def IomuData.insert (s : IomuData) (vector : Nat) (entry : RegisteredInterruptEntry) : IomuData := { s with
    registeredInterrupts := Function.update s.registeredInterrupts (vector - noOfReservedExceptions)
      (s.registeredInterrupts (vector - noOfReservedExceptions) ++ [entry]) }

/-- Put the routine on the vector that was chosen. With the first routine of a vector its handler is
    installed, and the redirection entry of the line is written if the line had no vector. -/
def addHandler (io : IoApicSystemData) (lower : Lower) (interrupt : IoInterrupt) (device : Nat)
    (registered : Option Nat) (interruptVector : Nat) : Prog IomuData Status Nat := do
  Prog.assert (noOfReservedExceptions ≤ interruptVector ∧ interruptVector < noOfTotalInterrupts)
  let s ← Prog.get
  let listEmpty := (s.registeredInterrupts (interruptVector - noOfReservedExceptions)).isEmpty
  Prog.assert (listEmpty = true ∨ interrupt.exclusive = false)
  Prog.when listEmpty (isrInstallEx interruptVector)
  Prog.when (!lower.allocated) (Prog.fail .heapInsufficientResources)
  Prog.modify fun s => s.insert interruptVector ⟨interrupt.serviceRoutine, device⟩
  Prog.when interrupt.byMessage (Prog.ofExcept lower.programPci)
  Prog.when (listEmpty && interrupt.ioApicInterrupt && registered.isNone)
    (ioApicSystemSetInterrupt io interrupt.interruptLine interruptVector)
  pure interruptVector

/-- Register a routine for an interrupt; returns its vector (C `IomuRegisterInterrupt`). -/
def iomuRegisterInterrupt (io : IoApicSystemData) (lower : Lower) (interrupt : IoInterrupt) (device : Nat) :
    Prog IomuData Status Nat := do
  let registered ← registeredVector io interrupt
  let interruptVector ← chooseVector interrupt registered
  addHandler io lower interrupt device registered interruptVector

end HAL9000.Iomu
