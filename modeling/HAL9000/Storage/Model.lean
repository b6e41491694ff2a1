import HAL9000.Lib.Prog
import HAL9000.Disk.Model

/-!
# Requests to volumes, disks and their controllers

Port of the way of a read or write request: `_IoReadWriteDevice` and `IoCallDriver`
(`HAL9000/src/io_devices.c`), `VolDispatchReadWrite` (`Volume/src/volume_dispatch.c`),
`DiskDispatchReadWrite` (`Disk/src/disk_dispatch.c`), `AtaDispatchReadWrite`
(`Ata/src/ata_dispatch.c`) and `AtaReadWriteSectors` (`Ata/src/ata_operations.c`) down to the registers
of the controller.

The hardware is a number of devices with their bytes and registers. A command transfers the sectors
that the registers say; `transfers` is the record of all commands. Whether a buffer can be used for a
transfer by the device itself is part of the request (`dmaStatus`). The device is ready when it is
asked, and its transfers succeed: the driver knows no other outcome.

Lengths and offsets are `QWORD`s, in bytes.
-/

namespace HAL9000.Storage
open Lib Function

/-! ### Requests -/

def sectorSize : Nat := 512

def lba48MaxValue : Nat := 0x0000FFFFFFFFFFFF

/-- The functions of a request that are modelled (C `IRP_MJ_READ`, `IRP_MJ_WRITE`). -/
inductive MajorFunction where
  | read
  | write
deriving DecidableEq, Repr

/-- What a request is to one of the drivers it comes to (C `IO_STACK_LOCATION`). -/
structure StackLocation where
  majorFunction : MajorFunction
  length : Nat
  offset : Nat

/-- A request on its way (C `IRP`). -/
structure Irp where
  buffer : Mem
  status : Status
  information : Nat
  completed : Bool
  asynchronous : Bool
  dmaStatus : Option Status
  currentStackLocation : Nat
  stackLocations : Nat → StackLocation

/-! ### The hardware -/

/-- A register of the controller that keeps the last two bytes written to it. -/
structure Register where
  recent : Nat
  previous : Nat

def Register.push (r : Register) (b : Nat) : Register := ⟨b, r.recent⟩

/-- The number in the register before the last write, and in the register. -/
def Register.word (r : Register) : Nat := r.previous * 2 ^ 8 + r.recent

/-- The registers that say which sectors are transferred. -/
structure TaskFile where
  sectorCount : Register
  lbaLow : Register
  lbaMid : Register
  lbaHigh : Register

def TaskFile.lba (t : TaskFile) : Nat := t.lbaLow.recent + 2 ^ 8 * t.lbaMid.recent + 2 ^ 16 * t.lbaHigh.recent +
    2 ^ 24 * t.lbaLow.previous + 2 ^ 32 * t.lbaMid.previous + 2 ^ 40 * t.lbaHigh.previous

/-- The number of sectors. A device takes 0 for the largest number there is. -/
def TaskFile.count (t : TaskFile) : Nat := if t.sectorCount.word = 0 then 2 ^ 16 else t.sectorCount.word

/-- A command carried out by a device. -/
structure Transfer where
  device : Nat
  write : Bool
  lba : Nat
  count : Nat
deriving DecidableEq, Repr

/-- The devices: their bytes, their registers, whether the driver has a transfer in progress; the
    commands they have carried out, the last one first; and the request that is worked on. -/
structure IoState where
  disks : Nat → Mem
  taskFile : Nat → TaskFile
  inProgress : Nat → Bool
  transfers : List Transfer
  irp : Irp

abbrev Io := Prog IoState Status

/-- A device carries out a command: what it transfers is in its registers. -/
def command (device : Nat) (write : Bool) : Io Unit := Prog.modify fun s =>
  let lba := (s.taskFile device).lba
  let count := (s.taskFile device).count
  let s := { s with transfers := ⟨device, write, lba, count⟩ :: s.transfers }
  if write then
    { s with
      disks := update s.disks device
        (copyTo (s.disks device) (lba * sectorSize) (count * sectorSize) s.irp.buffer) }
  else
    { s with
      irp := { s.irp with
        buffer := copyTo s.irp.buffer 0 (count * sectorSize)
          fun i => s.disks device (lba * sectorSize + i) } }

/-! ### The controller -/

/-- A controller (C `ATA_DEVICE`). -/
structure AtaDevice where
  device : Nat
  initialized : Bool
  totalSectors : Nat

/-- Write the registers, the high-order bytes first (C `_AtaWriteIOParameters`). -/
def ataWriteIOParameters (t : TaskFile) (lbaAddress sectorCount : Nat) : TaskFile where
  sectorCount := (t.sectorCount.push (sectorCount / 2 ^ 8)).push (sectorCount % 2 ^ 8)
  lbaHigh := (t.lbaHigh.push (lbaAddress / 2 ^ 40 % 2 ^ 8)).push (lbaAddress / 2 ^ 16 % 2 ^ 8)
  lbaMid := (t.lbaMid.push (lbaAddress / 2 ^ 32 % 2 ^ 8)).push (lbaAddress / 2 ^ 8 % 2 ^ 8)
  lbaLow := (t.lbaLow.push (lbaAddress / 2 ^ 24 % 2 ^ 8)).push (lbaAddress % 2 ^ 8)

def setTaskFile (device lbaAddress sectorCount : Nat) : Io Unit := Prog.modify fun s =>
  { s with
    taskFile := update s.taskFile device
      (ataWriteIOParameters (s.taskFile device) lbaAddress sectorCount) }

/-- Prepare a transfer by the device itself, if the request is an asynchronous one
    (C `_AtaPrepareDmaTransfer`). -/
def ataPrepareDmaTransfer : Io Unit := do
  let s ← Prog.get
  match s.irp.asynchronous, s.irp.dmaStatus with
  | true, some status => Prog.fail status
  | _, _ => pure ()

/-- Transfer sectors. The value is their number (C `AtaReadWriteSectors`). -/
def ataReadWriteSectors (d : AtaDevice) (sectorIndex sectorCount : Nat) (write : Bool) : Io Nat := do
  if 0 = sectorCount then Prog.fail .invalidParameter3
  else
    setTaskFile d.device sectorIndex sectorCount
    ataPrepareDmaTransfer
    command d.device write
    pure sectorCount

/-- (C `_AtaCheckAlignment`) -/
def ataCheckAlignment (size offset : Nat) : Except Status Unit :=
  if !isAddressAligned size sectorSize then .error .deviceDataAlignmentError
  else if !isAddressAligned offset sectorSize then .error .deviceDataAlignmentError
  else .ok ()

/-- (C `_AtaCheckIOParameters`) -/
def ataCheckIOParameters (d : AtaDevice) (sectorIndex sectorCount : Nat) : Except Status Unit :=
  if !d.initialized then .error .deviceNotInitialized
  else if sectorIndex ≥ d.totalSectors then .error .deviceSectorOffsetExceeded
  else if sectorIndex ≥ lba48MaxValue then .error .deviceSectorOffsetExceeded
  else if d.totalSectors - sectorIndex < sectorCount then .error .deviceSectorCountExceeded
  else .ok ()

def setInProgress (device : Nat) (b : Bool) : Io Unit := Prog.modify fun s =>
  { s with inProgress := update s.inProgress device b }

/-- The guarded block of `AtaDispatchReadWrite`, with the number of sectors transferred. -/
def ataTransfer (d : AtaDevice) (sizeInBytes offset : Nat) (write : Bool) : Io Nat := do
  Prog.ofExcept (ataCheckAlignment sizeInBytes offset)
  let sectorIndex := offset / sectorSize
  let sectorCount := sizeInBytes / sectorSize
  if sectorCount > maxWord then Prog.fail .deviceSectorCountExceeded
  else
    Prog.ofExcept (ataCheckIOParameters d sectorIndex sectorCount)
    let s ← Prog.get
    Prog.assert (s.inProgress d.device = false)
    setInProgress d.device true
    let sectorsRead ← (ataReadWriteSectors d sectorIndex sectorCount write).attempt
    setInProgress d.device false
    Prog.ofExcept sectorsRead

/-- Complete a request (C `IoCompleteIrp`). -/
def ioCompleteIrp : Io Unit := do
  let s ← Prog.get
  Prog.assert (s.irp.completed = false)
  Prog.modify fun s => { s with irp := { s.irp with completed := true } }

/-- The stack location of the driver that has the request (C `IoGetCurrentIrpStackLocation`). -/
def ioGetCurrentIrpStackLocation : Io StackLocation := do
  let s ← Prog.get
  Prog.assert (0xFF ≠ s.irp.currentStackLocation)
  pure (s.irp.stackLocations s.irp.currentStackLocation)

/-- Set the answer to the request and complete it. -/
def ataFinish : Except Status Nat → Io Unit
  | .ok sectorsRead => do
    Prog.modify fun s => { s with irp := { s.irp with
      status := .success
      information := sectorsRead * sectorSize } }
    ioCompleteIrp
  | .error status => do
    Prog.modify fun s => { s with irp := { s.irp with status := status, information := 0 } }
    ioCompleteIrp

/-- (C `AtaDispatchReadWrite`) -/
def ataDispatchReadWrite (d : AtaDevice) : Io Unit := do
  let location ← ioGetCurrentIrpStackLocation
  let sectorsRead ←
    (ataTransfer d location.length location.offset (location.majorFunction = .write)).attempt
  ataFinish sectorsRead

/-! ### Disks and volumes -/

/-- Hand the request on as it is (C `IoCopyCurrentStackLocationToNext`). -/
def ioCopyCurrentStackLocationToNext : Io Unit := do
  let s ← Prog.get
  Prog.assert (0 ≠ s.irp.currentStackLocation)
  Prog.modify fun s => { s with irp := { s.irp with
    stackLocations := update s.irp.stackLocations (s.irp.currentStackLocation - 1)
      (s.irp.stackLocations s.irp.currentStackLocation) } }

def setNextOffset (offset : Nat) : Io Unit := do
  let s ← Prog.get
  Prog.assert (0 ≠ s.irp.currentStackLocation)
  Prog.modify fun s => { s with irp := { s.irp with
    stackLocations := update s.irp.stackLocations (s.irp.currentStackLocation - 1)
      { s.irp.stackLocations (s.irp.currentStackLocation - 1) with offset := offset } } }

/-- (C `DiskDispatchReadWrite`); `callDriver` calls the controller. -/
def diskDispatchReadWrite (callDriver : Io Unit) : Io Unit := do
  ioCopyCurrentStackLocationToNext
  callDriver

/-- (C `_VolCheckIOParameters`) -/
def volCheckIOParameters (p : Disk.PartitionInformation) (sectorIndex sectorCount : Nat) : Except Status Unit :=
  if sectorIndex ≥ p.partitionSize then .error .deviceSectorOffsetExceeded
  else if p.partitionSize - sectorIndex < sectorCount then .error .deviceSectorCountExceeded
  else .ok ()

/-- The guarded block of `VolDispatchReadWrite`: the offset is made relative to the disk. -/
def volForward (p : Disk.PartitionInformation) (callDriver : Io Unit) (location : StackLocation) : Io Unit := do
  let lengthInSectors := location.length / sectorSize
  let offsetInSectors := location.offset / sectorSize
  Prog.ofExcept (volCheckIOParameters p offsetInSectors lengthInSectors)
  ioCopyCurrentStackLocationToNext
  setNextOffset (wadd 64 offsetInSectors p.offsetInDisk * sectorSize % 2 ^ 64)
  callDriver

def volFinish : Except Status Unit → Io Unit
  | .ok _ => pure ()
  | .error status => do
    Prog.modify fun s => { s with irp := { s.irp with status := status } }
    ioCompleteIrp

/-- (C `VolDispatchReadWrite`); `callDriver` calls the disk. -/
def volDispatchReadWrite (p : Disk.PartitionInformation) (callDriver : Io Unit) : Io Unit := do
  let location ← ioGetCurrentIrpStackLocation
  let status ← (volForward p callDriver location).attempt
  volFinish status

/-! ### Devices -/

/-- A device, with the devices below it (C `DEVICE_OBJECT`). -/
inductive DeviceObject where
  | controller (d : AtaDevice)
  | disk (diskDeviceController : DeviceObject)
  | volume (partitionInformation : Disk.PartitionInformation) (diskDevice : DeviceObject)

/-- Number of drivers a request goes through (C `StackSize`). -/
def DeviceObject.stackSize : DeviceObject → Nat
  | .controller _ => 1
  | .disk c => c.stackSize + 1
  | .volume _ d => d.stackSize + 1

/-- A controller wants its transfers aligned to sectors, and disks and volumes take that over
    (C `DeviceAlignment`). -/
def DeviceObject.deviceAlignment : DeviceObject → Nat
  | .controller _ => sectorSize
  | .disk c => c.deviceAlignment
  | .volume _ d => d.deviceAlignment

/-- The first half of `IoCallDriver`: go to the next stack location, and check the alignment. -/
def ioEnterDriver (deviceAlignment : Nat) : Io Unit := do
  let s ← Prog.get
  Prog.assert (0 ≠ s.irp.currentStackLocation)
  Prog.modify fun s => { s with irp := { s.irp with currentStackLocation := s.irp.currentStackLocation - 1 } }
  let location ← ioGetCurrentIrpStackLocation
  if !isAddressAligned location.length deviceAlignment then Prog.fail .deviceAlignmentNoSatisfied
  else if !isAddressAligned location.offset deviceAlignment then Prog.fail .deviceAlignmentNoSatisfied
  else pure ()

/-- Call the driver of a device (C `IoCallDriver`). -/
def ioCallDriver : DeviceObject → Io Unit
  | .controller d => do
    ioEnterDriver (DeviceObject.controller d).deviceAlignment
    ataDispatchReadWrite d
  | .disk c => do
    ioEnterDriver (DeviceObject.disk c).deviceAlignment
    diskDispatchReadWrite (ioCallDriver c)
  | .volume p d => do
    ioEnterDriver (DeviceObject.volume p d).deviceAlignment
    volDispatchReadWrite p (ioCallDriver d)

/-- A request to be made. -/
structure Request where
  write : Bool
  length : Nat
  offset : Nat
  buffer : Mem
  asynchronous : Bool
  dmaStatus : Option Status

/-- A new request (C `IoAllocateIrp` and the assignments behind it). -/
def Request.irp (r : Request) (stackSize : Nat) : Irp where
  buffer := r.buffer
  status := .success
  information := 0
  completed := false
  asynchronous := r.asynchronous
  dmaStatus := r.dmaStatus
  currentStackLocation := stackSize
  stackLocations := update (fun _ => ⟨.read, 0, 0⟩) (stackSize - 1)
    ⟨if r.write then .write else .read, r.length, r.offset⟩

/-- Make a request. The value is the number of bytes transferred; what has been read is in the buffer of
    the request (C `_IoReadWriteDevice`). -/
def ioReadWriteDevice (d : DeviceObject) (r : Request) : Io Nat := do
  Prog.modify fun s => { s with irp := r.irp d.stackSize }
  ioCallDriver d
  let s ← Prog.get
  if s.irp.status ≠ .success then Prog.fail s.irp.status else pure s.irp.information

end HAL9000.Storage
