import HAL9000.Lib.Pool
import HAL9000.Lib.Prog
import HAL9000.CommonLib.Base

/-!
# Network devices: how a driver sets them up

Port of `NetworkPortRegisterMiniportDriver`, `_NetworkPortConfigureDevice` and
`_NetworkPortInitializeMiniportBuffers` (`NetworkPort/src/network_port.c`), of `NetworkPortDeviceInit` and
`NetworkPortDeviceUninit` (`NetworkPort/src/network_structures.c`) and of `IoCreateDevice` and
`IoDeleteDevice` (`HAL9000/src/io_devices.c`).

Memory is a pool of blocks with typed contents, of which only the pointers are kept. Whether a call that
can fail does fail is part of the input: `Outcomes` has one field for each. The functions of the miniport
driver and the creation of events and of the thread neither allocate nor free a block of the pool. A
`__finally` block looks at the local variables, so these are part of the state.
-/

namespace HAL9000.NetworkPort
open Lib

/-- What the port keeps in the extension of its device (C `NETWORK_PORT_DEVICE`): pointers to the miniport
    and to the two arrays of buffers. -/
structure PortDevice where
  miniport : Option Nat
  rxBuffers : Option Nat
  txBuffers : Option Nat
deriving DecidableEq, Repr

/-- C `MINIPORT_DEVICE`. -/
structure MiniportDevice where
  deviceObject : Nat
  deviceExtension : Option Nat
deriving DecidableEq, Repr

/-- Contents of a block of memory. -/
inductive Obj where
  /-- A `DEVICE_OBJECT` with its extension. -/
  | deviceObject (deviceExtension : Option Nat)
  | portDevice (device : PortDevice)
  | miniport (device : MiniportDevice)
  /-- An array of pointers to buffers. -/
  | buffers (entries : List (Option Nat))
  /-- Memory without pointers. -/
  | memory
deriving DecidableEq, Repr

abbrev Blocks := Pool Obj

/-- C `MINIPORT_BUFFER_DESCRIPTION`. -/
structure BufferDescription where
  numberOfBuffers : Nat
  descriptorSize : Nat
  bufferSize : Nat
deriving DecidableEq, Repr

/-- Which of the functions of a miniport are there (C `MINIPORT_FUNCTIONS`). -/
structure MiniportFunctions where
  miniportInitializeDevice : Bool
  miniportSendBuffer : Bool
  miniportInterruptHandler : Bool
  miniportChangeDeviceStatus : Bool
deriving DecidableEq, Repr

/-- C `MINIPORT_REGISTRATION`. -/
structure Registration where
  deviceContextSize : Nat
  rxBuffers : BufferDescription
  txBuffers : BufferDescription
  miniportFunctions : MiniportFunctions
deriving DecidableEq, Repr

/-- Which allocations of `_NetworkPortInitializeMiniportBuffers` succeed. -/
structure BufferOutcomes where
  bufferArray : Bool
  buffer : Nat → Bool
  descriptorArray : Bool

/-- Which calls of `_NetworkPortConfigureDevice` succeed. -/
structure Outcomes where
  device : Bool
  portDevice : Bool
  miniport : Bool
  deviceContext : Bool
  rx : BufferOutcomes
  tx : BufferOutcomes
  miniportInitializeDevice : Status
  rxFramesEvent : Status
  txFramesEvent : Status
  descriptorsAvailable : Status
  transmitThread : Status
  interrupt : Bool

/-- C `ExAllocatePoolWithTag`. -/
def exAllocatePoolWithTag (succeeds : Bool) (o : Obj) (p : Blocks) : Option Nat × Blocks :=
  if succeeds then (some p.next, p.alloc o) else (none, p)

/-- C `IoAllocateContinuousMemory`. -/
def ioAllocateContinuousMemory (succeeds : Bool) (allocationSize : Nat) (p : Blocks) : Option Nat × Blocks :=
  if allocationSize = 0 then (none, p) else exAllocatePoolWithTag succeeds .memory p

def readDeviceObject (p : Blocks) (a : Nat) : Exec (Option Nat) := do
  match ← p.read a with
  | .deviceObject e => pure e
  | _ => throw .wild

def readPortDevice (p : Blocks) (a : Nat) : Exec PortDevice := do
  match ← p.read a with
  | .portDevice d => pure d
  | _ => throw .wild

def readMiniport (p : Blocks) (a : Nat) : Exec MiniportDevice := do
  match ← p.read a with
  | .miniport d => pure d
  | _ => throw .wild

def readBuffers (p : Blocks) (a : Nat) : Exec (List (Option Nat)) := do
  match ← p.read a with
  | .buffers es => pure es
  | _ => throw .wild

/-- `Array[Index] = Buffer`. -/
def writeBuffer (p : Blocks) (a : Nat) (index : Nat) (buffer : Option Nat) : Exec Blocks := do
  let es ← readBuffers p a
  if index < es.length then p.write a (.buffers (es.set index buffer)) else throw .wild

/-- Free the buffers of an array from an index on. -/
def freeBuffersFrom (a : Nat) : Nat → Nat → Blocks → Exec Blocks
  | 0, _, p => pure p
  | k + 1, i, p => do
    let es ← readBuffers p a
    match es[i]? with
    | none => throw .wild
    | some none => freeBuffersFrom a k (i + 1) p
    | some (some b) => do
      let p ← p.free b
      let p ← writeBuffer p a i none
      freeBuffersFrom a k (i + 1) p

/-- Free the buffers of an array and the array itself: what both `__finally` blocks do. -/
def freeBuffers (numberOfBuffers : Nat) (a : Nat) (p : Blocks) : Exec Blocks := do
  let p ← freeBuffersFrom a numberOfBuffers 0 p
  p.free a

/-- `if (NULL != Pointer)`. -/
def ifAny (pointer : Option Nat) (x : Nat → Blocks → Exec Blocks) (p : Blocks) : Exec Blocks :=
  match pointer with
  | none => pure p
  | some a => x a p

/-- Free the extension of a miniport, if it has one, and the miniport itself. -/
def freeMiniport (m : Nat) (p : Blocks) : Exec Blocks := do
  let mini ← readMiniport p m
  let p ← ifAny mini.deviceExtension (fun e p => do
    let p ← p.free e
    p.write m (.miniport { mini with deviceExtension := none })) p
  p.free m

/-- C `IoCreateDevice`. -/
def ioCreateDevice (o : Outcomes) (p : Blocks) : Exec (Option Nat × Blocks) :=
  match exAllocatePoolWithTag o.device (.deviceObject none) p with
  | (none, p) => pure (none, p)
  | (some pDevice, p) =>
    match exAllocatePoolWithTag o.portDevice (.portDevice ⟨none, none, none⟩) p with
    | (none, p) => do
      let p ← p.free pDevice
      pure (none, p)
    | (some deviceExtension, p) => do
      let p ← p.write pDevice (.deviceObject (some deviceExtension))
      pure (some pDevice, p)

/-- C `IoDeleteDevice`. -/
def ioDeleteDevice (device : Nat) (p : Blocks) : Exec Blocks := do
  match ← readDeviceObject p device with
  | none => throw .check
  | some e => do
    let p ← p.free e
    let p ← p.write device (.deviceObject none)
    p.free device

/-- The loop of `_NetworkPortInitializeMiniportBuffers` from an index on, and whether it got to its
    end. -/
def allocateBuffersFrom (o : BufferOutcomes) (bufferSize : Nat) (a : Nat) :
    Nat → Nat → Blocks → Exec (Bool × Blocks)
  | 0, _, p => pure (true, p)
  | k + 1, i, p => do
    let r := ioAllocateContinuousMemory (o.buffer i) bufferSize p
    let p ← writeBuffer r.2 a i r.1
    if r.1 = none then pure (false, p) else allocateBuffersFrom o bufferSize a k (i + 1) p

/-- C `_NetworkPortInitializeMiniportBuffers`: the array of buffers and the array of descriptors. -/
def networkPortInitializeMiniportBuffers (o : BufferOutcomes) (d : BufferDescription) (p : Blocks) :
    Exec (Except Status (Nat × Nat) × Blocks) :=
  match exAllocatePoolWithTag o.bufferArray (.buffers (List.replicate d.numberOfBuffers none)) p with
  | (none, p) => pure (.error .heapInsufficientResources, p)
  | (some bufferArray, p) => do
    let (filled, p) ← allocateBuffersFrom o d.bufferSize bufferArray d.numberOfBuffers 0 p
    match filled with
    | false => do
      let p ← freeBuffers d.numberOfBuffers bufferArray p
      pure (.error .heapInsufficientResources, p)
    | true =>
      match ioAllocateContinuousMemory o.descriptorArray
          ((d.numberOfBuffers * d.descriptorSize) % 2 ^ 32) p with
      | (none, p) => do
        let p ← freeBuffers d.numberOfBuffers bufferArray p
        pure (.error .heapInsufficientResources, p)
      | (some descriptorArray, p) => pure (.ok (bufferArray, descriptorArray), p)

/-- C `NetworkPortDeviceInit`, with the functions it calls. -/
def networkPortDeviceInit (r : Registration) (o : Outcomes) (port miniport rx tx : Nat) (p : Blocks) :
    Exec (Status × Blocks) := do
  if r.rxBuffers.numberOfBuffers = 0 then pure (.invalidParameter3, p)
  else if r.rxBuffers.bufferSize = 0 then pure (.invalidParameter5, p)
  else if r.txBuffers.numberOfBuffers = 0 then pure (.invalidParameter6, p)
  else if r.txBuffers.bufferSize = 0 then pure (.invalidParameter8, p)
  else
    let p ← p.write port (.portDevice ⟨some miniport, none, none⟩)
    -- _NetworkPortDeviceInitRx
    let p ← p.write port (.portDevice ⟨some miniport, some rx, none⟩)
    if o.rxFramesEvent ≠ .success then pure (o.rxFramesEvent, p)
    else
      -- _NetworkPortDeviceInitTx
      let p ← p.write port (.portDevice ⟨some miniport, some rx, some tx⟩)
      if o.txFramesEvent ≠ .success then pure (o.txFramesEvent, p)
      else if o.descriptorsAvailable ≠ .success then pure (o.descriptorsAvailable, p)
      else pure (o.transmitThread, p)

/-- Free an array the port points to, and clear the pointer. -/
def freeField (port : Nat) (cleared : PortDevice) (b : Nat) (p : Blocks) : Exec Blocks := do
  let p ← p.free b
  p.write port (.portDevice cleared)

/-- C `NetworkPortDeviceUninit`. -/
def networkPortDeviceUninit (port : Nat) (p : Blocks) : Exec Blocks := do
  let d ← readPortDevice p port
  let p ← ifAny d.miniport (fun m p => do
    -- MiniportUninitializeDevice is found through the device object
    let mini ← readMiniport p m
    let _ ← readDeviceObject p mini.deviceObject
    freeMiniport m p) p
  let p ← ifAny d.rxBuffers (freeField port { d with rxBuffers := none }) p
  let p ← ifAny d.txBuffers (freeField port { d with rxBuffers := none, txBuffers := none }) p
  p.write port (.portDevice ⟨none, none, none⟩)

/-- The blocks of memory and the local variables of `_NetworkPortConfigureDevice`. -/
structure Frame where
  pool : Blocks
  pDevObj : Option Nat
  pPortDevice : Option Nat
  pMiniportDevice : Option Nat
  pRxBuffers : Option Nat
  pTxBuffers : Option Nat
  rxRingBuffer : Option Nat
  txRingBuffer : Option Nat

def Frame.start (p : Blocks) : Frame := ⟨p, none, none, none, none, none, none, none⟩

def onPool {α : Type} (x : Blocks → Exec (α × Blocks)) : Prog Frame Status α := fun f =>
  (x f.pool).map fun r => (.ok r.1, { f with pool := r.2 })

/-- A call that only looks at the blocks of memory. -/
def onRead {α : Type} (x : Blocks → Exec α) : Prog Frame Status α := fun f =>
  (x f.pool).map fun a => (.ok a, f)

/-- Create the device: its object and its extension. -/
def createDevice (o : Outcomes) : Prog Frame Status (Nat × Nat) := do
  let pDevObj ← onPool (ioCreateDevice o)
  Prog.modify fun f => { f with pDevObj := pDevObj }
  match pDevObj with
  | none => Prog.fail .deviceCouldNotBeCreated
  | some dev => do
    let ext ← onRead (readDeviceObject · dev)
    match ext with
    | none => Prog.fault .check
    | some port => do
      Prog.modify fun f => { f with pPortDevice := some port }
      -- NetworkPortDevicePreinit
      onPool fun p => do pure ((), ← p.write port (.portDevice ⟨none, none, none⟩))
      pure (dev, port)

/-- Create the miniport and its extension, if it asks for one. -/
def createMiniport (r : Registration) (o : Outcomes) (dev : Nat) : Prog Frame Status Nat := do
  let pMiniportDevice ← onPool fun p =>
    pure (exAllocatePoolWithTag o.miniport (.miniport ⟨dev, none⟩) p)
  Prog.modify fun f => { f with pMiniportDevice := pMiniportDevice }
  match pMiniportDevice with
  | none => Prog.fail .heapInsufficientResources
  | some m =>
    if r.deviceContextSize = 0 then pure m
    else do
      let deviceExtension ← onPool fun p => pure (exAllocatePoolWithTag o.deviceContext .memory p)
      onPool fun p => do pure ((), ← p.write m (.miniport ⟨dev, deviceExtension⟩))
      match deviceExtension with
      | none => Prog.fail .heapInsufficientResources
      | some _ => pure m

/-- Set up the buffers for one direction; `store` are the assignments through the pointers given to
    `_NetworkPortInitializeMiniportBuffers`. -/
def createBuffers (o : BufferOutcomes) (d : BufferDescription) (store : Nat → Nat → Frame → Frame) :
    Prog Frame Status Nat := do
  let buffers ← onPool (networkPortInitializeMiniportBuffers o d)
  match buffers with
  | .error status => Prog.fail status
  | .ok (array, ring) => do
    Prog.modify (store array ring)
    pure array

/-- The part of the `__try` block behind the receive buffers. -/
def configureDeviceRest (r : Registration) (o : Outcomes) (port miniport rx : Nat) : Prog Frame Status Unit := do
  let tx ← createBuffers o.tx r.txBuffers fun array ring f =>
    { f with pTxBuffers := some array, txRingBuffer := some ring }
  if o.miniportInitializeDevice ≠ .success then Prog.fail o.miniportInitializeDevice
  else do
    let status ← onPool (networkPortDeviceInit r o port miniport rx tx)
    if status ≠ .success then Prog.fail status
    else Prog.assert (o.interrupt = true)

/-- The `__try` block of `_NetworkPortConfigureDevice`. -/
def configureDeviceTry (r : Registration) (o : Outcomes) : Prog Frame Status Unit := do
  let device ← createDevice o
  let miniport ← createMiniport r o device.1
  let rx ← createBuffers o.rx r.rxBuffers fun array ring f =>
    { f with pRxBuffers := some array, rxRingBuffer := some ring }
  configureDeviceRest r o device.2 miniport rx

/-- The `__finally` block of `_NetworkPortConfigureDevice` after a failure. -/
def configureDeviceFinally (r : Registration) (f : Frame) : Exec Blocks := do
  let p ← ifAny f.pPortDevice networkPortDeviceUninit f.pool
  let p ← ifAny f.pDevObj ioDeleteDevice p
  let p ← ifAny f.pMiniportDevice freeMiniport p
  let p ← ifAny f.pRxBuffers (freeBuffers r.rxBuffers.numberOfBuffers) p
  ifAny f.pTxBuffers (freeBuffers r.txBuffers.numberOfBuffers) p

/-- C `_NetworkPortConfigureDevice`. -/
def networkPortConfigureDevice (r : Registration) (o : Outcomes) (p : Blocks) : Exec (Status × Blocks) := do
  let (result, f) ← configureDeviceTry r o (Frame.start p)
  match result with
  | .ok () => pure (.success, f.pool)
  | .error status => do
    let p ← configureDeviceFinally r f
    pure (status, p)

section Registering

/-- The driver: its extension, and the devices configured so far, which use it. -/
structure Driver (D : Type) where
  pool : Blocks
  driverExtension : Option Nat
  configured : List D

/-- What the calls before the loop of `NetworkPortRegisterMiniportDriver` give: the devices that match, and
    whether its three allocations succeed. -/
structure Matching (D : Type) where
  devices : Except Status (List D)
  driverExtension : Bool
  rxPhysicalAddresses : Bool
  txPhysicalAddresses : Bool

/-- C `_NetworkPortValidateMiniportFunctions`. -/
def networkPortValidateMiniportFunctions (f : MiniportFunctions) : Bool :=
  f.miniportInitializeDevice && f.miniportSendBuffer && f.miniportInterruptHandler &&
    f.miniportChangeDeviceStatus

/-- C `_NetworkPortValidateBufferDescription`. -/
def networkPortValidateBufferDescription (d : BufferDescription) : Bool :=
  d.numberOfBuffers ≠ 0 && d.descriptorSize ≠ 0 && d.bufferSize ≠ 0

variable {D : Type} (configure : D → Blocks → Exec (Status × Blocks))

/-- The loop of `NetworkPortRegisterMiniportDriver`: the number of devices that were initialized. Failures
    are passed over. -/
def configureDevices : List D → Driver D → Exec (Nat × Driver D)
  | [], s => pure (0, s)
  | d :: ds, s => do
    let (status, p) ← configure d s.pool
    if status ≠ .success then configureDevices ds { s with pool := p }
    else do
      let (noOfDevicesInitialized, s) ←
        configureDevices ds { s with pool := p, configured := s.configured ++ [d] }
      pure (noOfDevicesInitialized + 1, s)

/-- The local variables of `NetworkPortRegisterMiniportDriver` that its `__finally` block looks at. -/
structure Pointers where
  pPciDevices : Option Nat
  pRxPhysicalAddresses : Option Nat
  pTxPhysicalAddresses : Option Nat
  noOfDevicesInitialized : Nat

def freeIfAny (block : Option Nat) (p : Blocks) : Exec Blocks := ifAny block (fun a p => p.free a) p

/-- The `__try` block of `NetworkPortRegisterMiniportDriver`, whose status nobody looks at. -/
def registerMiniportDriverTry (m : Matching D) (s : Driver D) : Exec (Pointers × Driver D) :=
  match m.devices with
  | .error _ => pure (⟨none, none, none, 0⟩, s)
  | .ok devices => do
    -- no array is allocated if there are no devices
    let pci := exAllocatePoolWithTag (!devices.isEmpty) .memory s.pool
    ensure (s.driverExtension = none)
    match exAllocatePoolWithTag m.driverExtension .memory pci.2 with
    | (none, p) => pure (⟨pci.1, none, none, 0⟩, { s with pool := p })
    | (some extension, p) =>
      match exAllocatePoolWithTag m.rxPhysicalAddresses .memory p with
      | (none, p) => pure (⟨pci.1, none, none, 0⟩, { s with pool := p, driverExtension := some extension })
      | (some rx, p) =>
        match exAllocatePoolWithTag m.txPhysicalAddresses .memory p with
        | (none, p) =>
          pure (⟨pci.1, some rx, none, 0⟩, { s with pool := p, driverExtension := some extension })
        | (some tx, p) => do
          let (n, s) ← configureDevices configure devices
            { s with pool := p, driverExtension := some extension }
          pure (⟨pci.1, some rx, some tx, n⟩, s)

/-- The `__finally` block of `NetworkPortRegisterMiniportDriver`. -/
def registerMiniportDriverFinally (v : Pointers) (s : Driver D) : Exec (Status × Driver D) := do
  let p ← freeIfAny v.pRxPhysicalAddresses s.pool
  let p ← freeIfAny v.pTxPhysicalAddresses p
  let p ← freeIfAny v.pPciDevices p
  if v.noOfDevicesInitialized > 1 then pure (.success, { s with pool := p })
  else do
    let p ← freeIfAny s.driverExtension p
    pure (.deviceDoesNotExist, { s with pool := p, driverExtension := none })

/-- C `NetworkPortRegisterMiniportDriver`, for a driver object and a registration that are there;
    `configure` is `_NetworkPortConfigureDevice`. -/
def networkPortRegisterMiniportDriver (r : Registration) (m : Matching D) (s : Driver D) :
    Exec (Status × Driver D) :=
  if ¬ networkPortValidateBufferDescription r.rxBuffers then pure (.invalidBuffer, s)
  else if ¬ networkPortValidateBufferDescription r.txBuffers then pure (.invalidBuffer, s)
  else if ¬ networkPortValidateMiniportFunctions r.miniportFunctions then pure (.invalidFunction, s)
  else do
    let (v, s) ← registerMiniportDriverTry configure m s
    registerMiniportDriverFinally v s

end Registering

end HAL9000.NetworkPort
