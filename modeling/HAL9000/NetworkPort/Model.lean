import HAL9000.Lib.Reach
import HAL9000.CommonLib.Base

/-!
# Frames of a network port: the code, step by step

Port of `_NetDispatchSendFrame`, `NetPortTransmitFunction` and `_NetDispatchReceiveFrame`
(`NetworkPort/src/network_dispatch.c`) and of `NetworkPortNotifyReceiveBuffer` and the other notifications
of a miniport (`NetworkPort/src/network_miniport.c`).

A port has a list of frames to send, which any number of senders fill and the transmit worker empties, and a
list of frames received, which any number of notifications fill and any number of receivers empty. A call
that brings a frame is an element of a type `E`, which also names its `FRAME_DESCRIPTOR_ENTRY`; a call that
receives one is an element of a type `C`. An operation on an event or on a lock is one step. The events are
notification events: a wait returns at once if the event is signaled, and a signal lets everybody go who waits.
Each list operation, and each look at the state of the device, is a step of its own. The bytes of the frames are
left out.
-/

namespace HAL9000.NetworkPort
open Lib Function

/-! ### Lists of frames, and those who fill them -/

/-- Where a call that brings a frame is: what it does next. -/
inductive ProducerPc where
  /-- `Device->Miniport->LinkUp`. -/
  | link
  /-- `Device->Miniport->DeviceStatus.TxEnabled`. -/
  | enabled
  /-- The checks of the arguments and `NetworkPortAllocateFrameDescriptor`. -/
  | allocate
  /-- `LockAcquire(&Buffers.FramesLock, ..)`. -/
  | acquire
  /-- `IsListEmpty(&Buffers.FramesList)`. -/
  | test
  /-- `InsertTailList(&Buffers.FramesList, ..)`. -/
  | insert (listWasEmpty : Bool)
  /-- `LockRelease(&Buffers.FramesLock, ..)`. -/
  | release (listWasEmpty : Bool)
  /-- `ExEventSignal(&Buffers.FramesListNotEmptyEvent)`. -/
  | signal
  /-- `_InterlockedIncrement64(&Buffers.NumberOfFramesTransferred)`. -/
  | count
  | done (status : Status)
deriving DecidableEq, Repr

/-- A list of frames (C `PORT_BUFFERS`) with those who fill it and those who empty it, and a record of the frames
    inserted and removed so far. -/
structure PortBuffers (E C K : Type) where
  numberOfBuffers : Nat
  bufferSize : Nat
  framesLock : Option (E ⊕ C)
  framesList : List E
  framesListNotEmptyEvent : Bool
  numberOfFramesTransferred : Nat
  producer : E → ProducerPc
  consumer : C → K
  inserted : List E
  removed : List E

section Producers

variable {E C K : Type} [DecidableEq E]

/-- Insert a frame and signal the event if the list was empty, then go on with `after`. Both functions that
    bring frames do this; `wake` is what the signal does to a consumer. -/
def PortBuffers.insertFrame (wake : K → K) (after : ProducerPc) (s : PortBuffers E C K) (e : E) :
    Exec (PortBuffers E C K) :=
  match s.producer e with
  | .acquire =>
    if s.framesLock.isNone then
      pure { s with framesLock := some (.inl e), producer := update s.producer e .test }
    else throw .disabled
  | .test =>
    pure { s with producer := update s.producer e (.insert s.framesList.isEmpty) }
  | .insert listWasEmpty =>
    pure { s with
      framesList := s.framesList ++ [e]
      inserted := s.inserted ++ [e]
      producer := update s.producer e (.release listWasEmpty) }
  | .release listWasEmpty =>
    pure { s with
      framesLock := none
      producer := update s.producer e (if listWasEmpty then .signal else after) }
  | .signal =>
    pure { s with
      framesListNotEmptyEvent := true
      consumer := fun c => wake (s.consumer c)
      producer := update s.producer e after }
  | .link | .enabled | .allocate | .count | .done _ => throw .disabled

end Producers

/-- What the miniport and `IOCTL_NET_SET_DEVICE_STATUS` do to the device. -/
inductive DeviceAction where
  /-- (C `NetworkPortNotifyTxDescriptorAvailable`) -/
  | notifyTxDescriptorAvailable
  /-- (C `NetworkPortNotifyTxQueueFull`) -/
  | notifyTxQueueFull
  /-- (C `NetworkPortNotifyLinkStatusChange`) -/
  | notifyLinkStatusChange (linkUp : Bool)
  /-- (C `_NetDispatchChangeDeviceStatus`) -/
  | changeDeviceStatus (rxEnabled txEnabled : Bool)
deriving DecidableEq, Repr

/-! ### Sending -/

/-- Where the transmit worker is in its loop. -/
inductive TransmitPc (E : Type) where
  /-- `ExEventWaitForSignal(&pPortDevice->TxData.Buffers.FramesListNotEmptyEvent)`. -/
  | wait
  /-- Waiting for this event. -/
  | blocked
  /-- `LockAcquire(&pPortDevice->TxData.Buffers.FramesLock, ..)`. -/
  | acquire
  /-- `RemoveHeadList(&pPortDevice->TxData.Buffers.FramesList)`. -/
  | remove
  /-- `ExEventClearSignal(&pPortDevice->TxData.Buffers.FramesListNotEmptyEvent)`. -/
  | clear
  /-- `LockRelease(&pPortDevice->TxData.Buffers.FramesLock, ..)`, with the entry, if there was one. -/
  | release (entry : Option E)
  /-- `ExEventWaitForSignal(&pPortDevice->TxData.DescriptorsAvailable)`. -/
  | available (entry : E) (curTxIndex : Nat)
  /-- Waiting for this event. -/
  | starved (entry : E) (curTxIndex : Nat)
  /-- `MiniportSendBuffer` and what follows it. -/
  | send (entry : E) (curTxIndex : Nat)
deriving DecidableEq, Repr

/-- The frames to send (C `TX_DATA`, with what the functions read of `MINIPORT_DEVICE`). -/
structure TxData (E : Type) extends PortBuffers E Unit (TransmitPc E) where
  descriptorsAvailable : Bool
  currentTxIndex : Nat
  linkUp : Bool
  txEnabled : Bool

/-- A call of `_NetDispatchSendFrame`; `allocated` says whether it gets a frame descriptor. -/
structure SendFrame where
  inputBufferSize : Nat
  allocated : Bool

/-- The check of the size and the allocation of the descriptor. -/
def SendFrame.allocate (q : SendFrame) (bufferSize : Nat) : ProducerPc :=
  if q.inputBufferSize > bufferSize then .done .bufferTooLarge
  else if q.allocated then .acquire
  else .done .heapInsufficientResources

section Sending

variable {E : Type} [DecidableEq E]

/-- The worker after a signal of `FramesListNotEmptyEvent`. -/
def TransmitPc.wake : TransmitPc E → TransmitPc E
  | .blocked => .acquire
  | pc => pc

/-- The worker after a signal of `DescriptorsAvailable`. -/
def TransmitPc.refill : TransmitPc E → TransmitPc E
  | .starved e i => .send e i
  | pc => pc

/-- One step of a sender (C `_NetDispatchSendFrame`). -/
def TxData.netDispatchSendFrame (q : E → SendFrame) (s : TxData E) (e : E) : Exec (TxData E) :=
  match s.producer e with
  | .link => do
    ensure (0 ≠ (q e).inputBufferSize)
    let pc := if s.linkUp then .enabled else .done .deviceNotConnected
    pure { s with producer := update s.producer e pc }
  | .enabled =>
    let pc := if s.txEnabled then .allocate else .done .deviceDisabled
    pure { s with producer := update s.producer e pc }
  | .allocate =>
    pure { s with producer := update s.producer e ((q e).allocate s.bufferSize) }
  | .acquire | .test | .insert _ | .release _ | .signal => do
    let b ← s.toPortBuffers.insertFrame TransmitPc.wake (.done .success) e
    pure { s with toPortBuffers := b }
  | .count | .done _ => throw .disabled

/-- One step of the transmit worker (C `NetPortTransmitFunction`); `sends` says which calls of the miniport's
    `MiniportSendBuffer` succeed. -/
def TxData.netPortTransmitFunction (sends : Nat → Nat → Bool) (q : E → SendFrame) (s : TxData E) :
    Exec (TxData E) :=
  match s.consumer () with
  | .wait =>
    pure { s with consumer := fun _ => if s.framesListNotEmptyEvent then .acquire else .blocked }
  | .blocked => throw .disabled
  | .acquire =>
    if s.framesLock.isNone then
      pure { s with framesLock := some (.inr ()), consumer := fun _ => .remove }
    else throw .disabled
  | .remove =>
    match s.framesList with
    | [] => pure { s with consumer := fun _ => .clear }
    | e :: es =>
      pure { s with framesList := es, removed := s.removed ++ [e], consumer := fun _ => .release (some e) }
  | .clear =>
    pure { s with framesListNotEmptyEvent := false, consumer := fun _ => .release none }
  | .release none => pure { s with framesLock := none, consumer := fun _ => .wait }
  | .release (some e) =>
    pure { s with framesLock := none, consumer := fun _ => .available e s.currentTxIndex }
  | .available e i =>
    pure { s with consumer := fun _ => if s.descriptorsAvailable then .send e i else .starved e i }
  | .starved .. => throw .disabled
  | .send e i => do
    ensure ((q e).inputBufferSize ≤ maxWord)
    ensure (sends i (q e).inputBufferSize)
    if s.numberOfBuffers = 0 then throw .divide
    pure { s with
      numberOfFramesTransferred := wadd 64 s.numberOfFramesTransferred 1
      currentTxIndex := (i + 1) % s.numberOfBuffers % 2 ^ 16
      consumer := fun _ => .wait }

def TxData.deviceAction (s : TxData E) : DeviceAction → TxData E
  | .notifyTxDescriptorAvailable =>
    { s with descriptorsAvailable := true, consumer := fun c => (s.consumer c).refill }
  | .notifyTxQueueFull => { s with descriptorsAvailable := false }
  | .notifyLinkStatusChange linkUp => { s with linkUp := linkUp }
  | .changeDeviceStatus _ txEnabled => { s with txEnabled := txEnabled }

/-- Who takes a step. -/
inductive TxActor (E : Type) where
  | sender (call : E)
  | worker
  | device (action : DeviceAction)
deriving DecidableEq, Repr

def TxData.next (sends : Nat → Nat → Bool) (q : E → SendFrame) (s : TxData E) : TxActor E → Exec (TxData E)
  | .sender e => s.netDispatchSendFrame q e
  | .worker => s.netPortTransmitFunction sends q
  | .device a => pure (s.deviceAction a)

def TxStep (sends : Nat → Nat → Bool) (q : E → SendFrame) (s : TxData E) (a : TxActor E)
    (s' : TxData E) : Prop := s.next sends q a = .ok s'

end Sending

/-! ### Receiving -/

/-- Where a receiver is. -/
inductive ReceivePc (E : Type) where
  /-- The assertion about the size of the buffer. -/
  | start
  /-- `LockAcquire(&Device->RxData.Buffers.FramesLock, ..)`. -/
  | acquire
  /-- `Device->RxData.Buffers.FramesList.Flink`. -/
  | peek
  /-- `RemoveEntryList(pListEntry)`. -/
  | remove (entry : E)
  /-- `ExEventClearSignal(&Device->RxData.Buffers.FramesListNotEmptyEvent)`. -/
  | clear
  /-- `LockRelease(&Device->RxData.Buffers.FramesLock, ..)`, with the first entry, if there was one, and whether
      it has been removed. -/
  | release (entry : Option E) (removed : Bool)
  /-- `Device->Miniport->LinkUp`. -/
  | link
  /-- `Device->Miniport->DeviceStatus.RxEnabled`. -/
  | enabled
  /-- `ExEventWaitForSignal(&Device->RxData.Buffers.FramesListNotEmptyEvent)`. -/
  | wait
  /-- Waiting for this event. -/
  | blocked
  /-- Returned, with the frame it was given. -/
  | done (status : Status) (information : Nat) (frame : Option E)
deriving DecidableEq, Repr

/-- The frames received (C `RX_DATA`, with what the functions read of `MINIPORT_DEVICE`). -/
structure RxData (E C : Type) extends PortBuffers E C (ReceivePc E) where
  linkUp : Bool
  rxEnabled : Bool

/-- A call of `NetworkPortNotifyReceiveBuffer`; `allocated` says whether it gets a frame descriptor. -/
structure ReceiveBuffer where
  desciptorIndex : Nat
  bufferSize : Nat
  allocated : Bool

/-- The checks of the arguments and the allocation of the descriptor. -/
def ReceiveBuffer.allocate (q : ReceiveBuffer) (numberOfBuffers bufferSize : Nat) : ProducerPc :=
  if q.desciptorIndex ≥ numberOfBuffers then .done .invalidParameter2
  else if q.bufferSize > bufferSize then .done .invalidParameter3
  else if q.allocated then .acquire
  else .done .heapInsufficientResources

/-- Size of the smallest buffer to receive into (C `sizeof(NET_RECEIVE_FRAME_OUTPUT)`). -/
def sizeofReceiveFrameOutput : Nat := 14

section Receiving

variable {E C : Type} [DecidableEq E] [DecidableEq C]

/-- A receiver after a signal of `FramesListNotEmptyEvent`. -/
def ReceivePc.wake : ReceivePc E → ReceivePc E
  | .blocked => .acquire
  | pc => pc

/-- One step of a notification (C `NetworkPortNotifyReceiveBuffer`). -/
def RxData.networkPortNotifyReceiveBuffer (q : E → ReceiveBuffer) (s : RxData E C) (e : E) : Exec (RxData E C) :=
  match s.producer e with
  | .allocate => do
    ensure (0 ≠ (q e).bufferSize)
    let pc := (q e).allocate s.numberOfBuffers s.bufferSize
    pure { s with producer := update s.producer e pc }
  | .acquire | .test | .insert _ | .release _ | .signal => do
    let b ← s.toPortBuffers.insertFrame ReceivePc.wake .count e
    pure { s with toPortBuffers := b }
  | .count =>
    pure { s with
      numberOfFramesTransferred := wadd 64 s.numberOfFramesTransferred 1
      producer := update s.producer e (.done .success) }
  | .link | .enabled | .done _ => throw .disabled

def RxData.goto (s : RxData E C) (c : C) (pc : ReceivePc E) : RxData E C :=
  { s with consumer := update s.consumer c pc }

/-- One step of a receiver (C `_NetDispatchReceiveFrame`), with the size of its buffer. -/
def RxData.netDispatchReceiveFrame (q : E → ReceiveBuffer) (outputBufferSize : C → Nat)
    (s : RxData E C) (c : C) : Exec (RxData E C) :=
  match s.consumer c with
  | .start => do
    ensure (outputBufferSize c ≥ sizeofReceiveFrameOutput)
    pure (s.goto c .acquire)
  | .acquire =>
    if s.framesLock.isNone then
      pure { s with framesLock := some (.inr c), consumer := update s.consumer c .peek }
    else throw .disabled
  | .peek =>
    match s.framesList with
    | [] => pure (s.goto c .clear)
    | e :: _ =>
      pure (s.goto c (if (q e).bufferSize > outputBufferSize c then .release (some e) false else .remove e))
  | .remove e =>
    pure { s with
      framesList := s.framesList.erase e
      removed := s.removed ++ [e]
      consumer := update s.consumer c (.release (some e) true) }
  | .clear =>
    pure { s with framesListNotEmptyEvent := false, consumer := update s.consumer c (.release none false) }
  | .release (some e) removed =>
    pure { s with
      framesLock := none
      consumer := update s.consumer c
        (if removed then .done .success (q e).bufferSize (some e)
        else .done .bufferTooSmall (q e).bufferSize none) }
  | .release none _ =>
    pure { s with framesLock := none, consumer := update s.consumer c .link }
  | .link => pure (s.goto c (if s.linkUp then .enabled else .done .deviceNotConnected 0 none))
  | .enabled => pure (s.goto c (if s.rxEnabled then .wait else .done .deviceDisabled 0 none))
  | .wait => pure (s.goto c (if s.framesListNotEmptyEvent then .acquire else .blocked))
  | .blocked | .done .. => throw .disabled

def RxData.deviceAction (s : RxData E C) : DeviceAction → RxData E C
  | .notifyLinkStatusChange linkUp => { s with linkUp := linkUp }
  | .changeDeviceStatus rxEnabled _ => { s with rxEnabled := rxEnabled }
  | .notifyTxDescriptorAvailable | .notifyTxQueueFull => s

/-- Who takes a step. -/
inductive RxActor (E C : Type) where
  | miniport (call : E)
  | receiver (call : C)
  | device (action : DeviceAction)
deriving DecidableEq, Repr

def RxData.next (q : E → ReceiveBuffer) (outputBufferSize : C → Nat) (s : RxData E C) :
    RxActor E C → Exec (RxData E C)
  | .miniport e => s.networkPortNotifyReceiveBuffer q e
  | .receiver c => s.netDispatchReceiveFrame q outputBufferSize c
  | .device a => pure (s.deviceAction a)

def RxStep (q : E → ReceiveBuffer) (outputBufferSize : C → Nat) (s : RxData E C) (a : RxActor E C)
    (s' : RxData E C) : Prop := s.next q outputBufferSize a = .ok s'

end Receiving

/-! ### The start -/

/-- A list just initialised, and nobody in a call (C `_NetworkPortDeviceInitBuffers`). -/
structure PortBuffers.Initial {E C K : Type} (s : PortBuffers E C K) (producer : ProducerPc)
    (consumer : K) : Prop where
  framesLock : s.framesLock = none
  framesList : s.framesList = []
  framesListNotEmptyEvent : s.framesListNotEmptyEvent = false
  producer : ∀ e, s.producer e = producer
  consumer : ∀ c, s.consumer c = consumer
  inserted : s.inserted = []
  removed : s.removed = []

/-- (C `_NetworkPortDeviceInitTx`) -/
def TxInitial {E : Type} (s : TxData E) : Prop := s.toPortBuffers.Initial .link .wait

/-- (C `_NetworkPortDeviceInitRx`) -/
def RxInitial {E C : Type} (s : RxData E C) : Prop := s.toPortBuffers.Initial .allocate .start

end HAL9000.NetworkPort
