import HAL9000.Lib.Reach
import HAL9000.CommonLib.Base

/-!
# Inter-processor calls: the code, step by step

Port of `SmpSendGenericIpiEx` and `_SmpIpcIpiIsr` (`HAL9000/src/smp.c`), `IpcGenerateEvent`,
`IpcWaitForEventHandling`, `IpcProcessEvent` and `_IpcFreeEvent` (`HAL9000/src/ipc.c`), and of the parts
of `CommonLib/src/ref_cnt.c` and `CommonLib/src/event.c` that they use.

Any number of calls are made at the same time; they are the elements of a type `E`, which also names the
`IPC_EVENT` a call allocates. Every access to shared memory is a step of its own, except that the
operations on an event list are one step, since they are made under `EventListLock`. They follow the
links of the list, so they access the entries next to the one they are about. An access to an event that
is not allocated is a fault.

A CPU has one bit for a pending interrupt of the vector that is used, so that an interrupt that is sent
while one is pending is merged with it. `NoOfEventsInList` is the length of the list. Pool allocations
are taken to succeed.
-/

namespace HAL9000.Ipc
open Lib Function

/-! ### Processors and calls -/

/-- The processors of the machine, by their identifiers (C `m_smpData.CpuList`, `ApicId`). -/
structure Machine where
  cpuList : List UInt8
  distinct : cpuList.Nodup

/-- The identifier of a processor in a group, a `BYTE`. The processor takes the shift count modulo 32
    (C `LogicalApicId`). -/
def logicalApicId (apicId : UInt8) : UInt8 := UInt8.ofNat (1 <<< (apicId.toNat % 32))

/-- Who is meant by a call (C `SMP_IPI_SEND_MODE` and `SMP_DESTINATION`). -/
inductive SendMode where
  | toCpu (apicId : UInt8)
  | toSelf
  | toAllIncludingSelf
  | toAllExcludingSelf
  | toGroup (affinity : UInt8)
deriving DecidableEq, Repr

/-- A call of `SmpSendGenericIpiEx` by the processor `self`; `freeFunction` says whether there is one. -/
structure Request where
  self : UInt8
  sendMode : SendMode
  waitForHandling : Bool
  freeFunction : Bool

/-- (C `_SmpDoesCpuMatchDestination`) -/
def smpDoesCpuMatchDestination (self apicId : UInt8) : SendMode → Bool
  | .toAllExcludingSelf => apicId != self
  | .toAllIncludingSelf => true
  | .toSelf => apicId == self
  | .toCpu destination => apicId == destination
  | .toGroup affinity => logicalApicId apicId == affinity &&& logicalApicId apicId

/-- The interrupt of a call reaches this processor. A group is addressed by bits of the logical
    identifiers (C `_SmpSendIpcIpi`). -/
def ipiReaches (self apicId : UInt8) : SendMode → Bool
  | .toGroup affinity => affinity &&& logicalApicId apicId != 0
  | mode => smpDoesCpuMatchDestination self apicId mode

/-- The processors that are meant (C `_SmpRetrieveMatchingCpus`). -/
def smpRetrieveMatchingCpus (m : Machine) (q : Request) : List UInt8 :=
  m.cpuList.filter fun c => smpDoesCpuMatchDestination q.self c q.sendMode

def ipiTargets (m : Machine) (q : Request) : List UInt8 := m.cpuList.filter fun c => ipiReaches q.self c q.sendMode

/-! ### Events -/

/-- The fields of an event that change or are looked at (C `IPC_EVENT`); `signaled` is the state of
    `TerminationEvent`. -/
structure IpcEvent where
  referenceCount : Nat
  signalTermination : Bool
  signaled : Bool
deriving DecidableEq, Repr

/-- C `sizeof(IPC_EVENT)`. -/
def sizeofIpcEvent : Nat := 72

/-- C `sizeof(IPC_EVENT_CPU)`. -/
def sizeofIpcEventCpu : Nat := 24

/-- (C `RfcReference`) -/
def rfcReference (referenceCount : Nat) : Exec Nat := do
  let newRefCount := wadd 32 referenceCount 1
  ensure (maxDword > newRefCount)
  ensure (1 ≤ newRefCount)
  pure newRefCount

/-- (C `RfcDereference`), up to the call of the free function. -/
def rfcDereference (referenceCount : Nat) : Exec Nat := do
  let newRefCount := wsub 32 referenceCount 1
  ensure (maxDword ≠ newRefCount)
  pure newRefCount

/-- Make an event for a number of processors (C `IpcGenerateEvent`). -/
def ipcGenerateEvent (waitForHandling : Bool) (numberOfCpus : Nat) : Exec IpcEvent :=
  let noOfAdditionalReferences := if waitForHandling then numberOfCpus else wsub 32 numberOfCpus 1
  let totalAllocationSize := wadd 32 sizeofIpcEvent (numberOfCpus * sizeofIpcEventCpu)
  -- the loop over `CpuEvents` writes all of them
  if totalAllocationSize < sizeofIpcEvent + numberOfCpus * sizeofIpcEventCpu then throw .wild
  else do
    let referenceCount ← (List.range noOfAdditionalReferences).foldlM (fun n _ => rfcReference n) 1
    pure ⟨referenceCount, waitForHandling, false⟩

/-! ### The system -/

/-- Where the sender is: what it does next. -/
inductive Sender where
  /-- The call has not been made yet. -/
  | idle
  /-- The loop that inserts the event into the lists of these processors; with none left,
      `_SmpSendIpcIpi`. -/
  | insert (rest : List UInt8)
  /-- The loop of `EvtWaitForSignal`. -/
  | wait
  /-- `RfcDereference` of `IpcWaitForEventHandling`. -/
  | dereference
  /-- `_IpcFreeEvent`, up to the call of the free function. -/
  | free
  /-- `ExFreePoolWithTag` of `_IpcFreeEvent`. -/
  | deallocate
  /-- The call has returned. -/
  | done
deriving DecidableEq, Repr

/-- Where a processor is in `_SmpIpcIpiIsr`. -/
inductive Isr (E : Type) where
  /-- Not in it. -/
  | idle
  /-- The interrupt has been accepted: `RemoveHeadList`. -/
  | entered
  /-- `pEvent->Function(pEvent->Context)`: the fields are read. -/
  | call (event : E)
  /-- The function is running. -/
  | running (event : E)
  /-- `signalTermination = pEvent->SignalTermination`. -/
  | finished (event : E)
  /-- `RfcDereference` of `IpcProcessEvent`. -/
  | dereference (event : E) (signalTermination : Bool)
  /-- `_IpcFreeEvent`, up to the call of the free function. -/
  | free (event : E)
  /-- `ExFreePoolWithTag` of `_IpcFreeEvent`. -/
  | deallocate (event : E)
  /-- `EvtSignal`. -/
  | signal (event : E)
deriving DecidableEq, Repr

/-- The events in the pool, the calls, and for each processor its event list (C `EventList`), whether an
    interrupt is pending and where it is in its interrupt routine. `handled` and `freeCalls` record which
    functions have finished. -/
structure State (E : Type) where
  heap : E → Option IpcEvent
  sender : E → Sender
  eventList : UInt8 → List E
  pending : UInt8 → Bool
  isr : UInt8 → Isr E
  handled : E → UInt8 → Nat
  freeCalls : E → Nat

section Steps

variable {E : Type} [DecidableEq E] (m : Machine) (q : E → Request)

def State.access (s : State E) (e : E) : Exec IpcEvent :=
  match s.heap e with
  | some ev => pure ev
  | none => throw .wild

/-- Access the event of an entry, if there is one. -/
def State.accessEntry (s : State E) : Option E → Exec Unit
  | some e => do let _ ← s.access e
  | none => pure ()

def State.setEvent (s : State E) (e : E) (ev : Option IpcEvent) : State E :=
  { s with heap := update s.heap e ev }

def State.setSender (s : State E) (e : E) (pc : Sender) : State E := { s with sender := update s.sender e pc }

def State.setIsr (s : State E) (c : UInt8) (pc : Isr E) : State E := { s with isr := update s.isr c pc }

def State.setList (s : State E) (c : UInt8) (es : List E) : State E :=
  { s with eventList := update s.eventList c es }

def destination (e : E) : List UInt8 := smpRetrieveMatchingCpus m (q e)

/-- The free function is called, if there is one. -/
def State.callFree (s : State E) (e : E) : State E :=
  { s with freeCalls := update s.freeCalls e (s.freeCalls e + (q e).freeFunction.toNat) }

def State.callHandler (s : State E) (e : E) (c : UInt8) : State E := { s with
    handled := update s.handled e (update (s.handled e) c (s.handled e c + 1)) }

/-- Send the interrupts (C `_SmpSendIpcIpi`). -/
def State.smpSendIpcIpi (s : State E) (e : E) : State E :=
  { s with pending := fun c => s.pending c || decide (c ∈ ipiTargets m (q e)) }

/-- One step of a call (C `SmpSendGenericIpiEx`). -/
def State.send (s : State E) (e : E) : Exec (State E) :=
  match s.sender e with
  | .idle =>
    if destination m q e = [] then pure (s.setSender e .done)
    else do
      let ev ← ipcGenerateEvent (q e).waitForHandling (destination m q e).length
      pure ((s.setEvent e (some ev)).setSender e (.insert (destination m q e)))
  | .insert (c :: rest) => do
    let _ ← s.access e
    s.accessEntry (s.eventList c).getLast?
    pure ((s.setList c (s.eventList c ++ [e])).setSender e (.insert rest))
  | .insert [] =>
    pure ((s.smpSendIpcIpi m q e).setSender e (if (q e).waitForHandling then .wait else .done))
  | .wait => do
    let ev ← s.access e
    ensure (ev.signalTermination = true)
    if ev.signaled then
      pure ((s.setEvent e (some { ev with signaled := false })).setSender e .dereference)
    else pure s
  | .dereference => do
    let ev ← s.access e
    let newRefCount ← rfcDereference ev.referenceCount
    pure ((s.setEvent e (some { ev with referenceCount := newRefCount })).setSender e
      (if newRefCount = 0 then .free else .done))
  | .free => do
    let _ ← s.access e
    pure ((s.callFree q e).setSender e .deallocate)
  | .deallocate => do
    let _ ← s.access e
    pure ((s.setEvent e none).setSender e .done)
  | .done => throw .disabled

/-- What follows the dereference of `IpcProcessEvent`. -/
def afterDereference (e : E) (signalTermination : Bool) (newRefCount : Nat) : Isr E :=
  if newRefCount = 0 then .free e
  else if signalTermination ∧ newRefCount = 1 then .signal e
  else .idle

/-- One step of a processor (C `_SmpIpcIpiIsr`). -/
def State.interrupt (s : State E) (c : UInt8) : Exec (State E) :=
  match s.isr c with
  | .idle =>
    if s.pending c then
      pure (State.setIsr { s with pending := update s.pending c false } c .entered)
    else throw .disabled
  | .entered =>
    match s.eventList c with
    -- `ASSERT(NULL != pListEntry)`
    | [] => throw .check
    | e :: rest => do
      let _ ← s.access e
      s.accessEntry rest.head?
      pure ((s.setList c rest).setIsr c (.call e))
  | .call e => do
    let _ ← s.access e
    pure (s.setIsr c (.running e))
  | .running e => pure ((s.callHandler e c).setIsr c (.finished e))
  | .finished e => do
    let ev ← s.access e
    pure (s.setIsr c (.dereference e ev.signalTermination))
  | .dereference e signalTermination => do
    let ev ← s.access e
    let newRefCount ← rfcDereference ev.referenceCount
    pure ((s.setEvent e (some { ev with referenceCount := newRefCount })).setIsr c
      (afterDereference e signalTermination newRefCount))
  | .free e => do
    let _ ← s.access e
    pure ((s.callFree q e).setIsr c (.deallocate e))
  | .deallocate e => do
    let _ ← s.access e
    pure ((s.setEvent e none).setIsr c .idle)
  | .signal e => do
    let ev ← s.access e
    pure ((s.setEvent e (some { ev with signaled := true })).setIsr c .idle)

/-- Who takes a step: the sender of a call, or a processor. -/
inductive Actor (E : Type) where
  | sender (event : E)
  | cpu (apicId : UInt8)
deriving DecidableEq, Repr

def State.next (s : State E) : Actor E → Exec (State E)
  | .sender e => s.send m q e
  | .cpu c => s.interrupt q c

/-- Nothing has been sent yet. -/
structure Initial (s : State E) : Prop where
  heap : ∀ e, s.heap e = none
  sender : ∀ e, s.sender e = .idle
  eventList : ∀ c, s.eventList c = []
  pending : ∀ c, s.pending c = false
  isr : ∀ c, s.isr c = .idle
  handled : ∀ e c, s.handled e c = 0
  freeCalls : ∀ e, s.freeCalls e = 0

def Step (s : State E) (a : Actor E) (s' : State E) : Prop := s.next m q a = .ok s'

end Steps

end HAL9000.Ipc
