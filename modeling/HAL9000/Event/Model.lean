import HAL9000.Lib.Reach
import HAL9000.CommonLib.List

/-!
# Events: the code, step by step

Port of `ExEventWaitForSignal`, `ExEventSignal` and `ExEventClearSignal`
(`HAL9000/src/ex_event.c`). Every access to shared state is a step of its own, so that the calls of
different threads interleave at the places where they do in the code: between the interlocked
operations, the lock operations and, under the lock, the operations on the waiting list.

The waiting list is only used under `EventLock`, and is a list of threads here: `insertOrderedList_ring` says
that the operation on its links is this one. A thread takes its `BlockLock` before it leaves `EventLock` and keeps
it until it is blocked, which is why `ThreadUnblock` waits for a thread that is still on its way to be blocked.

The threads are any type `T`.
-/

namespace HAL9000.Event
open Lib

/-- Kinds of events (C `EX_EVT_TYPE`). -/
inductive EventType where
  | notification
  | synchronization
deriving DecidableEq, Repr

/-- The functions a thread can call on an event. -/
inductive Call where
  | waitForSignal
  | signal
  | clearSignal
deriving DecidableEq, Repr

/-- Where a thread is: what it does next. -/
inductive Pc (T : Type) where
  /-- In no call. -/
  | idle
  /-- `_InterlockedCompareExchange8` in the loop of the wait; `again` after having been woken. -/
  | waitTest (again : Bool)
  /-- `LockAcquire(&Event->EventLock, ..)` of the wait. -/
  | waitLock
  /-- `InsertTailList` or `InsertOrderedList`. -/
  | waitInsert
  /-- `ThreadTakeBlockLock`. -/
  | waitTakeBlockLock
  /-- `LockRelease(&Event->EventLock, ..)` of the wait. -/
  | waitRelease
  /-- `ThreadBlock`, up to where the processor is given up. -/
  | waitBlock
  /-- Blocked: only another thread can move this one. -/
  | blocked
  /-- Made ready by `ThreadUnblock`, about to return from `ThreadBlock`. -/
  | woken
  /-- `LockAcquire(&Event->EventLock, ..)` of the signal. -/
  | signalLock
  /-- `_InterlockedExchange8(&Event->Signaled, TRUE)`. -/
  | signalSet
  /-- `RemoveHeadList` in the loop of the signal. -/
  | signalRemove
  /-- `ThreadUnblock` of the thread taken from the list. -/
  | signalUnblock (thread : T)
  /-- `LockRelease(&Event->EventLock, ..)` of the signal. -/
  | signalRelease
  /-- `_InterlockedExchange8(&Event->Signaled, FALSE)`. -/
  | clear
deriving DecidableEq, Repr

/-- An event (C `EX_EVENT`) and the threads that use it; `timerOn` and `timerCountTicks` are read by
    the ordered insertion. -/
structure EventState (T : Type) where
  type : EventType
  signaled : Bool
  lock : Option T
  waiting : List T
  pc : T → Pc T
  timerOn : T → Bool
  timerCountTicks : T → Nat

variable {T : Type}

def EventState.insertWaiting (s : EventState T) (t : T) : List T :=
  if s.timerOn t then
    -- `_TickCompare`: threads with more ticks left come first
    insertOrdered (fun t u => s.timerCountTicks u < s.timerCountTicks t) t s.waiting
  else s.waiting ++ [t]

def EventState.goto [DecidableEq T] (s : EventState T) (t : T) (pc : Pc T) : EventState T :=
  { s with pc := Function.update s.pc t pc }

def Call.start : Call → Pc T
  | .waitForSignal => .waitTest false
  | .signal => .signalLock
  | .clearSignal => .clear

/-- A thread enters a call, or takes the next step of the one it is in. -/
inductive Action (T : Type) where
  | call (thread : T) (call : Call)
  | run (thread : T)
deriving DecidableEq, Repr

def EventState.run [DecidableEq T] (s : EventState T) (t : T) : Exec (EventState T) :=
  match s.pc t with
  | .idle => throw .disabled
  | .waitTest _ =>
    if s.signaled then
      -- a notification event stays signaled, a synchronization event is claimed by this thread
      pure (EventState.goto { s with signaled := s.type = .notification } t .idle)
    else pure (s.goto t .waitLock)
  | .waitLock =>
    if s.lock = none then pure (EventState.goto { s with lock := some t } t .waitInsert)
    else throw .disabled
  | .waitInsert =>
    pure (EventState.goto { s with waiting := s.insertWaiting t } t .waitTakeBlockLock)
  | .waitTakeBlockLock => pure (s.goto t .waitRelease)
  | .waitRelease => pure (EventState.goto { s with lock := none } t .waitBlock)
  | .waitBlock => pure (s.goto t .blocked)
  | .blocked => throw .disabled
  | .woken => pure (s.goto t (if s.type = .notification then .idle else .waitTest true))
  | .signalLock =>
    if s.lock = none then pure (EventState.goto { s with lock := some t } t .signalSet)
    else throw .disabled
  | .signalSet => pure (EventState.goto { s with signaled := true } t .signalRemove)
  | .signalRemove =>
    match s.waiting with
    | [] => pure (s.goto t .signalRelease)
    | u :: us => pure (EventState.goto { s with waiting := us } t (.signalUnblock u))
  | .signalUnblock u =>
    if s.pc u = .blocked then
      -- a synchronization event wakes one thread only
      pure ((s.goto u .woken).goto t (if s.type = .synchronization then .signalRelease else .signalRemove))
    else throw .disabled
  | .signalRelease => pure (EventState.goto { s with lock := none } t .idle)
  | .clear => pure (EventState.goto { s with signaled := false } t .idle)

def EventState.next [DecidableEq T] (s : EventState T) : Action T → Exec (EventState T)
  | .call t c => if s.pc t = .idle then pure (s.goto t c.start) else throw .disabled
  | .run t => s.run t

/-- An event just initialised, with no thread in a call (C `ExEventInit`). -/
structure Initial (s : EventState T) : Prop where
  lock : s.lock = none
  waiting : s.waiting = []
  pc : ∀ t, s.pc t = .idle

def Step [DecidableEq T] (s : EventState T) (a : Action T) (s' : EventState T) : Prop := s.next a = .ok s'

end HAL9000.Event
