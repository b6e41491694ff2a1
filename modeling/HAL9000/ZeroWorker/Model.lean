import HAL9000.Lib.Reach
import HAL9000.CommonLib.Base

/-!
# The thread that zeroes frames: the code, step by step

Port of `MmuReleaseMemory` and `_MmuZeroWorkerThreadFunction` (`HAL9000/src/mmu.c`).

Any number of calls of `MmuReleaseMemory` are made at the same time; they are the elements of a type `E`,
which also names the item a call allocates. An operation on `NewPagesEvent`, which is a notification event, is
one step: a wait returns at once if the event is signaled, and a signal lets everybody go who waits.
Every operation on `PagesLock` and, under the lock, on `PagesToZeroList` is a step of its own. The items are
taken to be allocated. What `MmuMapMemoryEx` can map is a parameter.
-/

namespace HAL9000.ZeroWorker
open Lib Function

/-- A range of frames (C `MMU_ZERO_WORKER_ITEM`). -/
structure ZeroWorkerItem where
  physicalAddress : Nat
  numberOfFrames : Nat

/-- Where a call of `MmuReleaseMemory` is: what it does next. -/
inductive ReleasePc where
  /-- The assertions. -/
  | start
  /-- `LockAcquire(&m_mmuData.ZeroThreadData.PagesLock, ..)`. -/
  | acquire
  /-- `InsertTailList`. -/
  | insert
  /-- `LockRelease(&m_mmuData.ZeroThreadData.PagesLock, ..)`. -/
  | release
  /-- `ExEventSignal(&m_mmuData.ZeroThreadData.NewPagesEvent)`. -/
  | signal
  | done
deriving DecidableEq, Repr

/-- Where the worker is in its loop. -/
inductive WorkerPc (E : Type) where
  /-- `ExEventWaitForSignal(pEvent)`. -/
  | wait
  /-- Waiting: only a signal can move the worker. -/
  | blocked
  /-- `LockAcquire(pLock, ..)`. -/
  | acquire
  /-- `RemoveHeadList(pListHead)`. -/
  | remove
  /-- `LockRelease(pLock, ..)`, with the entry that was removed, if the list was not empty. -/
  | release (entry : Option E)
  /-- `ExEventClearSignal(pEvent)`. -/
  | clear
  /-- `MmuMapMemoryEx`. -/
  | map (item : E)
  /-- `memzero`. -/
  | zero (item : E)
  /-- `PmmReleaseMemory`. -/
  | pmmRelease (item : E)
  /-- `MmuUnmapSystemMemory` and the release of the item's memory. -/
  | unmap (item : E)
deriving DecidableEq, Repr

/-- The worker's data (C `MMU_ZERO_THREAD_DATA`). The lock is held by a call (`some (some e)`) or by the worker
    (`some none`). What has been done to the ranges is recorded: how many bytes of each have been zeroed, and
    which ones have been released. -/
structure ZeroThreadData (E : Type) where
  newPagesEvent : Bool
  pagesLock : Option (Option E)
  pagesToZeroList : List E
  caller : E → ReleasePc
  worker : WorkerPc E
  zeroed : E → Nat
  released : E → Bool

/-- One step of a call (C `MmuReleaseMemory`). -/
def ZeroThreadData.mmuReleaseMemory {E : Type} [DecidableEq E] (q : E → ZeroWorkerItem)
    (s : ZeroThreadData E) (e : E) : Exec (ZeroThreadData E) :=
  match s.caller e with
  | .start => do
    ensure (isAddressAligned (q e).physicalAddress pageSize)
    ensure (0 ≠ (q e).numberOfFrames)
    pure { s with caller := update s.caller e .acquire }
  | .acquire =>
    if s.pagesLock = none then
      pure { s with pagesLock := some (some e), caller := update s.caller e .insert }
    else throw .disabled
  | .insert =>
    pure { s with pagesToZeroList := s.pagesToZeroList ++ [e], caller := update s.caller e .release }
  | .release =>
    pure { s with pagesLock := none, caller := update s.caller e .signal }
  | .signal =>
    pure { s with
      newPagesEvent := true
      worker := if s.worker = .blocked then .acquire else s.worker
      caller := update s.caller e .done }
  | .done => throw .disabled

/-- The size of a range as the worker computes it, a `DWORD`. -/
def noOfBytes (item : ZeroWorkerItem) : Nat := item.numberOfFrames * pageSize % 2 ^ 32

/-- One step of the worker (C `_MmuZeroWorkerThreadFunction`). -/
def ZeroThreadData.mmuZeroWorker {E : Type} [DecidableEq E] (maps : Nat → Nat → Bool)
    (q : E → ZeroWorkerItem) (s : ZeroThreadData E) : Exec (ZeroThreadData E) :=
  match s.worker with
  | .wait => pure { s with worker := if s.newPagesEvent then .acquire else .blocked }
  | .blocked => throw .disabled
  | .acquire =>
    if s.pagesLock = none then pure { s with pagesLock := some none, worker := .remove }
    else throw .disabled
  | .remove =>
    match s.pagesToZeroList with
    | [] => pure { s with worker := .release none }
    | e :: es => pure { s with pagesToZeroList := es, worker := .release (some e) }
  | .release none => pure { s with pagesLock := none, worker := .clear }
  | .release (some e) => pure { s with pagesLock := none, worker := .map e }
  | .clear => pure { s with newPagesEvent := false, worker := .wait }
  | .map e => do
    ensure (maps (q e).physicalAddress (noOfBytes (q e)))
    pure { s with worker := .zero e }
  | .zero e =>
    pure { s with zeroed := update s.zeroed e (noOfBytes (q e)), worker := .pmmRelease e }
  | .pmmRelease e =>
    pure { s with released := update s.released e true, worker := .unmap e }
  | .unmap _ => pure { s with worker := .wait }

/-- Who takes a step. -/
inductive Actor (E : Type) where
  | caller (call : E)
  | worker
deriving DecidableEq, Repr

def ZeroThreadData.next {E : Type} [DecidableEq E] (maps : Nat → Nat → Bool) (q : E → ZeroWorkerItem)
    (s : ZeroThreadData E) : Actor E → Exec (ZeroThreadData E)
  | .caller e => s.mmuReleaseMemory q e
  | .worker => s.mmuZeroWorker maps q

def Step {E : Type} [DecidableEq E] (maps : Nat → Nat → Bool) (q : E → ZeroWorkerItem)
    (s : ZeroThreadData E) (a : Actor E) (s' : ZeroThreadData E) : Prop := s.next maps q a = .ok s'

/-- The worker has just started, and no call has been made. -/
structure Initial {E : Type} (s : ZeroThreadData E) : Prop where
  newPagesEvent : s.newPagesEvent = false
  pagesLock : s.pagesLock = none
  pagesToZeroList : s.pagesToZeroList = []
  caller : ∀ e, s.caller e = .start
  worker : s.worker = .wait

end HAL9000.ZeroWorker
