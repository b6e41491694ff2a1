import HAL9000.Ipc.Model

/-!
# Processes and their threads: the code, step by step

Port of the places that create and drop references to a process and to its threads: `ProcessCreate`,
`ProcessCloseHandle`, `ProcessInsertThreadInList`, `ProcessRemoveThreadFromList` and `_ProcessDestroy`
(`HAL9000/src/process.c`), `UmApplicationRun` (`HAL9000/src/um_application.c`), and `ThreadCreateEx`,
`ThreadExit`, `ThreadCleanupPostSchedule`, `ThreadCloseHandle` and `_ThreadDestroy`
(`HAL9000/src/thread.c`). The counters are those of `CommonLib/src/ref_cnt.c`.

The state is that of one `PROCESS`, from the call of `ProcessCreate` that allocates it on, and of its
threads, which are any type `T`; processes share nothing but the list of processes and the identifiers.
The steps that insert a thread in the list of its process and remove it from there are taken by whoever
creates or destroys the thread, and are counted as steps of the thread. Besides the main thread, a
process has the threads that its own threads create. An access to the process after its memory has been
freed is a fault.

The names, the command line, the address space and `ActiveThreads` play no part in how long a process
lives, and are left out.
-/

namespace HAL9000.Process
open Lib Ipc Function

/-- Where the call of `ProcessCreate` for a process is. -/
inductive CreatePc (T : Type) where
  /-- There is no such process. -/
  | unused
  /-- `_ProcessInit` has returned, up to `ThreadCreateEx` in `UmApplicationRun`. -/
  | starting
  /-- `ThreadCreateEx` of the main thread, from `ProcessInsertThreadInList` on. -/
  | creating (thread : T)
  /-- `ThreadCloseHandle` in `UmApplicationRun`. -/
  | closing (thread : T)
  /-- Inside `_ThreadDestroy`, called from `ThreadCloseHandle`. -/
  | removing (thread : T)
  /-- `_ProcessReference`. -/
  | reference
  /-- `_ProcessDereference`, after a failure. -/
  | dereference
  /-- The call has succeeded. -/
  | returned
  /-- The call has failed. -/
  | failed
deriving DecidableEq, Repr

/-- What a thread does next, or what is done next with it. -/
inductive Pc (T : Type) where
  /-- There is no such thread. -/
  | unused
  /-- `LockAcquire` of `ProcessInsertThreadInList`. -/
  | insertLock
  /-- `NumberOfThreads++` and `InsertTailList`. -/
  | insert
  /-- `_ProcessReference` of `ProcessInsertThreadInList`. -/
  | insertReference
  /-- `LockRelease` of `ProcessInsertThreadInList`. -/
  | insertUnlock
  /-- `_ThreadReference`. -/
  | threadReference
  /-- The rest of `ThreadCreateEx`, up to `ThreadUnblock`. -/
  | setup
  /-- `ThreadCreateEx` has failed after the thread was inserted. -/
  | abandoned
  /-- The thread can run. -/
  | running
  /-- It is inside `ThreadCreateEx` for another thread of its process. -/
  | spawning (thread : T)
  /-- After `ThreadExit`; `ThreadCleanupPostSchedule` has not dropped its reference yet. -/
  | exited
  /-- Its own reference has been dropped. -/
  | ended
  /-- `LockAcquire` of `ProcessRemoveThreadFromList`. -/
  | removeLock
  /-- `_InterlockedDecrement` and `RemoveEntryList`. -/
  | remove
  /-- `_ProcessDereference` under the lock; `last` if no thread remains. -/
  | removeDereference (last : Bool)
  /-- `LockRelease` of `ProcessRemoveThreadFromList`. -/
  | removeUnlock (last : Bool)
  /-- `_ProcessDereference` after the last thread. -/
  | removeLast
  /-- The thread has been destroyed. -/
  | gone
deriving DecidableEq, Repr

/-- A process and its threads. -/
structure World (T : Type) where
  create : CreatePc T
  referenceCount : Nat
  numberOfThreads : Nat
  threadList : List T
  /-- The thread that is being inserted or removed by who has the lock. -/
  threadListLock : Option T
  /-- How often `_ProcessDestroy` has been called. -/
  destroyed : Nat
  /-- `ProcessCreate` has returned the process and the caller has not closed it. -/
  handle : Bool
  threadReferenceCount : T → Nat
  pc : T → Pc T
  /-- The thread that has created this one has not closed it. -/
  threadHandle : T → Bool

variable {T : Type} [DecidableEq T]

/-- The memory of the process is about to be accessed. -/
def World.access (w : World T) : Exec Unit :=
  if w.destroyed = 0 then pure () else throw .wild

/-- (C `_ProcessReference`) -/
def World.processReference (w : World T) : Exec (World T) := do
  w.access
  let n ← rfcReference w.referenceCount
  pure { w with referenceCount := n }

/-- (C `_ProcessDereference`), with `_ProcessDestroy` if there is no reference left. -/
def World.processDereference (w : World T) : Exec (World T) := do
  w.access
  let n ← rfcDereference w.referenceCount
  if n = 0 then
    ensure (w.numberOfThreads = 0)
    pure { w with referenceCount := n, destroyed := w.destroyed + 1 }
  else pure { w with referenceCount := n }

def World.goto (w : World T) (t : T) (pc : Pc T) : World T := { w with pc := update w.pc t pc }

/-- (C `_ThreadDereference`): the thread goes on with `pc`, or is destroyed if there is no reference
    left. -/
def World.threadDereference (w : World T) (t : T) (pc : Pc T) : Exec (World T) := do
  let n ← rfcDereference (w.threadReferenceCount t)
  pure { w with
    threadReferenceCount := update w.threadReferenceCount t n
    pc := update w.pc t (if n = 0 then .removeLock else pc) }

/-- (C `_ThreadInit`) -/
def World.threadInit (w : World T) (t : T) : World T := { w with
    threadReferenceCount := update w.threadReferenceCount t 1
    pc := update w.pc t .insertLock }

/-- What can happen. -/
inductive Action (T : Type) where
  /-- `ProcessCreate` is called. -/
  | processCreate
  /-- It fails before the main thread is put in the list. -/
  | fail
  /-- `ThreadCreateEx` of the main thread. -/
  | main (thread : T)
  /-- The next step of `ProcessCreate`. -/
  | step
  /-- `ThreadCreateEx` of a thread by another one of the process. -/
  | spawn (thread child : T)
  /-- The next step with a thread that is being inserted or removed. -/
  | run (thread : T)
  /-- The end of `ThreadCreateEx` of the main thread. -/
  | mainSetup (thread : T) (fails : Bool)
  /-- The end of `ThreadCreateEx` of a thread by another one of the process. -/
  | spawnSetup (thread child : T) (fails : Bool)
  /-- `ThreadExit`. -/
  | exit (thread : T)
  /-- `ThreadCleanupPostSchedule` after the last switch away from a thread. -/
  | cleanup (thread : T)
  /-- `ThreadCloseHandle` of a thread that another thread has created. -/
  | threadCloseHandle (thread : T)
  /-- `ProcessCloseHandle`. -/
  | processCloseHandle
deriving DecidableEq, Repr

def World.run (w : World T) (t : T) : Exec (World T) :=
  match w.pc t with
  | .insertLock => do
    w.access
    if w.threadListLock = none then pure (World.goto { w with threadListLock := some t } t .insert)
    else throw .disabled
  | .insert => do
    w.access
    ensure (w.numberOfThreads < maxDword)
    pure (World.goto { w with
        numberOfThreads := w.numberOfThreads + 1
        threadList := w.threadList ++ [t] } t .insertReference)
  | .insertReference => do
    let w ← w.processReference
    pure (w.goto t .insertUnlock)
  | .insertUnlock => do
    w.access
    pure (World.goto { w with threadListLock := none } t .threadReference)
  | .threadReference => do
    let n ← rfcReference (w.threadReferenceCount t)
    pure (World.goto { w with threadReferenceCount := update w.threadReferenceCount t n } t .setup)
  | .removeLock => do
    w.access
    if w.threadListLock = none then pure (World.goto { w with threadListLock := some t } t .remove)
    else throw .disabled
  | .remove => do
    w.access
    let remainingThreads := wsub 32 w.numberOfThreads 1
    ensure (remainingThreads ≠ maxDword)
    pure (World.goto { w with
        numberOfThreads := remainingThreads
        threadList := w.threadList.erase t } t (.removeDereference (remainingThreads = 0)))
  | .removeDereference last => do
    let w ← w.processDereference
    pure (w.goto t (.removeUnlock last))
  | .removeUnlock last => do
    w.access
    pure (World.goto { w with threadListLock := none } t (if last then .removeLast else .gone))
  | .removeLast => do
    let w ← w.processDereference
    pure (w.goto t .gone)
  | _ => throw .disabled

/-- A step of `ProcessCreate`. -/
def World.step (w : World T) : Exec (World T) :=
  match w.create with
  | .closing t => do
    let n ← rfcDereference (w.threadReferenceCount t)
    pure { w with
      threadReferenceCount := update w.threadReferenceCount t n
      pc := update w.pc t (if n = 0 then .removeLock else w.pc t)
      create := if n = 0 then .removing t else .reference }
  | .removing t => if w.pc t = .gone then pure { w with create := .reference } else throw .disabled
  | .reference => do
    let w ← w.processReference
    pure { w with create := .returned, handle := true }
  | .dereference => do
    let w ← w.processDereference
    pure { w with create := .failed }
  | _ => throw .disabled

def World.next (w : World T) : Action T → Exec (World T)
  | .processCreate =>
    if w.create = .unused then pure { w with referenceCount := 1, create := .starting }
    else throw .disabled
  | .fail => if w.create = .starting then pure { w with create := .dereference } else throw .disabled
  | .main t =>
    if w.create = .starting ∧ w.pc t = .unused then
      pure { w.threadInit t with create := .creating t }
    else throw .disabled
  | .step => w.step
  | .spawn u t =>
    if w.pc u = .running ∧ w.pc t = .unused then pure ((w.threadInit t).goto u (.spawning t))
    else throw .disabled
  | .run t => w.run t
  | .mainSetup t fails =>
    if w.create = .creating t ∧ w.pc t = .setup then do
      w.access
      pure (World.goto { w with create := if fails then .dereference else .closing t } t
        (if fails then .abandoned else .running))
    else throw .disabled
  | .spawnSetup u t fails =>
    if w.pc u = .spawning t ∧ w.pc t = .setup then do
      w.access
      pure ((World.goto { w with threadHandle := update w.threadHandle t (!fails) } t
        (if fails then .abandoned else .running)).goto u .running)
    else throw .disabled
  | .exit t =>
    if w.pc t = .running then do
      -- `ProcessNotifyThreadTermination`
      w.access
      pure (w.goto t .exited)
    else throw .disabled
  | .cleanup t => if w.pc t = .exited then w.threadDereference t .ended else throw .disabled
  | .threadCloseHandle t =>
    if w.threadHandle t then
      World.threadDereference { w with threadHandle := update w.threadHandle t false } t (w.pc t)
    else throw .disabled
  | .processCloseHandle =>
    if w.handle then World.processDereference { w with handle := false } else throw .disabled

/-- `ProcessCreate` has not been called. -/
structure Initial (w : World T) : Prop where
  create : w.create = .unused
  referenceCount : w.referenceCount = 0
  numberOfThreads : w.numberOfThreads = 0
  threadList : w.threadList = []
  threadListLock : w.threadListLock = none
  destroyed : w.destroyed = 0
  handle : w.handle = false
  threadReferenceCount : ∀ t, w.threadReferenceCount t = 0
  pc : ∀ t, w.pc t = .unused
  threadHandle : ∀ t, w.threadHandle t = false

def Step (w : World T) (a : Action T) (w' : World T) : Prop := w.next a = .ok w'

end HAL9000.Process
