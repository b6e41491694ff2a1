import Mathlib.Data.Fintype.Basic
import HAL9000.Lib.Reach
import HAL9000.CommonLib.Base

/-!
# The scheduler

Port of the scheduling functions of `HAL9000/src/thread.c`: `ThreadYield`, `ThreadTakeBlockLock`,
`ThreadBlock`, `ThreadUnblock`, `ThreadExit`, `_ThreadSchedule` and `ThreadCleanupPostSchedule`, with
`ThreadSwitch` and `ThreadStart` of `_thread.yasm`.

Any number of processors run at the same time. Each has a program counter `Pc`, and a step of the system
is a step of one processor: a lock operation, or an access to memory that other processors use. What is
private to a processor, and the ready list, which is only accessed under its lock, is accessed in the
same step as the memory next to it. From the call to its end, across the change of stacks, the
functions run with interrupts disabled; before and after that a processor is at `Pc.run`, where its
thread, or an interrupt routine, may call any function.

Processors and threads are any types `C` and `T`. A thread object is never reused for another thread.
-/

namespace HAL9000.Sched
open Lib Function

/-- Where a call of `ThreadUnblock` returns to. -/
inductive Caller where
  | thread
  /-- `ExEventSignal` of `ThreadExit`. -/
  | exit
deriving DecidableEq, Repr

/-- What a processor does next. -/
inductive Pc (T : Type) where
  /-- Code of the current thread. -/
  | run
  /-- `LockAcquire` of `ThreadYield`. -/
  | yieldLock
  /-- `InsertTailList` and `State = ThreadStateReady` of `ThreadYield`. -/
  | yieldInsert
  /-- `ThreadBlock`, up to the check of the flags. -/
  | block
  /-- `State = ThreadStateBlocked`. -/
  | blockState
  /-- `LockAcquire` of `ThreadBlock`. -/
  | blockLock
  /-- `LockAcquire` of `ThreadUnblock` for the block lock. -/
  | unblockLock (thread : T) (caller : Caller)
  /-- `ASSERT(ThreadStateBlocked == Thread->State)`. -/
  | unblockCheck (thread : T) (caller : Caller)
  /-- `LockAcquire` of `ThreadUnblock` for the ready list. -/
  | unblockReadyLock (thread : T) (caller : Caller)
  /-- `InsertTailList` and `State = ThreadStateReady` of `ThreadUnblock`. -/
  | unblockInsert (thread : T) (caller : Caller)
  /-- `LockRelease` of `ThreadUnblock` for the ready list. -/
  | unblockReadyRelease (thread : T) (caller : Caller)
  /-- `LockRelease` of `ThreadUnblock` for the block lock. -/
  | unblockRelease (thread : T) (caller : Caller)
  /-- `ThreadExit`, up to the release of the block lock. -/
  | exitRelease
  /-- `State = ThreadStateDying`. -/
  | exitState
  /-- `ThreadExit` signals the events others wait for, up to its `LockAcquire`. -/
  | exitLock
  /-- `_ThreadSchedule`, up to `SetCurrentThread`. -/
  | schedule
  /-- `pNextThread->Stack` is read. -/
  | switchRead
  /-- `mov [rcx], rsp` of `ThreadSwitch`. -/
  | switchSave
  /-- `mov rsp, rdx` of `ThreadSwitch`. -/
  | switchLoad
  /-- `if (pCpu->ThreadData.PreviousThread != NULL)`. -/
  | traceCheck
  /-- `pCpu->ThreadData.PreviousThread->Name` is read. -/
  | traceName
  /-- `ThreadCleanupPostSchedule`, up to the release of the lock of the ready list. -/
  | cleanup
  /-- `LockIsOwner(&prevThread->BlockLock)`. -/
  | cleanupOwner (prevThread : T)
  /-- `ASSERT` before the release of the block lock. -/
  | cleanupCheck (prevThread : T)
  /-- `LockRelease` of the block lock. -/
  | cleanupRelease (prevThread : T)
  /-- `prevThread->State == ThreadStateDying`. -/
  | cleanupState (prevThread : T)
  /-- `_ThreadDereference(prevThread)`. -/
  | cleanupDereference (prevThread : T)
deriving DecidableEq, Repr

/-- Where `ThreadUnblock` returns to. -/
def Caller.resume {T : Type} : Caller → Pc T
  | .thread => .run
  | .exit => .exitLock

/-- The fields of all threads (C `THREAD`) and processors (C `THREADING_DATA`), and the ready list with the
    holder of its lock (C `m_threadSystemData`). -/
structure State (C T : Type) where
  state : T → ThreadState
  priority : T → Nat
  /-- `THREAD_FLAG_FORCE_TERMINATE_PENDING`. -/
  terminatePending : T → Bool
  /-- `THREAD_FLAG_FORCE_TERMINATED`. -/
  terminated : T → Bool
  /-- Holder of `BlockLock`. -/
  blockLock : T → Option C
  /-- `RefCnt`: 0 once the thread has been destroyed. -/
  refCnt : T → Nat
  /-- `Stack` leads to the context the thread goes on from. -/
  saved : T → Bool
  /-- `pCpu` in the frame of `_ThreadSchedule` on the stack; a thread that has not run has none. -/
  leftOn : T → Option C
  /-- The thread has been created. -/
  created : T → Bool
  /-- The thread took its block lock in order to block, where another thread finds it, and nobody has
      called `ThreadUnblock` for it since. -/
  waiting : T → Bool
  /-- References besides the one of the scheduler. -/
  handles : T → Nat
  /-- How often the scheduler has dropped a reference. -/
  dropped : T → Nat
  current : C → T
  previous : C → Option T
  /-- The thread whose stack the processor uses. -/
  stack : C → T
  pc : C → Pc T
  readyThreadsLock : Option C
  readyThreadsList : List T

def threadPriorityMaximum : Nat := 31

section Locks

variable {C : Type} [DecidableEq C]

/-- Take a lock (C `LockAcquire`). -/
def lockAcquire (holder : Option C) (c : C) : Exec (Option C) := do
  ensure (holder ≠ some c)
  if holder = none then pure (some c) else throw .disabled

/-- Release a lock (C `LockRelease`). -/
def lockRelease (holder : Option C) (c : C) : Exec (Option C) := do
  ensure (holder = some c)
  pure none

end Locks

section Steps

variable {C T : Type} [DecidableEq C] [DecidableEq T]

/-- Go on at `pc`. -/
def State.goto (s : State C T) (c : C) (pc : Pc T) : State C T := { s with pc := update s.pc c pc }

/-- Set the holder of the lock of the ready list. -/
def State.setReadyLock (s : State C T) (holder : Option C) : State C T := { s with readyThreadsLock := holder }

/-- Set the holder of the block lock of a thread. -/
def State.setBlockLock (s : State C T) (t : T) (holder : Option C) : State C T :=
  { s with blockLock := update s.blockLock t holder }

def State.setState (s : State C T) (t : T) (state : ThreadState) : State C T :=
  { s with state := update s.state t state }

def State.setWaiting (s : State C T) (t : T) (b : Bool) : State C T :=
  { s with waiting := update s.waiting t b }

/-- Insert a thread in the ready list and make it ready. -/
def State.insert (s : State C T) (t : T) : State C T := { s with
    readyThreadsList := s.readyThreadsList ++ [t]
    state := update s.state t .ready }

/-- Lock the ready list and go on at `pc`. -/
def State.lockReady (s : State C T) (c : C) (pc : Pc T) : Exec (State C T) := do
  let holder ← lockAcquire s.readyThreadsLock c
  pure ((s.setReadyLock holder).goto c pc)

/-- Unlock the ready list and go on at `pc`. -/
def State.unlockReady (s : State C T) (c : C) (pc : Pc T) : Exec (State C T) := do
  let holder ← lockRelease s.readyThreadsLock c
  pure ((s.setReadyLock holder).goto c pc)

/-- Take the block lock of a thread and go on at `pc`. -/
def State.lockBlock (s : State C T) (c : C) (t : T) (pc : Pc T) : Exec (State C T) := do
  let holder ← lockAcquire (s.blockLock t) c
  pure ((s.setBlockLock t holder).goto c pc)

/-- Release the block lock of a thread and go on at `pc`. -/
def State.unlockBlock (s : State C T) (c : C) (t : T) (pc : Pc T) : Exec (State C T) := do
  let holder ← lockRelease (s.blockLock t) c
  pure ((s.setBlockLock t holder).goto c pc)

/-- The thread has been told to terminate, and has not begun to. -/
def State.mustTerminate (s : State C T) (t : T) : Bool := s.terminatePending t && !s.terminated t

/-- Begin a forced exit (C `_ThreadForcedExit`). -/
def State.forcedExit (s : State C T) (c : C) : State C T := { s with
    terminated := update s.terminated (s.current c) true
    pc := update s.pc c .exitRelease }

/-- The functions a thread can call. -/
inductive Call (T : Type) where
  /-- `ThreadYield`. -/
  | yield
  /-- `ThreadTakeBlockLock`, after which the thread calls `ThreadBlock`. -/
  | block
  /-- `ThreadUnblock`. -/
  | unblock (thread : T)
  /-- `ThreadExit`. -/
  | exit
  /-- `ThreadCreateEx`. -/
  | create (thread : T) (priority : Nat)
  /-- `ThreadSetPriority`. -/
  | setPriority (newPriority : Nat)
  /-- `ThreadTerminate`. -/
  | terminate (thread : T)
  /-- `ThreadCloseHandle`. -/
  | closeHandle (thread : T)
deriving DecidableEq, Repr

variable (idleThread : C → T)

/-- Make a new thread (C `_ThreadInit`), with a reference for its creator. -/
def State.init (s : State C T) (t : T) (priority : Nat) : State C T := { s with
    state := update s.state t .blocked
    priority := update s.priority t priority
    terminatePending := update s.terminatePending t false
    terminated := update s.terminated t false
    blockLock := update s.blockLock t none
    refCnt := update s.refCnt t 2
    saved := update s.saved t true
    leftOn := update s.leftOn t none
    created := update s.created t true
    waiting := update s.waiting t false
    handles := update s.handles t 1
    dropped := update s.dropped t 0 }

/-- Drop a reference that a handle stands for (C `ThreadCloseHandle`). -/
def State.closeHandle (s : State C T) (t : T) : State C T := { s with
    refCnt := update s.refCnt t (s.refCnt t - 1)
    handles := update s.handles t (s.handles t - 1) }

def State.call (s : State C T) (c : C) : Call T → Exec (State C T)
  | .yield => pure (if s.mustTerminate (s.current c) then s.forcedExit c else s.goto c .yieldLock)
  | .block =>
    -- an idle thread blocks without being in a waiting list
    (s.setWaiting (s.current c) (decide (s.current c ≠ idleThread c))).lockBlock c (s.current c) .block
  | .unblock t => pure ((s.setWaiting t false).goto c (.unblockLock t .thread))
  | .exit => pure (s.goto c .exitRelease)
  | .create t priority => do
    ensure (priority ≤ threadPriorityMaximum)
    pure ((s.init t priority).goto c (.unblockLock t .thread))
  | .setPriority newPriority => do
    ensure (newPriority ≤ threadPriorityMaximum)
    if s.priority (s.current c) > newPriority then pure s
    else pure { s with priority := update s.priority (s.current c) newPriority }
  | .terminate t => pure { s with terminatePending := update s.terminatePending t true }
  | .closeHandle t => do
    ensure (s.refCnt t ≠ 0)
    pure (s.closeHandle t)

/-- Make a thread the current one (C `SetCurrentThread`), unless it is already. -/
def State.switchTo (s : State C T) (c : C) (next : T) : State C T := { s with
    current := update s.current c next
    previous := update s.previous c (some (s.current c))
    pc := update s.pc c (if next = s.current c then .cleanup else .switchRead) }

/-- Choose the next thread (C `_ThreadSchedule` and `_ThreadGetReadyThread`). -/
def State.schedule (s : State C T) (c : C) : Exec (State C T) := do
  ensure (s.readyThreadsLock = some c)
  match s.readyThreadsList with
  | [] => pure (s.switchTo c (idleThread c))
  | t :: rest => do
    ensure (s.state t = .ready)
    pure (State.switchTo { s with readyThreadsList := rest } c t)

/-- `PreviousThread` of the processor that `pCpu` of the current thread leads to. -/
def State.tracedPrevious (s : State C T) (c : C) : Option T := (s.leftOn (s.current c)).bind s.previous

def State.saveContext (s : State C T) (c : C) (p : T) : State C T := { s with
    saved := update s.saved p true
    leftOn := update s.leftOn p (some c)
    pc := update s.pc c .switchLoad }

/-- Go on with the context of the current thread, in `_ThreadSchedule` or, if it is new, in
    `ThreadStart`. -/
def State.loadContext (s : State C T) (c : C) : State C T := { s with
    saved := update s.saved (s.current c) false
    stack := update s.stack c (s.current c)
    pc := update s.pc c (if s.leftOn (s.current c) = none then .cleanup else .traceCheck) }

/-- Drop the reference of the scheduler (C `_ThreadDereference`). -/
def State.dereference (s : State C T) (c : C) (p : T) : State C T := { s with
    refCnt := update s.refCnt p (s.refCnt p - 1)
    dropped := update s.dropped p (s.dropped p + 1)
    previous := update s.previous c none
    pc := update s.pc c .run }

/-- The next step of a processor that is inside one of the functions. -/
def State.continue (s : State C T) (c : C) : Exec (State C T) :=
  match s.pc c with
  | .run => throw .disabled
  | .yieldLock => s.lockReady c .yieldInsert
  | .yieldInsert =>
    pure (if s.current c = idleThread c then (s.setState (s.current c) .ready).goto c .schedule
      else (s.insert (s.current c)).goto c .schedule)
  | .block => do
    ensure (s.blockLock (s.current c) = some c)
    pure (if s.mustTerminate (s.current c) then s.forcedExit c else s.goto c .blockState)
  | .blockState => pure ((s.setState (s.current c) .blocked).goto c .blockLock)
  | .blockLock => s.lockReady c .schedule
  | .unblockLock t caller => s.lockBlock c t (.unblockCheck t caller)
  | .unblockCheck t caller => do
    ensure (s.state t = .blocked)
    pure (s.goto c (.unblockReadyLock t caller))
  | .unblockReadyLock t caller => s.lockReady c (.unblockInsert t caller)
  | .unblockInsert t caller => pure ((s.insert t).goto c (.unblockReadyRelease t caller))
  | .unblockReadyRelease t caller => s.unlockReady c (.unblockRelease t caller)
  | .unblockRelease t caller => s.unlockBlock c t caller.resume
  | .exitRelease =>
    if s.blockLock (s.current c) = some c then s.unlockBlock c (s.current c) .exitState
    else pure (s.goto c .exitState)
  | .exitState => pure ((s.setState (s.current c) .dying).goto c .exitLock)
  | .exitLock => s.lockReady c .schedule
  | .schedule => s.schedule idleThread c
  | .switchRead => if s.saved (s.current c) then pure (s.goto c .switchSave) else throw .wild
  | .switchSave =>
    match s.previous c with
    | none => throw .wild
    | some p => pure (s.saveContext c p)
  | .switchLoad => pure (s.loadContext c)
  | .traceCheck => pure (s.goto c (if s.tracedPrevious c = none then .cleanup else .traceName))
  | .traceName => if s.tracedPrevious c = none then throw .wild else pure (s.goto c .cleanup)
  | .cleanup => s.unlockReady c ((s.previous c).elim .run .cleanupOwner)
  | .cleanupOwner p =>
    pure (s.goto c (if s.blockLock p = some c then .cleanupCheck p else .cleanupState p))
  | .cleanupCheck p => do
    ensure (s.state p = .blocked ∨ p = idleThread c)
    pure (s.goto c (.cleanupRelease p))
  | .cleanupRelease p => s.unlockBlock c p .run
  | .cleanupState p => pure (s.goto c (if s.state p = .dying then .cleanupDereference p else .run))
  | .cleanupDereference p => do
    ensure (s.refCnt p ≠ 0)
    pure (s.dereference c p)

/-- A step: a call, or the next step inside a function. -/
inductive Act (C T : Type) where
  | call (cpu : C) (call : Call T)
  /-- `ThreadExit` unblocks a thread that waits for the exit. -/
  | notify (cpu : C) (thread : T)
  | continue (cpu : C)
deriving DecidableEq, Repr

def State.next (s : State C T) : Act C T → Exec (State C T)
  | .call c k => if s.pc c = .run then s.call idleThread c k else throw .disabled
  | .notify c t =>
    if s.pc c = .exitLock then pure ((s.setWaiting t false).goto c (.unblockLock t .exit))
    else throw .disabled
  | .continue c => s.continue idleThread c

/-- `ThreadUnblock` is called for threads that wait to be unblocked, a new thread is a new object, and
    references are given up by those who have one. Idle threads run `_IdleThread`, which does not exit,
    and belong to the system process, which is not terminated. -/
def Proper (s : State C T) : Act C T → Prop
  | .call _ (.unblock t) => s.waiting t = true
  | .notify _ t => s.waiting t = true
  | .call _ (.create t _) => s.created t = false
  | .call c .exit => s.current c ≠ idleThread c
  | .call _ (.terminate t) => ∀ c, t ≠ idleThread c
  | .call _ (.closeHandle t) => s.handles t ≠ 0
  | _ => True

instance [Fintype C] (s : State C T) : ∀ a, Decidable (Proper idleThread s a)
  | .call _ (.unblock t) | .notify _ t => inferInstanceAs (Decidable (s.waiting t = true))
  | .call _ (.create t _) => inferInstanceAs (Decidable (s.created t = false))
  | .call c .exit => inferInstanceAs (Decidable (s.current c ≠ idleThread c))
  | .call _ (.terminate t) => inferInstanceAs (Decidable (∀ c, t ≠ idleThread c))
  | .call _ (.closeHandle t) => inferInstanceAs (Decidable (s.handles t ≠ 0))
  | .call _ .yield | .call _ .block | .call _ (.setPriority _) | .continue _ => .isTrue trivial

/-- Every processor runs its main thread (C `ThreadSystemInitMainForCurrentCPU`) and has its idle thread
    (C `ThreadSystemInitIdleForCurrentCPU`); there are no other threads. -/
structure Initial (s : State C T) : Prop where
  idle : Function.Injective idleThread
  current : Function.Injective s.current
  current_ne : ∀ c c', s.current c ≠ idleThread c'
  created : ∀ t, s.created t = true ↔ (∃ c, s.current c = t) ∨ ∃ c, idleThread c = t
  main : ∀ c, s.state (s.current c) = .running
  idleState : ∀ c, s.state (idleThread c) = .ready
  idleSaved : ∀ c, s.saved (idleThread c) = true
  terminatePending : ∀ t, s.terminatePending t = false
  terminated : ∀ t, s.terminated t = false
  blockLock : ∀ t, s.blockLock t = none
  waiting : ∀ t, s.waiting t = false
  leftOn : ∀ t, s.leftOn t = none
  refCnt : ∀ t, s.refCnt t = s.handles t + 1
  dropped : ∀ t, s.dropped t = 0
  stack : ∀ c, s.stack c = s.current c
  previous : ∀ c, s.previous c = none
  pc : ∀ c, s.pc c = .run
  lock : s.readyThreadsLock = none
  list : s.readyThreadsList = []

def Step (s : State C T) (a : Act C T) (s' : State C T) : Prop := s.next idleThread a = .ok s'

end Steps

end HAL9000.Sched
