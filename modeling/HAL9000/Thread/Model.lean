import HAL9000.Lib.Reach
import HAL9000.CommonLib.Base
import HAL9000.CommonLib.List

/-!
# Threads and mutexes

Port of `MutexAcquire` and `MutexRelease` (`HAL9000/src/mutex.c`) and of the functions of
`HAL9000/src/thread.c` they use: priority donation, blocking and unblocking, and the ready list.

A thread has one list entry, `ReadyList`, for the ready list, for the waiting list of a mutex or of an
event, and for the list of donations to another thread. All of these lists live in one `Links`.

A call is one step, except that `MutexAcquire` stops at `ThreadBlock` and goes on, in a step of its
own, when the thread runs again. The functions run under locks and with interrupts disabled, so that
the steps of other threads fall between them, with one exception: `MutexRelease` calls
`ThreadUpdatePriorityAfterLockRelease` before it takes the lock of the mutex, and the steps of other
threads that fall into this call or behind it are left out. Processors are not modelled: a processor
that gave up its thread takes the next one from the ready list in a step of its own, and any number of
threads may be running.

Threads, mutexes and events are any types `T`, `X` and `E`.
-/

namespace HAL9000.Thread
open Lib Function

/-- The lists a thread can be in. -/
inductive Head (T X E : Type) where
  /-- `m_threadSystemData.ReadyThreadsList`. -/
  | ready
  /-- `WaitingList` of a mutex. -/
  | wait (mutex : X)
  /-- `WaitingList` of an event. -/
  | event (event : E)
  /-- `Donations` of a thread. -/
  | donations (thread : T)
deriving DecidableEq, Repr

/-- The list entries: the heads, and `ReadyList` of each thread. -/
inductive Link (T X E : Type) where
  | head (head : Head T X E)
  | thread (thread : T)
deriving DecidableEq, Repr

/-- All threads (C `THREAD`) and mutexes (C `MUTEX`) with the links of their lists; `acquiring` is the
    mutex in whose `MutexAcquire` a thread has stopped. -/
structure System (T X E : Type) where
  links : Links (Link T X E)
  priority : T → Nat
  initialPriority : T → Nat
  lockWaitedOn : T → Option X
  state : T → ThreadState
  acquiring : T → Option X
  holder : X → Option T
  currentRecursivityDepth : X → Nat
  maxRecursivityDepth : X → Nat

def threadPriorityMaximum : Nat := 31

variable {T X E : Type} [DecidableEq T] [DecidableEq X] [DecidableEq E]

/-- The thread an entry belongs to (C `CONTAINING_RECORD`); the head of a list belongs to none. -/
def containingRecord : Link T X E → Exec T
  | .thread t => pure t
  | .head _ => throw .wild

/-- Compare the priorities of two threads (C `ThreadComparePriority`). -/
def threadComparePriority (s : System T X E) (first second : Link T X E) : Exec Int := do
  let first ← containingRecord first
  let second ← containingRecord second
  if s.priority first > s.priority second then pure 1
  else if s.priority first < s.priority second then pure (-1)
  else pure 0

/-- Take the first donation, and pass it on if the thread waits for a lock itself. Without a donation
    the thread gets its initial priority back (C `ThreadUpdatePriority`); `donate` is
    `ThreadDonatePriority`. -/
def threadUpdatePriority (donate : System T X E → T → T → Exec (System T X E)) (s : System T X E)
    (t : T) : Exec (System T X E) :=
  let r := removeHeadList s.links (.head (.donations t))
  let s := { s with links := r.1 }
  if r.2 = .head (.donations t) then
    pure { s with priority := update s.priority t (s.initialPriority t) }
  else do
    let donor ← containingRecord r.2
    let s := { s with priority := update s.priority t (s.priority donor) }
    match s.lockWaitedOn t with
    | none => pure s
    | some requiredLock =>
      match s.holder requiredLock with
      | none => throw .wild
      | some h => if s.priority h < s.priority t then donate s t h else pure s

/-- Donate the priority of a thread to another one (C `ThreadDonatePriority`). -/
def threadDonatePriority : Nat → System T X E → T → T → Exec (System T X E)
  | 0, _, _, _ => throw .fuel
  | fuel + 1, s, donor, receiver => do
    let links ← insertOrderedList (fuel + 1) s.links (.head (.donations receiver)) (.thread donor)
      (fun current => do pure (decide ((← threadComparePriority s (.thread donor) current) < 0)))
    threadUpdatePriority (threadDonatePriority fuel) { s with links := links } receiver

/-- The loop of `ThreadUpdatePriorityAfterLockRelease`: drop the donations of threads that wait for
    the mutex. -/
def dropDonations (s : System T X E) (t : T) (x : X) :
    Nat → Links (Link T X E) → Link T X E → Exec (Links (Link T X E))
  | 0, _, _ => throw .fuel
  | fuel + 1, links, entry => do
    if entry = .head (.donations t) then pure links
    else
      let donor ← containingRecord entry
      -- the iterator moves on before the entry is removed
      dropDonations s t x fuel
        (if s.lockWaitedOn donor = some x then (removeEntryList links entry).1 else links)
        (links.flink entry)

/-- C `ThreadUpdatePriorityAfterLockRelease`. -/
def threadUpdatePriorityAfterLockRelease (fuel : Nat) (s : System T X E) (t : T) (x : X) : Exec (System T X E) := do
  let links ← dropDonations s t x fuel s.links (s.links.flink (.head (.donations t)))
  threadUpdatePriority (threadDonatePriority fuel)
    { s with links := links, lockWaitedOn := update s.lockWaitedOn t none } t

/-- Put a blocked thread in the ready list (C `ThreadUnblock`). -/
def threadUnblock (s : System T X E) (t : T) : Exec (System T X E) := do
  ensure (s.state t = .blocked)
  pure { s with links := insertTailList s.links (.head .ready) (.thread t), state := update s.state t .ready }

/-- The loop of `MutexAcquire`, up to the next `ThreadBlock` or to its end. -/
def mutexAcquireLoop (fuel : Nat) (s : System T X E) (t : T) (x : X) : Exec (System T X E) :=
  if s.holder x = some t then
    pure { s with acquiring := update s.acquiring t none }
  else do
    let s := { s with lockWaitedOn := update s.lockWaitedOn t (some x) }
    match s.holder x with
    | none => throw .wild
    | some h =>
      let s ← if s.priority h < s.priority t then threadDonatePriority fuel s t h else pure s
      pure { s with
        links := insertTailList s.links (.head (.wait x)) (.thread t)
        state := update s.state t .blocked
        acquiring := update s.acquiring t (some x) }

/-- C `MutexAcquire`, up to the first `ThreadBlock` or to its end. -/
def mutexAcquire (fuel : Nat) (s : System T X E) (t : T) (x : X) : Exec (System T X E) := do
  if s.holder x = some t then
    ensure (s.currentRecursivityDepth x < s.maxRecursivityDepth x)
    pure { s with
      lockWaitedOn := update s.lockWaitedOn t none
      currentRecursivityDepth :=
        update s.currentRecursivityDepth x (s.currentRecursivityDepth x + 1) }
  else if s.holder x = none then
    mutexAcquireLoop fuel
      { s with
        holder := update s.holder x (some t)
        currentRecursivityDepth := update s.currentRecursivityDepth x 1 } t x
  else mutexAcquireLoop fuel s t x

/-- Give the mutex to the first thread that waits for it, if there is one: the second half of
    `MutexRelease`, under `MutexLock`. -/
def mutexPass (s : System T X E) (x : X) : Exec (System T X E) :=
  let r := removeHeadList s.links (.head (.wait x))
  let s := { s with links := r.1 }
  if r.2 = .head (.wait x) then pure { s with holder := update s.holder x none }
  else do
    let u ← containingRecord r.2
    threadUnblock
      { s with
        holder := update s.holder x (some u)
        currentRecursivityDepth := update s.currentRecursivityDepth x 1 } u

/-- C `MutexRelease`. -/
def mutexRelease (fuel : Nat) (s : System T X E) (t : T) (x : X) : Exec (System T X E) := do
  ensure (s.holder x = some t)
  if s.currentRecursivityDepth x > 1 then
    pure { s with
      currentRecursivityDepth :=
        update s.currentRecursivityDepth x (s.currentRecursivityDepth x - 1) }
  else
    let s ← threadUpdatePriorityAfterLockRelease fuel s t x
    mutexPass s x

/-- C `ThreadSetPriority`. -/
def threadSetPriority (s : System T X E) (t : T) (newPriority : Nat) : Exec (System T X E) := do
  ensure (newPriority ≤ threadPriorityMaximum)
  if s.priority t > newPriority then pure s
  else pure { s with priority := update s.priority t newPriority }

/-- C `ThreadYield`, up to where the processor is given up. -/
def threadYield (s : System T X E) (t : T) : System T X E := { s with
    links := insertTailList s.links (.head .ready) (.thread t)
    state := update s.state t .ready }

/-- A processor takes the first thread of the ready list (C `_ThreadGetReadyThread` and
    `_ThreadSchedule`); if there is none it stays idle. -/
def threadSchedule (s : System T X E) : Exec (System T X E) :=
  let r := removeHeadList s.links (.head .ready)
  if r.2 = .head .ready then throw .disabled
  else do
    let t ← containingRecord r.2
    ensure (s.state t = .ready)
    pure { s with links := r.1, state := update s.state t .running }

/-- What happens next: a running thread makes a call, or goes on after having been woken in
    `MutexAcquire`, or a processor takes a thread. -/
inductive Action (T X : Type) where
  | acquire (thread : T) (mutex : X)
  | release (thread : T) (mutex : X)
  | setPriority (thread : T) (newPriority : Nat)
  | yield (thread : T)
  | resume (thread : T)
  | schedule
deriving DecidableEq, Repr

/-- The thread can make a call: it is running and not in the middle of `MutexAcquire`. -/
def System.Free (s : System T X E) (t : T) : Prop := s.state t = .running ∧ s.acquiring t = none

instance (s : System T X E) (t : T) : Decidable (s.Free t) := by
  unfold System.Free
  infer_instance

def System.next (fuel : Nat) (s : System T X E) : Action T X → Exec (System T X E)
  | .acquire t x => if s.Free t then mutexAcquire fuel s t x else throw .disabled
  | .release t x => if s.Free t then mutexRelease fuel s t x else throw .disabled
  | .setPriority t p => if s.Free t then threadSetPriority s t p else throw .disabled
  | .yield t => if s.state t = .running then pure (threadYield s t) else throw .disabled
  | .resume t =>
    match s.acquiring t with
    | none => throw .disabled
    | some x => if s.state t = .running then mutexAcquireLoop fuel s t x else throw .disabled
  | .schedule => threadSchedule s

/-- One step of the system, however long its loops run. -/
def Step (s : System T X E) (a : Action T X) (s' : System T X E) : Prop := ∃ fuel, s.next fuel a = .ok s'

end HAL9000.Thread
