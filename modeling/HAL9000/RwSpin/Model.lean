import HAL9000.Lib.Reach
import HAL9000.Lib.Word
import Mathlib.Logic.Function.Basic

/-!
# RW spinlocks: the code, step by step

Port of `RwSpinlockAcquire` and `RwSpinlockRelease` (`CommonLib/src/rw_spinlock.c`) and of
`RecRwSpinlockAcquire` and `RecRwSpinlockRelease` (`CommonLib/src/rec_rw_spinlock.c`).

The lock is three WORDs next to each other. The compare-exchanges are on DWORDs, so that a writer
compares `ActiveWriter` and `ActiveReaders` with zero at once, and a reader `WaitingWriters` and
`ActiveWriter`. Each interlocked operation, each assertion and each access to a field of the recursive
lock is a step of its own. Interrupts are off from the start of an acquisition to the end of the
release, so a CPU is in one call at a time. `writers` and `readers` are not in memory: they have an
entry for every acquisition from the operation that takes the lock to the one that gives it back.

The CPUs are any type `C`.
-/

namespace HAL9000.RwSpin
open Lib Function

/-- `_InterlockedCompareExchange` on the DWORD of two neighbouring WORDs: what it leaves in them and
    the DWORD it found. -/
def interlockedCompareExchange (low high exchange comparand : Nat) : Nat × Nat × Nat :=
  let old := low + 2 ^ 16 * high
  if old = comparand then (exchange % 2 ^ 16, exchange / 2 ^ 16, old) else (low, high, old)

/-- Where a CPU is in the calls on an RW spinlock: what it does next. -/
inductive Pc where
  /-- In no call. -/
  | idle
  /-- `_InterlockedIncrement16(&Spinlock->WaitingWriters)`. -/
  | announce
  /-- The loop on `ActiveWriter` and `ActiveReaders`. -/
  | claim
  /-- `_InterlockedDecrement16(&Spinlock->WaitingWriters)`. -/
  | withdraw
  /-- The loop on `WaitingWriters` and `ActiveWriter`. -/
  | pretend
  /-- `_InterlockedIncrement16(&Spinlock->ActiveReaders)`. -/
  | join
  /-- `ASSERT( 1 == Spinlock->ActiveWriter )` of the acquisition. -/
  | joined
  /-- `_InterlockedDecrement16(&Spinlock->ActiveWriter)` of the acquisition. -/
  | confess
  /-- `ASSERT( 1 == Spinlock->ActiveWriter )` of the release. -/
  | release (intrState : Bool)
  /-- `_InterlockedDecrement16(&Spinlock->ActiveWriter)` of the release. -/
  | give (intrState : Bool)
  /-- `_InterlockedDecrement16(&Spinlock->ActiveReaders)`. -/
  | leave (intrState : Bool)
deriving DecidableEq, Repr

def Pc.acquiring : Pc → Bool
  | .announce | .claim | .withdraw | .pretend | .join | .joined | .confess => true
  | _ => false

/-- An RW spinlock (C `RW_SPINLOCK`) and the CPUs that use it. -/
structure RwSpinlock (C : Type) where
  waitingWriters : Nat
  activeWriter : Nat
  activeReaders : Nat
  /-- Interrupts are enabled. -/
  interrupts : C → Bool
  pc : C → Pc
  writers : List C
  readers : List C

/-- A CPU enters a call, or takes the next step of the one it is in. -/
inductive Action (C : Type) where
  | acquire (cpu : C) (exclusive : Bool)
  | release (cpu : C) (intrState exclusive : Bool)
  | run (cpu : C)
deriving DecidableEq, Repr

variable {C : Type} [DecidableEq C]

def RwSpinlock.goto (s : RwSpinlock C) (c : C) (pc : Pc) : RwSpinlock C := { s with pc := update s.pc c pc }

/-- The start of an acquisition (C `RwSpinlockAcquire`). -/
def RwSpinlock.acquire (s : RwSpinlock C) (c : C) (exclusive : Bool) : RwSpinlock C :=
  RwSpinlock.goto { s with interrupts := update s.interrupts c false } c
    (if exclusive then .announce else .pretend)

/-- The start of a release (C `RwSpinlockRelease`). -/
def RwSpinlock.release (s : RwSpinlock C) (c : C) (intrState exclusive : Bool) : RwSpinlock C :=
  s.goto c (if exclusive then .release intrState else .leave intrState)

def RwSpinlock.run (s : RwSpinlock C) (c : C) : Exec (RwSpinlock C) :=
  match s.pc c with
  | .idle => throw .disabled
  | .announce =>
    pure (RwSpinlock.goto { s with waitingWriters := wadd 16 s.waitingWriters 1 } c .claim)
  | .claim =>
    -- because this is done on DWORD it will affect ActiveWriter and ActiveReaders
    let (activeWriter, activeReaders, old) :=
      interlockedCompareExchange s.activeWriter s.activeReaders 1 0
    let t := { s with activeWriter := activeWriter, activeReaders := activeReaders }
    if old ≠ 0 then pure t
    else pure (RwSpinlock.goto { t with writers := c :: s.writers } c .withdraw)
  | .withdraw =>
    pure (RwSpinlock.goto { s with waitingWriters := wsub 16 s.waitingWriters 1 } c .idle)
  | .pretend =>
    -- check WaitingWriters and ActiveWriter, so writers have priority
    let (waitingWriters, activeWriter, old) :=
      interlockedCompareExchange s.waitingWriters s.activeWriter (2 ^ 16 - 1 + 1) 0
    let t := { s with waitingWriters := waitingWriters, activeWriter := activeWriter }
    if old ≠ 0 then pure t else pure (t.goto c .join)
  | .join =>
    pure (RwSpinlock.goto
      { s with activeReaders := wadd 16 s.activeReaders 1, readers := c :: s.readers } c .joined)
  | .joined => do
    ensure (1 = s.activeWriter)
    pure (s.goto c .confess)
  | .confess =>
    pure (RwSpinlock.goto { s with activeWriter := wsub 16 s.activeWriter 1 } c .idle)
  | .release intrState => do
    ensure (1 = s.activeWriter)
    pure (s.goto c (.give intrState))
  | .give intrState =>
    pure (RwSpinlock.goto { s with
      activeWriter := wsub 16 s.activeWriter 1
      writers := s.writers.erase c
      interrupts := update s.interrupts c intrState } c .idle)
  | .leave intrState =>
    -- there may be one pseudo-active writer as well
    pure (RwSpinlock.goto { s with
      activeReaders := wsub 16 s.activeReaders 1
      readers := s.readers.erase c
      interrupts := update s.interrupts c intrState } c .idle)

def RwSpinlock.next (s : RwSpinlock C) : Action C → Exec (RwSpinlock C)
  | .acquire c exclusive =>
    if s.pc c = .idle then pure (s.acquire c exclusive) else throw .disabled
  | .release c intrState exclusive =>
    if s.pc c = .idle then pure (s.release c intrState exclusive) else throw .disabled
  | .run c => s.run c

/-- A lock just initialised, with no CPU in a call (C `RwSpinlockInit`). -/
structure Initial (s : RwSpinlock C) : Prop where
  waitingWriters : s.waitingWriters = 0
  activeWriter : s.activeWriter = 0
  activeReaders : s.activeReaders = 0
  pc : ∀ c, s.pc c = .idle
  writers : s.writers = []
  readers : s.readers = []

def Step (s : RwSpinlock C) (a : Action C) (s' : RwSpinlock C) : Prop := s.next a = .ok s'

/-- A release is by a CPU that has the lock in that mode. A CPU that has the lock shared does not take
    it shared again; other acquisitions of a lock it already has only make it spin. -/
def Matched (s : RwSpinlock C) : Action C → Prop
  | .acquire c exclusive => exclusive = true ∨ c ∉ s.readers
  | .release c _ exclusive => if exclusive then c ∈ s.writers else c ∈ s.readers
  | .run _ => True

instance (s : RwSpinlock C) : (a : Action C) → Decidable (Matched s a)
  | .acquire c e => inferInstanceAs (Decidable (e = true ∨ c ∉ s.readers))
  | .release c _ e => inferInstanceAs (Decidable (if e then c ∈ s.writers else c ∈ s.readers))
  | .run _ => .isTrue trivial

/-- Where a CPU is in the calls on a recursive RW spinlock; `intrState` is what the acquisition has
    found and the release is to restore. -/
inductive RecPc where
  /-- In no call. -/
  | idle
  /-- `Spinlock->Holder == pCurrentCpu` of an exclusive acquisition. -/
  | test (intrState : Bool)
  /-- `ASSERT_INFO` on the recursivity depth. -/
  | nest (intrState : Bool)
  /-- `Spinlock->CurrentRecursivityDepth++`, the load. -/
  | deepen (intrState : Bool)
  /-- `Spinlock->CurrentRecursivityDepth++`, the store. -/
  | deepened (intrState : Bool) (depth : Nat)
  /-- Inside `RwSpinlockAcquire`. -/
  | locking (intrState exclusive : Bool)
  /-- `ASSERT( NULL == Spinlock->Holder )`. -/
  | checkHolder (intrState exclusive : Bool)
  /-- `ASSERT( 0 == Spinlock->CurrentRecursivityDepth )`. -/
  | checkDepth (intrState exclusive : Bool)
  /-- `Spinlock->CurrentRecursivityDepth = 1`. -/
  | setDepth (intrState : Bool)
  /-- `Spinlock->Holder = CpuGetCurrent()`. -/
  | setHolder (intrState : Bool)
  /-- `ASSERT(INTR_OFF == CpuIntrGetState())`. -/
  | release (intrState exclusive : Bool)
  /-- `ASSERT(pCurrentCpu == Spinlock->Holder)`. -/
  | checkOwner (intrState : Bool)
  /-- `Spinlock->CurrentRecursivityDepth--`, the load. -/
  | lessen (intrState : Bool)
  /-- `Spinlock->CurrentRecursivityDepth--`, the store. -/
  | lessened (intrState : Bool) (depth : Nat)
  /-- `0 == Spinlock->CurrentRecursivityDepth || !Exclusive`. -/
  | testDepth (intrState exclusive : Bool)
  /-- `Spinlock->Holder = NULL`. -/
  | clearHolder (intrState exclusive : Bool)
  /-- Inside `RwSpinlockRelease`. -/
  | unlocking
deriving DecidableEq, Repr

/-- A recursive RW spinlock (C `REC_RW_SPINLOCK`) and the CPUs that use it. `held` is not in memory:
    for each CPU the acquisitions that have returned and whose release has not been called, the last
    one first, with the interrupt state they found and their mode. -/
structure RecRwSpinlock (C : Type) where
  rwSpinlock : RwSpinlock C
  currentRecursivityDepth : Nat
  maxRecursivityDepth : Nat
  holder : Option C
  pc : C → RecPc
  held : C → List (Bool × Bool)

def RecRwSpinlock.goto (s : RecRwSpinlock C) (c : C) (pc : RecPc) : RecRwSpinlock C :=
  { s with pc := update s.pc c pc }

def RecRwSpinlock.acquired (s : RecRwSpinlock C) (c : C) (intrState exclusive : Bool) : RecRwSpinlock C := { s with
    held := update s.held c ((intrState, exclusive) :: s.held c)
    pc := update s.pc c .idle }

/-- The start of an acquisition (C `RecRwSpinlockAcquire`). -/
def RecRwSpinlock.acquire (s : RecRwSpinlock C) (c : C) (exclusive : Bool) : RecRwSpinlock C :=
  let intrState := s.rwSpinlock.interrupts c
  if exclusive then
    { s with
      rwSpinlock := { s.rwSpinlock with interrupts := update s.rwSpinlock.interrupts c false }
      pc := update s.pc c (.test intrState) }
  else
    { s with rwSpinlock := s.rwSpinlock.acquire c false, pc := update s.pc c (.locking intrState false) }

/-- The start of a release (C `RecRwSpinlockRelease`). -/
def RecRwSpinlock.release (s : RecRwSpinlock C) (c : C) (intrState exclusive : Bool) : RecRwSpinlock C := { s with
    held := update s.held c (s.held c).tail
    pc := update s.pc c (.release intrState exclusive) }

def RecRwSpinlock.run (s : RecRwSpinlock C) (c : C) : Exec (RecRwSpinlock C) :=
  match s.pc c with
  | .idle => throw .disabled
  | .test i =>
    if s.holder = some c then pure (s.goto c (.nest i))
    else
      pure (RecRwSpinlock.goto { s with rwSpinlock := s.rwSpinlock.acquire c true } c (.locking i true))
  | .nest i => do
    ensure (s.currentRecursivityDepth < s.maxRecursivityDepth)
    pure (s.goto c (.deepen i))
  | .deepen i => pure (s.goto c (.deepened i s.currentRecursivityDepth))
  | .deepened i depth =>
    pure (RecRwSpinlock.acquired { s with currentRecursivityDepth := wadd 8 depth 1 } c i true)
  | .locking i exclusive => do
    let lock ← s.rwSpinlock.run c
    let s := { s with rwSpinlock := lock }
    pure (if lock.pc c = .idle then s.goto c (.checkHolder i exclusive) else s)
  | .checkHolder i exclusive => do
    ensure (s.holder = none)
    pure (s.goto c (.checkDepth i exclusive))
  | .checkDepth i exclusive => do
    ensure (s.currentRecursivityDepth = 0)
    pure (if exclusive then s.goto c (.setDepth i) else s.acquired c i false)
  | .setDepth i => pure (RecRwSpinlock.goto { s with currentRecursivityDepth := 1 } c (.setHolder i))
  | .setHolder i => pure (RecRwSpinlock.acquired { s with holder := some c } c i true)
  | .release i exclusive => do
    ensure (s.rwSpinlock.interrupts c = false)
    pure (s.goto c (if exclusive then .checkOwner i else .testDepth i false))
  | .checkOwner i => do
    ensure (s.holder = some c)
    pure (s.goto c (.lessen i))
  | .lessen i => pure (s.goto c (.lessened i s.currentRecursivityDepth))
  | .lessened i depth =>
    pure (RecRwSpinlock.goto { s with currentRecursivityDepth := wsub 8 depth 1 } c (.testDepth i true))
  | .testDepth i exclusive =>
    pure (s.goto c (if s.currentRecursivityDepth = 0 ∨ exclusive = false then .clearHolder i exclusive else .idle))
  | .clearHolder i exclusive =>
    pure (RecRwSpinlock.goto
      { s with holder := none, rwSpinlock := s.rwSpinlock.release c i exclusive } c .unlocking)
  | .unlocking => do
    let lock ← s.rwSpinlock.run c
    let s := { s with rwSpinlock := lock }
    pure (if lock.pc c = .idle then s.goto c .idle else s)

def RecRwSpinlock.next (s : RecRwSpinlock C) : Action C → Exec (RecRwSpinlock C)
  | .acquire c exclusive =>
    if s.pc c = .idle then pure (s.acquire c exclusive) else throw .disabled
  | .release c intrState exclusive =>
    if s.pc c = .idle then pure (s.release c intrState exclusive) else throw .disabled
  | .run c => s.run c

/-- A lock just initialised, with no CPU in a call (C `RecRwSpinlockInit`). -/
structure RecInitial (s : RecRwSpinlock C) : Prop where
  rwSpinlock : Initial s.rwSpinlock
  currentRecursivityDepth : s.currentRecursivityDepth = 0
  maxRecursivityDepth : 0 < s.maxRecursivityDepth ∧ s.maxRecursivityDepth < 2 ^ 8
  holder : s.holder = none
  pc : ∀ c, s.pc c = .idle
  held : ∀ c, s.held c = []

def RecStep (s : RecRwSpinlock C) (a : Action C) (s' : RecRwSpinlock C) : Prop := s.next a = .ok s'

/-- A release undoes the last acquisition of the CPU. -/
def Nested (s : RecRwSpinlock C) : Action C → Prop
  | .release c intrState exclusive => (s.held c).head? = some (intrState, exclusive)
  | _ => True

end HAL9000.RwSpin
