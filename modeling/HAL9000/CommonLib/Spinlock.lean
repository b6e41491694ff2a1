import HAL9000.Lib.Reach

/-!
# Spinlocks

Port of `CommonLib/src/spinlock.c`; `monlock.c` has the same steps around `_mm_mwait`. Each access to a field is a
step of its own, and any CPU may make any call. The interrupt flag belongs to the CPU and not to the lock: between
the calls on this lock other code writes it, calls on other locks among it. `owners` is not in memory: a CPU is in
it from the operation that takes the lock to the one that gives it back.
-/

namespace HAL9000.Spin
open Lib Function

/-- What a CPU does next in a call. The checks are assertions of `SpinlockAcquire`. -/
inductive Pc where
  | idle
  | spin
  | checkFunction
  | checkHolder
  | setHolder
  | setFunction
  | checkState
  | clearHolder (old : Bool)
  | clearFunction (old : Bool)
  | free (old : Bool)
deriving DecidableEq

/-- A lock (C `SPINLOCK`) and its CPUs. -/
structure Spinlock (C : Type) where
  taken : Bool := false
  holder : Option C := none
  /-- It is not `NULL`. -/
  functionWhichTookLock : Bool := false
  interrupts : C → Bool
  pc : C → Pc := fun _ => .idle
  owners : List C := []

/-- A free lock (C `SpinlockInit`). -/
def spinlockInit {C : Type} (interrupts : C → Bool) : Spinlock C := { interrupts }

/-- A call, the next step of one, or a write of the interrupt flag by other code. -/
inductive Action where
  | acquire
  | tryAcquire
  | release (oldIntrState : Bool)
  | run
  | setInterrupts (enabled : Bool)

variable {C : Type} [DecidableEq C]

/-- The steps of the calls (C `SpinlockAcquire`, `SpinlockTryAcquire`, `SpinlockRelease`). -/
def Spinlock.next (s : Spinlock C) (c : C) (a : Action) : Exec (Spinlock C) :=
  match s.pc c, a with
  | .idle, .acquire => do
    ensure (s.holder ≠ some c)
    pure { s with interrupts := update s.interrupts c false, pc := update s.pc c .spin }
  | .idle, .tryAcquire =>
    if s.taken then pure s
    else pure { s with taken := true, owners := c :: s.owners, interrupts := update s.interrupts c false }
  | .idle, .release i => do
    ensure (s.holder = some c)
    ensure (s.interrupts c = false)
    pure { s with pc := update s.pc c (.clearHolder i) }
  | .idle, .setInterrupts i => pure { s with interrupts := update s.interrupts c i }
  | .spin, .run =>
    if s.taken then pure s
    else pure { s with taken := true, owners := c :: s.owners, pc := update s.pc c .checkFunction }
  | .checkFunction, .run => do
    ensure (s.functionWhichTookLock = false)
    pure { s with pc := update s.pc c .checkHolder }
  | .checkHolder, .run => do
    ensure (s.holder = none)
    pure { s with pc := update s.pc c .setHolder }
  | .setHolder, .run => pure { s with holder := some c, pc := update s.pc c .setFunction }
  | .setFunction, .run => pure { s with functionWhichTookLock := true, pc := update s.pc c .checkState }
  | .checkState, .run => do
    ensure (s.taken = true)
    pure { s with pc := update s.pc c .idle }
  | .clearHolder i, .run => pure { s with holder := none, pc := update s.pc c (.clearFunction i) }
  | .clearFunction i, .run => pure { s with functionWhichTookLock := false, pc := update s.pc c (.free i) }
  | .free i, .run => pure { s with
      taken := false
      owners := s.owners.erase c
      interrupts := update s.interrupts c i
      pc := update s.pc c .idle }
  | _, _ => throw .disabled

def Initial (s : Spinlock C) : Prop := ∃ interrupts, s = spinlockInit interrupts

def Step (s : Spinlock C) (e : C × Action) (s' : Spinlock C) : Prop := s.next e.1 e.2 = .ok s'

/-- What the owner finds in the fields. `SpinlockTryAcquire` has not set a holder. -/
@[grind]
def Fields (c : C) (holder : Option C) (function : Bool) : Pc → Prop
  | .idle => holder = if function then some c else none
  | .spin | .checkFunction | .checkHolder | .setHolder | .free _ => holder = none ∧ function = false
  | .setFunction => holder = some c ∧ function = false
  | .checkState | .clearHolder _ => holder = some c ∧ function = true
  | .clearFunction _ => holder = none ∧ function = true

structure Kept (s : Spinlock C) : Prop where
  taken : s.taken = true ↔ s.owners ≠ []
  owner : ∀ c ∈ s.owners, s.owners = [c] ∧ Fields c s.holder s.functionWhichTookLock (s.pc c)
  free : s.owners = [] → s.holder = none ∧ s.functionWhichTookLock = false
  others : ∀ c, c ∉ s.owners → s.pc c = .idle ∨ s.pc c = .spin
  interrupts : ∀ c, s.pc c ≠ .idle → s.interrupts c = false

/-- The lock is taken, but not by a holder. -/
structure Stuck (s : Spinlock C) : Prop where
  taken : s.taken = true
  holder : s.holder = none
  pc : ∀ c, s.pc c = .idle ∨ s.pc c = .spin

attribute [local grind =] update_apply ensure_ok

variable {s s' : Spinlock C} {c : C}

omit [DecidableEq C] in
/-- The holder owns the lock, and so does who is in a call behind the loop. -/
lemma Kept.owners_eq (h : Kept s) (hc : s.holder = some c ∨ s.pc c ≠ .idle ∧ s.pc c ≠ .spin) : s.owners = [c] := by
  cases ho : s.owners with
  | nil => grind [h.free ho, h.others c]
  | cons d l =>
    obtain ⟨hl, hf⟩ := h.owner d (by simp [ho])
    have := h.others c
    cases hpc : s.pc d <;> grind

/-- Every step keeps what is known of the fields, and does not free a lock that is stuck. -/
lemma Kept.step {e : C × Action} (h : Kept s) (hst : Step s e s') : Kept s' ∧ (Stuck s → Stuck s') := by
  have howner := fun c => h.owners_eq (c := c)
  obtain ⟨taken, owner, free, others, interrupts⟩ := h
  unfold Step Spinlock.next at hst
  -- a goal for each step of a call
  split at hst
  any_goals split at hst
  any_goals obtain ⟨_, hcheck, hst⟩ := bind_ok.mp hst
  any_goals obtain ⟨_, hoff, hst⟩ := bind_ok.mp hst
  all_goals cases hst
  all_goals refine ⟨by constructor <;> grind, ?_⟩
  all_goals rintro ⟨htaken, hholder, hpc⟩; constructor <;> grind

section

variable (hr : Reach Initial Step (fun _ _ => True) s)
include hr

/-- What is known of the fields holds in every run. -/
lemma kept_reach : Kept s :=
  hr.invariant (by rintro _ ⟨_, rfl⟩; constructor <;> simp [spinlockInit]) fun _ _ _ h _ hst => (h.step hst).1

/-- Whatever the CPUs call, at most one of them owns the lock, no assertion fails inside of a call, and the holder
    is the owner, who gets to give the lock back if its interrupts are off. -/
theorem spinlock_exclusive : (∀ c ∈ s.owners, s.owners = [c]) ∧ (∀ c, s.next c .run ≠ .error .check) ∧
    ∀ c, s.holder = some c → s.owners = [c] ∧
      (s.pc c = .idle → s.interrupts c = false → ∀ i, ∃ s', s.next c (.release i) = .ok s') := by
  have h := kept_reach hr
  refine ⟨fun c hc => (h.owner c hc).1, fun c hrun => ?_, fun c hc => ?_⟩
  · have hc := h.owners_eq (c := c)
    have hf := h.owner c
    have htaken := h.taken
    unfold Spinlock.next at hrun
    cases hpc : s.pc c <;> simp_all [Fields, bind_fault]
    split at hrun <;> cases hrun
  · have ho := h.owners_eq (.inl hc)
    refine ⟨ho, fun hpc hoff i => ?_⟩
    simp [Spinlock.next, hpc, hc, hoff, ensure_pos]

/-- A lock that `SpinlockTryAcquire` has taken is never given back: who wants it spins, and every call of
    `SpinlockRelease` fails its assertion. -/
theorem tryAcquire_forever (hfree : s.taken = false) (hst : Step s (c, .tryAcquire) s') {t : Spinlock C}
    (ht : Reach (· = s') Step (fun _ _ => True) t) :
    t.taken = true ∧ (∀ d, t.pc d = .idle ∨ t.pc d = .spin) ∧
      ∀ d i, t.pc d = .idle → t.next d (.release i) = .error .check := by
  have h := kept_reach hr
  have hstart : Stuck s' := by
    have := h.taken
    have := h.free
    have := h.others
    cases hpc : s.pc c <;> simp only [Step, Spinlock.next, hpc, hfree] at hst <;> cases hst
    constructor <;> grind
  obtain ⟨-, htaken, hholder, hpc⟩ := ht.invariant (I := fun t => Kept t ∧ Stuck t)
    (by rintro _ rfl; exact ⟨(h.step hst).1, hstart⟩) fun _ _ _ h _ hst => (h.1.step hst).imp_right (· h.2)
  exact ⟨htaken, hpc, fun d i hd => by simp [Spinlock.next, hd, hholder, ensure_neg]⟩

end

/-- Another lock's release has set the flag of a CPU before it takes the lock, while another one spins. -/
lemma exists_owned : ∃ s : Spinlock Bool, Reach Initial Step (fun _ _ => True) s ∧ s.owners = [true] ∧
    s.pc true = .checkFunction ∧ s.pc false = .spin :=
  exists_reach ⟨fun _ => false, rfl⟩
    [(true, .setInterrupts true), (true, .acquire), (false, .acquire), (true, .run), (false, .run)] (by decide)

theorem spinlock_exclusive_true : ∃ s : Spinlock Bool, s.owners = [true] ∧ s.next true .run ≠ .error .check := by
  obtain ⟨s, hr, ho, -⟩ := exists_owned
  exact ⟨s, ho, (spinlock_exclusive hr).2.1 true⟩

theorem tryAcquire_forever_true : ∃ s : Spinlock Bool, Step (spinlockInit fun _ => true) (true, .tryAcquire) s ∧
    ∀ i, s.next true (.release i) = .error .check := by
  refine ⟨_, by rw [Step]; rfl, fun i => ?_⟩
  exact (tryAcquire_forever (.start ⟨_, rfl⟩) rfl (by rw [Step]; rfl) (.start rfl)).2.2 true i rfl

end HAL9000.Spin
