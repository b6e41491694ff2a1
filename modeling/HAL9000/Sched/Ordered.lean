import HAL9000.Sched.Moves

/-!
# Threads, processors and the ready list

`Ordered` is the invariant of the scheduler: which threads can be current, in the ready list or waiting to
be unblocked while a processor is at some point of some function. A thread that waits to be unblocked is
about to block, under its block lock, or is blocked and nowhere current (`Waits`), unless its exit has
been forced. So whoever gets its block lock finds it blocked (`Ordered.unblockCheck`). Every move keeps
the invariant (`Ordered.move`), also when threads are forced to exit.
-/

namespace HAL9000.Sched
open Lib

section Points

variable {T : Type} {p : Pc T}

def Pc.holdsReady : Pc T → Bool
  | .yieldInsert | .unblockInsert .. | .unblockReadyRelease .. | .schedule | .switchRead | .switchSave
  | .switchLoad | .traceCheck | .traceName | .cleanup => true
  | _ => false

def Pc.exits : Pc T → Bool
  | .exitRelease | .exitState | .exitLock | .schedule => true
  | .unblockLock _ k | .unblockCheck _ k | .unblockReadyLock _ k | .unblockInsert _ k
  | .unblockReadyRelease _ k | .unblockRelease _ k => k == .exit
  | _ => false

def Pc.target : Pc T → Option T
  | .unblockLock t _ | .unblockCheck t _ | .unblockReadyLock t _ | .unblockInsert t _ => some t
  | _ => none

/-- The thread whose block lock has been taken in order to unblock it, until it is in the ready list. -/
def Pc.locked : Pc T → Option T
  | .unblockCheck t _ | .unblockReadyLock t _ | .unblockInsert t _ => some t
  | _ => none

def Pc.checked : Pc T → Option T
  | .unblockReadyLock t _ | .unblockInsert t _ => some t
  | _ => none

lemma Pc.target_of_locked {t : T} (h : p.locked = some t) : p.target = some t := by
  cases p with
  | unblockCheck | unblockReadyLock | unblockInsert => exact h
  | _ => cases h

lemma Pc.target_of_checked {t : T} (h : p.checked = some t) : p.target = some t := by
  cases p with
  | unblockReadyLock | unblockInsert => exact h
  | _ => cases h

/-- `ThreadExit` has set the state of the thread. -/
def Pc.dies : Pc T → Bool
  | .exitLock => true
  | .unblockLock _ k | .unblockCheck _ k | .unblockReadyLock _ k | .unblockInsert _ k
  | .unblockReadyRelease _ k | .unblockRelease _ k => k == .exit
  | _ => false

def Pc.switches : Pc T → Bool
  | .switchRead | .switchSave | .switchLoad => true
  | _ => false

lemma Pc.holdsReady_of_switches (h : p.switches = true) : p.holdsReady = true := by
  cases p with
  | switchRead | switchSave | switchLoad => rfl
  | _ => cases h

end Points

variable {C T : Type} {idleThread : C → T}

structure Away (idleThread : C → T) (s : State C T) (t : T) : Prop where
  created : s.created t = true
  state : s.state t = .blocked
  idle : ∀ c, t ≠ idleThread c
  current : ∀ c, s.current c ≠ t

def Blocking (s : State C T) (c : C) : Prop := s.blockLock (s.current c) = some c ∧
    (s.pc c = .block ∨ s.pc c = .blockState ∨
      s.state (s.current c) = .blocked ∧ (s.pc c = .blockLock ∨ s.pc c = .schedule))

def Waits (idleThread : C → T) (s : State C T) (t : T) : Prop :=
  Away idleThread s t ∨ (∃ c, s.current c = t ∧ t ≠ idleThread c ∧ Blocking s c) ∨ s.terminated t = true

structure Gone (idleThread : C → T) (s : State C T) (t : T) : Prop where
  created : s.created t = true
  state : s.state t ≠ .blocked
  idle : ∀ c, t ≠ idleThread c
  listed : t ∉ s.readyThreadsList
  current : ∀ c, s.current c = t → (s.pc c).exits = true

structure Ordered (idleThread : C → T) (s : State C T) : Prop where
  lock : ∀ c, s.readyThreadsLock = some c ↔ (s.pc c).holdsReady = true
  unique : ∀ c d, s.current c = s.current d → c = d
  idle_current : ∀ c d, s.current c = idleThread d → c = d
  idle_list : ∀ c, idleThread c ∉ s.readyThreadsList
  nodup : s.readyThreadsList.Nodup
  listed : ∀ t ∈ s.readyThreadsList, s.state t = .ready ∧ s.created t = true
  inserted : ∀ c, s.current c ∈ s.readyThreadsList → s.pc c = .schedule
  created : ∀ c, s.created (s.current c) = true
  idle_created : ∀ c, s.created (idleThread c) = true
  blocked : ∀ c, s.state (s.current c) = .blocked → s.current c ≠ idleThread c →
    s.pc c = .blockLock ∨ s.pc c = .schedule
  target_unique : ∀ c d t, (s.pc c).target = some t → (s.pc d).target = some t → c = d
  target_waiting : ∀ c t, (s.pc c).target = some t → s.waiting t = false
  waiting : ∀ t, s.waiting t = true → Waits idleThread s t
  target : ∀ c t, (s.pc c).target = some t → Waits idleThread s t
  locked : ∀ c t, (s.pc c).locked = some t → s.blockLock t = some c
  checked : ∀ c t, (s.pc c).checked = some t → Away idleThread s t
  pending : ∀ t, s.terminatePending t = true → ∀ c, t ≠ idleThread c
  terminated : ∀ t, s.terminated t = true → Gone idleThread s t

attribute [local grind] Pc.holdsReady Pc.exits Pc.target Pc.locked Pc.checked Blocking Caller.resume
  State.mustTerminate
attribute [local grind =] Function.update_apply
attribute [local grind cases] Caller

variable {s s' : State C T} {c : C} {t : T}

section

variable (h : Ordered idleThread s) {k : Caller}
include h

lemma Waits.created (hw : Waits idleThread s t) : s.created t = true := by
  obtain haway | ⟨d, rfl, _, _⟩ | hterm := hw
  · exact haway.created
  · exact h.created d
  · exact (h.terminated t hterm).created

lemma Waits.current_ne (hw : Waits idleThread s t) (hpc : s.pc c = .run) : s.current c ≠ t := by
  rintro rfl
  obtain haway | ⟨d, hd, _, hb⟩ | hterm := hw
  · exact haway.current c rfl
  · cases h.unique d c hd
    grind -linarith
  · have hexits := (h.terminated _ hterm).current c rfl
    grind -linarith

lemma Ordered.unblockInsert (hpc : s.pc c = .unblockInsert t k) : Away idleThread s t :=
  h.checked c t (by rw [hpc]; rfl)

lemma Ordered.unblockCheck (hpc : s.pc c = .unblockCheck t k) : Away idleThread s t ∨ s.terminated t = true := by
  have hlocked := h.locked c t (by rw [hpc]; rfl)
  obtain haway | ⟨d, rfl, _, hb, hd⟩ | hterm := h.target c t (by rw [hpc]; rfl)
  · exact .inl haway
  · cases hb.symm.trans hlocked
    grind -linarith
  · exact .inr hterm

end

section Moves

variable [DecidableEq C] [DecidableEq T]

section

variable (h : Ordered idleThread s)
include h

lemma Away.move (ha : Away idleThread s t) (hm : Move idleThread s c s') (hc : ∀ k, s.pc c ≠ .unblockInsert t k) :
    Away idleThread s' t := by
  obtain ⟨hcreated, hstate, hidle, hcurrent⟩ := ha
  have hne := hcurrent c
  cases hm with
  | schedule hpc hlock hlist =>
    refine ⟨hcreated, hstate, hidle, fun d => ?_⟩
    have hlisted := h.listed
    grind -linarith
  | unblockInsert hpc | yieldInsert | yieldIdle | blockState | exitState =>
    refine ⟨hcreated, ?_, hidle, hcurrent⟩
    grind -linarith
  | create hpc hnew =>
    refine ⟨?_, ?_, hidle, hcurrent⟩ <;> grind -linarith
  | _ => exact ⟨hcreated, hstate, hidle, hcurrent⟩

lemma Blocking.move {d : C} (hb : Blocking s d) (hidle : s.current d ≠ idleThread d) (hm : Move idleThread s c s') :
    Waits idleThread s' (s.current d) := by
  have hcreated := h.created d
  have hunique := h.unique
  have hlisted := h.listed
  have hcurrent := h.idle_current
  have hblocked := h.blocked d
  by_cases hcd : c = d
  · subst hcd
    cases hm with
    | schedule hpc hlock hlist =>
      refine .inl ⟨hcreated, ?_, ?_, ?_⟩ <;> grind -linarith
    | forcedExit => exact .inr (.inr (by grind -linarith))
    | _ => exact .inr (.inl ⟨c, by grind -linarith⟩)
  · have haway := fun t k (hpc : s.pc c = .unblockInsert t k) => (h.unblockInsert hpc).current d
    cases hm <;> exact .inr (.inl ⟨d, by grind -linarith⟩)

lemma Waits.move (hw : Waits idleThread s t) (hm : Move idleThread s c s') (hc : ∀ k, s.pc c ≠ .unblockInsert t k) :
    Waits idleThread s' t := by
  obtain haway | ⟨d, rfl, hidle, hb⟩ | hterm := hw
  · exact .inl (haway.move h hm hc)
  · exact hb.move h hidle hm
  · refine .inr (.inr ?_)
    have hcreated := (h.terminated t hterm).created
    cases hm with
    | create hpc hnew | forcedExit => grind -linarith
    | _ => exact hterm

lemma Gone.move (hg : Gone idleThread s t) (hm : Move idleThread s c s') : Gone idleThread s' t := by
  obtain ⟨hcreated, hstate, hidle, hlisted, hcurrent⟩ := hg
  have hc := hcurrent c
  have haway : ∀ k, s.pc c ≠ .unblockInsert t k := fun k hpc => hstate (h.unblockInsert hpc).state
  cases hm with
  | schedule hpc hlock hlist =>
    refine ⟨hcreated, hstate, hidle, ?_, ?_⟩ <;> grind -linarith
  | unblockInsert hpc | yieldInsert | yieldIdle | blockState | exitState =>
    refine ⟨hcreated, ?_, hidle, ?_, ?_⟩ <;> grind -linarith
  | create hpc hnew =>
    refine ⟨?_, ?_, hidle, hlisted, ?_⟩ <;> grind -linarith
  | _ => exact ⟨hcreated, hstate, hidle, hlisted, fun d => by grind -linarith⟩

end

namespace Ordered

variable (h : Ordered idleThread s) (hm : Move idleThread s c s')
include h hm

lemma lock_move (d : C) : s'.readyThreadsLock = some d ↔ (s'.pc d).holdsReady = true := by
  have hc := h.lock c
  have hd := h.lock d
  cases hm <;> grind -linarith

lemma unique_move (d e : C) (hde : s'.current d = s'.current e) : d = e := by
  cases hm with
  | schedule hpc hlock hlist =>
    have hunique := h.unique
    have hidle := h.idle_current
    have hinserted := h.inserted
    have hl := h.lock
    grind -linarith
  | _ => exact h.unique d e hde

lemma idle_current_move (hinj : Function.Injective idleThread) (d e : C)
    (hde : s'.current d = idleThread e) : d = e := by
  cases hm with
  | schedule hpc hlock hlist =>
    have hidle := h.idle_current d e
    have hnot := h.idle_list e
    have hce := @hinj c e
    grind -linarith
  | _ => exact h.idle_current d e hde

lemma idle_list_move (d : C) : idleThread d ∉ s'.readyThreadsList := by
  have hnot := h.idle_list d
  cases hm with
  | schedule hpc hlock hlist => grind -linarith
  | yieldInsert hpc hne =>
    have hidle := h.idle_current c d
    grind -linarith
  | unblockInsert hpc =>
    have hidle := (h.unblockInsert hpc).idle d
    grind -linarith
  | _ => exact hnot

lemma nodup_move : s'.readyThreadsList.Nodup := by
  have hnodup := h.nodup
  cases hm with
  | schedule hpc hlock hlist => grind -linarith
  | yieldInsert hpc hne =>
    have hinserted := h.inserted c
    grind -linarith
  | unblockInsert hpc =>
    have haway := (h.unblockInsert hpc).state
    have hlisted := h.listed
    grind -linarith
  | _ => exact hnodup

lemma listed_move (u : T) (hu : u ∈ s'.readyThreadsList) : s'.state u = .ready ∧ s'.created u = true := by
  have hlisted := h.listed u
  have hinserted := h.inserted c
  cases hm with
  | schedule hpc hlock hlist | yieldIdle | blockState | exitState | create => grind -linarith
  | yieldInsert hpc hne =>
    have hcreated := h.created c
    grind -linarith
  | unblockInsert hpc =>
    have hcreated := (h.unblockInsert hpc).created
    grind -linarith
  | _ => exact hlisted hu

lemma inserted_move (d : C) (hd : s'.current d ∈ s'.readyThreadsList) : s'.pc d = .schedule := by
  have hinserted := h.inserted d
  have hl := h.lock
  cases hm with
  | schedule hpc hlock hlist =>
    have hnodup := h.nodup
    have hidle := h.idle_list c
    grind -linarith
  | unblockInsert hpc =>
    have haway := (h.unblockInsert hpc).current d
    grind -linarith
  | yieldInsert hpc hne =>
    have hunique := h.unique c d
    grind -linarith
  | _ => grind -linarith

lemma created_move (d : C) : s'.created (s'.current d) = true := by
  have hcreated := h.created d
  cases hm with
  | schedule hpc hlock hlist =>
    have hlisted := h.listed
    have hidle := h.idle_created c
    grind -linarith
  | create => grind -linarith
  | _ => exact hcreated

lemma idle_created_move (d : C) : s'.created (idleThread d) = true := by
  have hcreated := h.idle_created d
  cases hm with
  | create => grind -linarith
  | _ => exact hcreated

lemma blocked_move (d : C) (hd : s'.state (s'.current d) = .blocked)
    (hidle : s'.current d ≠ idleThread d) : s'.pc d = .blockLock ∨ s'.pc d = .schedule := by
  have hblocked := h.blocked d
  have hcreated := h.created d
  have hunique := h.unique c d
  cases hm with
  | schedule hpc hlock hlist =>
    have hlisted := h.listed
    grind -linarith
  | _ => grind -linarith

lemma target_unique_move (d e : C) (u : T) (hd : (s'.pc d).target = some u)
    (he : (s'.pc e).target = some u) : d = e := by
  have hunique := h.target_unique d e u
  have hwaiting := h.target_waiting
  cases hm with
  | create hpc hnew =>
    have hcreated := fun d hd => (h.target d u hd).created h
    grind -linarith
  | _ => grind -linarith

lemma target_waiting_move (d : C) (u : T) (hd : (s'.pc d).target = some u) : s'.waiting u = false := by
  have hwaiting := h.target_waiting d u
  cases hm with
  | takeBlockLock hpc =>
    have hne := fun hd => (h.target d u hd).current_ne h hpc
    grind -linarith
  | _ => grind -linarith

lemma waiting_move (u : T) (hu : s'.waiting u = true) : Waits idleThread s' u := by
  have hold : s.waiting u = true → Waits idleThread s' u := by
    intro hw
    refine (h.waiting u hw).move h hm fun k hpc => ?_
    have hwaiting := h.target_waiting c u
    grind -linarith
  cases hm with
  | takeBlockLock hpc hlock =>
    by_cases hc : u = s.current c
    · subst hc
      exact .inr (.inl ⟨c, by grind -linarith⟩)
    · exact hold (by grind -linarith)
  | unblock | create => exact hold (by grind -linarith)
  | _ => exact hold hu

lemma target_move (d : C) (u : T) (hd : (s'.pc d).target = some u) : Waits idleThread s' u := by
  have hold : Waits idleThread s u → (∀ k, s.pc c ≠ .unblockInsert u k) → Waits idleThread s' u :=
    fun hw hc => hw.move h hm hc
  have htarget := h.target d u
  have hwaiting := h.waiting
  have hunique := h.target_unique c d u
  cases hm with
  | create hpc hnew =>
    by_cases hdc : d = c
    · have hcreated := h.created
      have hidle := h.idle_created
      refine .inl ⟨?_, ?_, ?_, ?_⟩ <;> grind -linarith
    · exact hold (by grind -linarith) (by grind -linarith)
  | _ => exact hold (by grind -linarith) (by grind -linarith)

lemma locked_move (d : C) (u : T) (hd : (s'.pc d).locked = some u) : s'.blockLock u = some d := by
  have hlocked := h.locked d u
  cases hm with
  | create hpc hnew =>
    have hcreated := fun hl => (h.target d u (Pc.target_of_locked hl)).created h
    grind -linarith
  | _ => grind -linarith

lemma checked_move (d : C) (u : T) (hd : (s'.pc d).checked = some u) : Away idleThread s' u := by
  have hold : Away idleThread s u ∧ ∀ k, s.pc c ≠ .unblockInsert u k := by
    have hchecked := h.checked d u
    have hunique := fun hl hc => h.target_unique c d u hc (Pc.target_of_checked hl)
    cases hm with
    | unblockCheck hpc hstate =>
      have hcheck := h.unblockCheck hpc
      have hgone := fun ht => (h.terminated u ht).state
      grind -linarith
    | _ => grind -linarith
  exact hold.1.move h hm hold.2

lemma pending_move (u : T) (hu : s'.terminatePending u = true) (d : C) : u ≠ idleThread d := by
  have hpending := h.pending u
  cases hm with
  | terminate | create => grind -linarith
  | _ => exact hpending hu d

lemma terminated_move (u : T) (hu : s'.terminated u = true) : Gone idleThread s' u := by
  have hold : s.terminated u = true → Gone idleThread s' u := fun ht => (h.terminated u ht).move h hm
  cases hm with
  | forcedExit hpc hterm =>
    by_cases hc : u = s.current c
    · subst hc
      have hcreated := h.created c
      have hpending := h.pending (s.current c)
      have hblocked := h.blocked c
      have hinserted := h.inserted c
      have hunique := h.unique
      refine ⟨hcreated, ?_, ?_, ?_, ?_⟩ <;> grind -linarith
    · exact hold (by grind -linarith)
  | create => exact hold (by grind -linarith)
  | _ => exact hold hu

/-- Every move keeps the invariant. -/
theorem move (hinj : Function.Injective idleThread) : Ordered idleThread s' where
  lock := h.lock_move hm
  unique := h.unique_move hm
  idle_current := h.idle_current_move hm hinj
  idle_list := h.idle_list_move hm
  nodup := h.nodup_move hm
  listed := h.listed_move hm
  inserted := h.inserted_move hm
  created := h.created_move hm
  idle_created := h.idle_created_move hm
  blocked := h.blocked_move hm
  target_unique := h.target_unique_move hm
  target_waiting := h.target_waiting_move hm
  waiting := h.waiting_move hm
  target := h.target_move hm
  locked := h.locked_move hm
  checked := h.checked_move hm
  pending := h.pending_move hm
  terminated := h.terminated_move hm

end Ordered

end Moves

end HAL9000.Sched
