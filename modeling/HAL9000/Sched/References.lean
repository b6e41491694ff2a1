import HAL9000.Sched.Placement

/-!
# The reference of the scheduler

The scheduler has a reference to every thread. When a thread has exited, the processor that ran it drops
the reference at the end of the switch to the next thread, in `ThreadCleanupPostSchedule`. There the
state of the previous thread is read after the lock of the ready list has been released, so that another
processor may run the thread meanwhile: if it exits there, both drop the reference. If a thread
only exits while no other processor is still finishing a switch away from it, the reference is dropped
once, and no processor accesses a thread that has been destroyed (`reference_dropped_once`).
-/

namespace HAL9000.Sched
open Lib

section Points

variable {T : Type}

/-- The processor has switched, or is switching, to another thread, and has not begun to clean up. -/
def Pc.beforeCleanup : Pc T → Bool
  | .switchRead | .switchSave | .switchLoad | .traceCheck | .traceName | .cleanup => true
  | _ => false

def Pc.prevThread : Pc T → Option T
  | .cleanupOwner p | .cleanupCheck p | .cleanupRelease p | .cleanupState p | .cleanupDereference p => some p
  | _ => none

/-- The thread that is being cleaned up, whose block lock the processor may have. -/
def Pc.mayRelease : Pc T → Option T
  | .cleanupOwner p | .cleanupCheck p | .cleanupRelease p => some p
  | _ => none

lemma Pc.prevThread_of_mayRelease {p : Pc T} {t : T} (h : p.mayRelease = some t) : p.prevThread = some t := by
  cases p with
  | cleanupOwner | cleanupCheck | cleanupRelease => exact h
  | _ => cases h

def Pc.unblocks : Pc T → Option T
  | .unblockCheck t _ | .unblockReadyLock t _ | .unblockInsert t _ | .unblockReadyRelease t _
  | .unblockRelease t _ => some t
  | _ => none

def Pc.mayBlock : Pc T → Bool
  | .block | .blockState | .blockLock | .schedule | .exitRelease => true
  | _ => false

end Points

variable {C T : Type} {idleThread : C → T} {s s' : State C T} {c : C} {t : T}

def Finishes (s : State C T) (c : C) (t : T) : Prop :=
  (s.pc c).prevThread = some t ∨ ((s.pc c).beforeCleanup = true ∧ s.previous c = some t)

def Leaves (s : State C T) (c : C) (t : T) : Prop :=
  (s.current c = t ∧ ((s.pc c).dies = true ∨ s.pc c = .schedule)) ∨ Finishes s c t

instance [DecidableEq T] (s : State C T) (c : C) (t : T) : Decidable (Finishes s c t) :=
  inferInstanceAs (Decidable (_ ∨ _))

def Holds (s : State C T) (c : C) (t : T) : Prop :=
  (s.current c = t ∧ (s.pc c).mayBlock = true) ∨ (s.pc c).mayRelease = some t ∨
    ((s.pc c).beforeCleanup = true ∧ s.previous c = some t) ∨ (s.pc c).unblocks = some t

/-- The references to threads, and who drops the one of the scheduler. -/
structure Counted (idleThread : C → T) (s : State C T) : Prop where
  refs : ∀ t, s.refCnt t + s.dropped t = s.handles t + 1
  alive : ∀ t, s.state t ≠ .dying → s.dropped t = 0
  exits : ∀ c, s.state (s.current c) = .dying → (s.pc c).dies = true ∨ s.pc c = .schedule
  idle : ∀ c, s.state (idleThread c) ≠ .dying
  exit_idle : ∀ c, s.pc c = .exitRelease ∨ s.pc c = .exitState → s.current c ≠ idleThread c
  exit_unlocked : ∀ c, s.pc c = .exitState → s.blockLock (s.current c) ≠ some c
  holder : ∀ t c, s.blockLock t = some c → Holds s c t
  unlocked : ∀ t c, s.state t = .dying → s.blockLock t = some c → (s.pc c).unblocks = some t
  dereference : ∀ c t, s.pc c = .cleanupDereference t → s.state t = .dying
  finishing : ∀ c t, Finishes s c t → s.created t = true
  dropped : ∀ t, s.created t = true → s.state t = .dying →
    (s.dropped t = 0 ∧ (∃ c, Leaves s c t) ∧ ∀ c d, Leaves s c t → Leaves s d t → c = d) ∨
    (s.dropped t = 1 ∧ ∀ c, ¬ Leaves s c t)

/-- The current thread exits only if no other processor has to finish a switch away from it. -/
def ExitSettled (s : State C T) (c : C) : Prop := s.pc c = .exitState → ∀ d, d ≠ c → ¬ Finishes s d (s.current c)

section Moves

variable [DecidableEq C] [DecidableEq T]

attribute [local grind] Pc.beforeCleanup Pc.prevThread Pc.mayRelease Pc.unblocks Pc.mayBlock Pc.dies
  Caller.resume State.mustTerminate Finishes Leaves Holds
attribute [local grind =] Function.update_apply
attribute [local grind cases] Caller

namespace Counted

variable (h : Counted idleThread s) (hm : Move idleThread s c s')
include h hm

lemma refs_move (u : T) : s'.refCnt u + s'.dropped u = s'.handles u + 1 := by
  have hrefs := h.refs u
  cases hm with
  | closeHandle | dereference | create => grind -linarith
  | _ => exact hrefs

lemma holder_move (u : T) (d : C) (hd : s'.blockLock u = some d) : Holds s' d u := by
  have hholder := h.holder u d
  by_cases hdc : d = c
  · subst hdc
    cases hm <;> grind -linarith
  · simp only [Holds, hm.other hdc]
    have hsame : s.blockLock u = some d := by
      cases hm <;> grind -linarith
    exact hholder hsame

variable (ho : Ordered idleThread s) {u : T}
include ho

lemma alive_move (u : T) (hu : s'.state u ≠ .dying) : s'.dropped u = 0 := by
  have halive := h.alive u
  cases hm with
  | dereference hpc =>
    have hdying := h.dereference c _ hpc
    grind -linarith
  | yieldInsert hpc | yieldIdle hpc | blockState hpc | exitState hpc =>
    have hexits := h.exits c
    grind -linarith
  | unblockInsert hpc =>
    have haway := (ho.unblockInsert hpc).state
    grind -linarith
  | create => grind -linarith
  | _ => exact halive hu

lemma exits_move (d : C) (hd : s'.state (s'.current d) = .dying) : (s'.pc d).dies = true ∨ s'.pc d = .schedule := by
  have hexits := h.exits d
  have hunique := ho.unique c d
  cases hm with
  | schedule hpc hlock hlist =>
    have hlisted := ho.listed
    have hidle := h.idle c
    grind -linarith
  | _ => grind -linarith

lemma idle_move (d : C) : s'.state (idleThread d) ≠ .dying := by
  have hidle := h.idle d
  cases hm with
  | exitState hpc =>
    have hc := ho.idle_current c d
    have hne := h.exit_idle c
    grind -linarith
  | yieldInsert | yieldIdle | blockState | unblockInsert | create => grind -linarith
  | _ => exact hidle

lemma exit_idle_move (d : C) (hd : s'.pc d = .exitRelease ∨ s'.pc d = .exitState) :
    s'.current d ≠ idleThread d := by
  have hidle := h.exit_idle d
  cases hm with
  | forcedExit hpc hterm =>
    have hpending := ho.pending (s.current c)
    grind -linarith
  | _ => grind -linarith

lemma exit_unlocked_move (d : C) (hd : s'.pc d = .exitState) : s'.blockLock (s'.current d) ≠ some d := by
  have hlock := h.exit_unlocked d
  have hcreated := ho.created d
  cases hm <;> grind -linarith

lemma dereference_move (d : C) (u : T) (hd : s'.pc d = .cleanupDereference u) : s'.state u = .dying := by
  have hdying := h.dereference d u
  have hexits := h.exits c
  cases hm with
  | unblockInsert hpc =>
    have haway := (ho.unblockInsert hpc).state
    grind -linarith
  | create hpc hnew =>
    have hcreated := h.finishing d u
    grind -linarith
  | _ => grind -linarith

lemma finishing_move (d : C) (u : T) (hd : Finishes s' d u) : s'.created u = true := by
  have hold : s.created u = true := by
    have hcreated := h.finishing d u
    by_cases hdc : d = c
    · subst hdc
      have hcurrent := ho.created d
      cases hm <;> grind -linarith
    · simp only [Finishes, hm.other hdc] at hd
      exact hcreated hd
  cases hm with
  | create => grind -linarith
  | _ => exact hold

lemma leaves_move (hu : s.state u = .dying) (hc : s.pc c ≠ .cleanupDereference u) (d : C) :
    Leaves s' d u ↔ Leaves s d u := by
  by_cases hdc : d ≠ c
  · simp only [Leaves, Finishes, hm.other hdc]
  obtain rfl := not_not.mp hdc
  have hexits := h.exits d
  simp only [Leaves, Finishes]
  cases hm with
  | schedule hpc hlock hlist =>
    have hlisted := ho.listed
    have hidle := h.idle d
    grind -linarith
  | cleanupOwner hpc hl | cleanupRelease hl hpc =>
    have hunlocked := h.unlocked u d hu
    grind -linarith
  | _ => grind -linarith

lemma dropped_move_dying (hcreated : s.created u = true) (hu : s.state u = .dying) :
    (s'.dropped u = 0 ∧ (∃ d, Leaves s' d u) ∧ ∀ d e, Leaves s' d u → Leaves s' e u → d = e) ∨
    (s'.dropped u = 1 ∧ ∀ d, ¬ Leaves s' d u) := by
  have hdropped := h.dropped u hcreated hu
  by_cases hc : s.pc c = .cleanupDereference u
  · have hleaves : Leaves s c u := .inr (.inl (by rw [hc]; rfl))
    obtain ⟨hzero, _, hunique⟩ | ⟨_, hnone⟩ := hdropped
    · cases hm with
      | dereference hpc href =>
        refine .inr ⟨by grind -linarith, fun d hd => ?_⟩
        have hother := fun hl => hunique d c hl hleaves
        grind -linarith
      | _ => grind -linarith
    · exact absurd hleaves (hnone c)
  · have hsame : s'.dropped u = s.dropped u := by
      cases hm with
      | dereference hpc | create hpc => grind -linarith
      | _ => rfl
    have hiff := h.leaves_move hm ho hu hc
    simpa only [hsame, hiff] using hdropped

variable (hset : ExitSettled s c)
include hset

lemma unlocked_move (u : T) (d : C) (hu : s'.state u = .dying) (hd : s'.blockLock u = some d) :
    (s'.pc d).unblocks = some u := by
  have hunlocked := h.unlocked u d
  have hexits := h.exits c
  cases hm with
  | exitState hpc =>
    have hholder := h.holder u d
    have hunique := ho.unique d c
    have hexit := h.exit_unlocked c hpc
    have hset := hset hpc d
    have hprev := fun hp => Pc.prevThread_of_mayRelease (p := s.pc d) (t := u) hp
    grind -linarith
  | unblockInsert hpc =>
    have haway := (ho.unblockInsert hpc).state
    grind -linarith
  | _ => grind -linarith

lemma dropped_move (u : T) (hcreated : s'.created u = true) (hu : s'.state u = .dying) :
    (s'.dropped u = 0 ∧ (∃ d, Leaves s' d u) ∧ ∀ d e, Leaves s' d u → Leaves s' e u → d = e) ∨
    (s'.dropped u = 1 ∧ ∀ d, ¬ Leaves s' d u) := by
  by_cases hold : s.state u = .dying ∧ s.created u = true
  · exact h.dropped_move_dying hm ho hold.2 hold.1
  · have halive := h.alive u
    cases hm with
    | exitState hpc =>
      have hc := ho.created c
      have hunique := fun d => ho.unique d c
      have hset := hset hpc
      have hcu : s.current c = u := by grind -linarith
      refine .inl ⟨by grind -linarith, ⟨c, by grind -linarith⟩, ?_⟩
      suffices honly : ∀ d, Leaves _ d u → d = c from
        fun d e hd he => (honly d hd).trans (honly e he).symm
      rintro d hd
      have hd' := hset d
      have hdc := hunique d
      grind -linarith
    | yieldInsert | yieldIdle | blockState | unblockInsert | create => grind -linarith
    | _ => exact absurd ⟨hu, hcreated⟩ hold

/-- Every move keeps the references in order, if threads only exit where they may. -/
theorem move : Counted idleThread s' where
  refs := h.refs_move hm
  alive := h.alive_move hm ho
  exits := h.exits_move hm ho
  idle := h.idle_move hm ho
  exit_idle := h.exit_idle_move hm ho
  exit_unlocked := h.exit_unlocked_move hm ho
  holder := h.holder_move hm
  unlocked := h.unlocked_move hm ho hset
  dereference := h.dereference_move hm ho
  finishing := h.finishing_move hm ho
  dropped := h.dropped_move hm ho hset

end Counted

end Moves

section Access

/-- The threads whose objects or stacks a processor uses in its next step, from the choice of the next
    thread to the end of the switch. -/
def State.touched (s : State C T) (c : C) : List T :=
  match s.pc c with
  | .schedule => s.current c :: s.readyThreadsList.head?.toList
  | .switchRead | .switchLoad => [s.current c]
  | .switchSave => (s.previous c).toList
  | .traceName => (s.tracedPrevious c).toList
  | .cleanupOwner p | .cleanupCheck p | .cleanupRelease p | .cleanupState p | .cleanupDereference p => [p]
  | _ => []

/-- The thread whose name is about to be read has not exited, or is the one this processor leaves. -/
def TraceSettled (s : State C T) (c : C) : Prop :=
  s.pc c = .traceName → ∀ t ∈ s.tracedPrevious c, s.state t ≠ .dying ∨ s.previous c = some t

/-- The next step of the processor neither lets a thread exit too early nor reads the name of one that has
    exited elsewhere. -/
def Settled (s : State C T) (c : C) : Prop := ExitSettled s c ∧ TraceSettled s c

instance [Fintype C] [DecidableEq C] [DecidableEq T] (s : State C T) (c : C) : Decidable (Settled s c) :=
  inferInstanceAs (Decidable ((s.pc c = .exitState → ∀ d, d ≠ c → ¬ Finishes s d (s.current c)) ∧
      (s.pc c = .traceName → ∀ t ∈ s.tracedPrevious c, s.state t ≠ .dying ∨ s.previous c = some t)))

variable (h : Counted idleThread s)
include h

lemma Counted.dropped_zero (hcreated : s.created t = true) (hl : Leaves s c t) : s.dropped t = 0 := by
  by_cases hstate : s.state t = .dying
  · obtain hzero | hone := h.dropped t hcreated hstate
    · exact hzero.1
    · exact absurd hl (hone.2 c)
  · exact h.alive t hstate

lemma Counted.current_dropped (ho : Ordered idleThread s) (c : C) : s.dropped (s.current c) = 0 := by
  by_cases hstate : s.state (s.current c) = .dying
  · exact h.dropped_zero (ho.created c) (.inl ⟨rfl, h.exits c hstate⟩)
  · exact h.alive _ hstate

lemma Counted.finishes_dropped (hf : Finishes s c t) : s.dropped t = 0 :=
  h.dropped_zero (h.finishing c t hf) (.inr hf)

lemma Counted.stack_dropped (ho : Ordered idleThread s) (hs : Stacked s) (c : C) : s.dropped (s.stack c) = 0 := by
  cases hpc : (s.pc c).switches with
  | false =>
    rw [hs.stack c hpc]
    exact h.current_dropped ho c
  | true =>
    refine h.finishes_dropped (c := c) (.inr ⟨?_, hs.previous c hpc⟩)
    cases hp : s.pc c <;> simp_all [Pc.switches, Pc.beforeCleanup]

lemma Counted.touched_dropped (ho : Ordered idleThread s) (htrace : TraceSettled s c)
    (ht : t ∈ s.touched c) : s.dropped t = 0 := by
  cases hpc : s.pc c with
  | schedule =>
    simp only [State.touched, hpc, List.mem_cons, Option.mem_toList] at ht
    obtain rfl | ht := ht
    · exact h.current_dropped ho c
    · have hlisted := (ho.listed t (List.mem_of_mem_head? ht)).1
      exact h.alive t (by simp [hlisted])
  | switchRead | switchLoad =>
    simp only [State.touched, hpc, List.mem_singleton] at ht
    exact ht ▸ h.current_dropped ho c
  | switchSave =>
    simp only [State.touched, hpc, Option.mem_toList] at ht
    exact h.finishes_dropped (c := c) (.inr ⟨by rw [hpc]; rfl, ht⟩)
  | traceName =>
    simp only [State.touched, hpc, Option.mem_toList] at ht
    obtain halive | hprev := htrace hpc t ht
    · exact h.alive t halive
    · exact h.finishes_dropped (c := c) (.inr ⟨by rw [hpc]; rfl, hprev⟩)
  | cleanupOwner p | cleanupCheck p | cleanupRelease p | cleanupState p | cleanupDereference p =>
    simp only [State.touched, hpc, List.mem_singleton] at ht
    exact h.finishes_dropped (c := c) (.inl (by rw [hpc, ht]; rfl))
  | _ => simp [State.touched, hpc] at ht

lemma Counted.refCnt_ne_zero (hz : s.dropped t = 0) : s.refCnt t ≠ 0 := by
  have hrefs := h.refs t
  omega

end Access

section Runs

lemma Initial.counted (h : Initial idleThread s) : Counted idleThread s where
  refs t := by rw [h.refCnt, h.dropped, Nat.add_zero]
  alive t _ := h.dropped t
  exits c hc := by simp [h.main] at hc
  idle c := by simp [h.idleState]
  exit_idle := by simp [h.pc]
  exit_unlocked := by simp [h.pc]
  holder := by simp [h.blockLock]
  unlocked := by simp [h.blockLock]
  dereference := by simp [h.pc]
  finishing c t hf := by simp [Finishes, h.pc, Pc.prevThread, Pc.beforeCleanup] at hf
  dropped t hcreated hstate := by
    obtain ⟨c, rfl⟩ | ⟨c, rfl⟩ := (h.created t).mp hcreated
    · simp [h.main] at hstate
    · simp [h.idleState] at hstate

variable [DecidableEq C] [DecidableEq T]

/-- The references are in order in every state that is reached by settled steps. -/
theorem counted_reach
    (hr : Reach (Initial idleThread) (Step idleThread) (fun s a => Proper idleThread s a ∧ Settled s a.cpu) s) :
    Placed idleThread s ∧ Counted idleThread s := by
  refine hr.invariant (I := fun s => Placed idleThread s ∧ Counted idleThread s)
    (fun s h => ⟨⟨h.idle, h.ordered, h.tracked, h.stacked⟩, h.counted⟩) ?_
  rintro s a s' ⟨hp, hc⟩ hok hst
  have hm := move_of_next hok.1 hst
  exact ⟨hp.move hm, hc.move hm hp.ordered hok.2.1⟩

/-- In every run in which a thread exits only while no other processor is finishing a switch away from it,
    and no name is read of a thread that has exited elsewhere, the scheduler drops its reference to a thread after
    the thread has exited, once, as the only processor on its way to it; by then no processor uses the stack of the
    thread, and no processor touches a thread that has been destroyed. -/
theorem reference_dropped_once
    (hr : Reach (Initial idleThread) (Step idleThread) (fun s a => Proper idleThread s a ∧ Settled s a.cpu) s) :
    (∀ t, s.state t ≠ .dying → s.dropped t = 0) ∧
    (∀ t, s.created t = true → s.state t = .dying →
      (s.dropped t = 0 ∧ ∃! c, Leaves s c t) ∨ (s.dropped t = 1 ∧ ∀ c, ¬ Leaves s c t)) ∧
    (∀ t c, s.dropped t ≠ 0 ∨ s.refCnt t = 0 → s.stack c ≠ t) ∧
    (∀ c, TraceSettled s c → ∀ t ∈ s.touched c, s.refCnt t ≠ 0) := by
  obtain ⟨⟨_, ho, _, hs⟩, hc⟩ := counted_reach hr
  refine ⟨hc.alive, fun t hcreated hstate => ?_, ?_, fun c htrace t ht => ?_⟩
  · obtain ⟨hzero, ⟨c, hl⟩, hunique⟩ | hone := hc.dropped t hcreated hstate
    · exact .inl ⟨hzero, c, hl, fun d hd => hunique d c hd hl⟩
    · exact .inr hone
  · rintro t c hgone rfl
    have hz := hc.stack_dropped ho hs c
    exact hgone.elim (fun hd => hd hz) (hc.refCnt_ne_zero hz)
  · exact hc.refCnt_ne_zero (hc.touched_dropped ho htrace ht)

end Runs

/-- A thread yields on the first processor, which stops before it reads the state of the thread. The second
    processor takes the thread, and it exits there; then the first processor goes on. -/
def overtakenRun : List (Act Bool Nat) := .call false .yield :: go false 9 ++ .call false .yield :: go false 9 ++
    .call true .yield :: go true 11 ++ .call true .exit :: go true 2 ++ go false 3

def exitedRun : List (Act Bool Nat) := .call false (.create 4 16) :: go false 6 ++ .call false (.closeHandle 4) ::
    .call false (.create 5 16) :: go false 6 ++ .call false .yield :: go false 9 ++
    .call false .yield :: go false 9 ++ .call false .block :: go false 13 ++
    .call false .yield :: go false 11 ++ .call false .yield :: go false 11 ++
    .call true .yield :: go true 11 ++ .call true (.unblock 5) :: go true 6 ++
    .call true .exit :: go true 13

/-- Two processors drop the reference to one thread; a thread is destroyed while it runs; and a thread that
    was last on the first processor is resumed on the second one, which then reads the name of a thread
    that has been destroyed, although threads only exited where they may. -/
theorem reference_dropped_twice : (∃ s : State Bool Nat, Reach (Initial twoIdle) (Step twoIdle) (Proper twoIdle) s ∧
      s.dropped 4 = 2) ∧
    (∃ s : State Bool Nat, Reach (Initial twoIdle) (Step twoIdle) (Proper twoIdle) s ∧
      s.refCnt 4 = 0 ∧ s.stack true = 4) ∧
    (∃ s : State Bool Nat,
      Reach (Initial twoIdle) (Step twoIdle) (fun s a => Proper twoIdle s a ∧ Settled s a.cpu) s ∧
      4 ∈ s.touched true ∧ s.refCnt 4 = 0) := by
  refine ⟨?_, ?_, ?_⟩
  · exact exists_reach initial_booted
      (.call false (.create 4 16) :: go false 6 ++ overtakenRun ++ go true 11) (by decide)
  · exact exists_reach initial_booted
      (.call false (.create 4 16) :: go false 6 ++ .call false (.closeHandle 4) :: overtakenRun) (by decide)
  · exact exists_reach initial_booted (exitedRun ++ .call true .yield :: go true 7) (by decide +kernel)

/-- The theorem at the end of a run in which a thread has exited: nobody drops the reference again. -/
theorem reference_dropped_once_exited : ∃ s : State Bool Nat,
    Reach (Initial twoIdle) (Step twoIdle) (fun s a => Proper twoIdle s a ∧ Settled s a.cpu) s ∧
    s.dropped 4 = 1 ∧ ∀ c, ¬ Leaves s c 4 := by
  obtain ⟨s, hr, hcreated, hstate, hone⟩ : ∃ s, Reach (Initial twoIdle) (Step twoIdle)
      (fun s a => Proper twoIdle s a ∧ Settled s a.cpu) s ∧ s.created 4 = true ∧ s.state 4 = .dying ∧
        s.dropped 4 = 1 :=
    exists_reach initial_booted exitedRun (by decide +kernel)
  obtain hzero | hdropped := (reference_dropped_once hr).2.1 4 hcreated hstate
  · exact absurd (hzero.1.symm.trans hone) (by decide)
  · exact ⟨s, hr, hdropped⟩

end HAL9000.Sched
