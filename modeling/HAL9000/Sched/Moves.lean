import HAL9000.Sched.Model

/-!
# The moves of a processor

`Move` lists what a step of a processor can find and do. Every step that the environment may take is
one (`move_of_next`), so that the invariants of the scheduler are proved by cases of `Move` and never
look at the step function again.
-/

namespace HAL9000.Sched
open Lib Function

section Locks

variable {C T : Type} [DecidableEq C] {s s' : State C T} {c : C} {pc : Pc T} {holder holder' : Option C}

lemma lockAcquire_ok (h : lockAcquire holder c = .ok holder') : holder = none ∧ holder' = some c := by
  unfold lockAcquire at h
  split at h
  · next hn =>
    simp only [hn] at h
    cases h
    exact ⟨hn, rfl⟩
  · obtain ⟨_, _, h⟩ := bind_ok.mp h
    cases h

lemma lockRelease_ok (h : lockRelease holder c = .ok holder') : holder = some c ∧ holder' = none := by
  obtain ⟨_, hc, h⟩ := bind_ok.mp h
  cases h
  exact ⟨ensure_ok.mp hc, rfl⟩

lemma lockReady_ok (h : s.lockReady c pc = .ok s') :
    s.readyThreadsLock = none ∧ s' = (s.setReadyLock (some c)).goto c pc := by
  obtain ⟨_, hl, h⟩ := bind_ok.mp h
  obtain ⟨hn, rfl⟩ := lockAcquire_ok hl
  cases h
  exact ⟨hn, rfl⟩

lemma unlockReady_ok (h : s.unlockReady c pc = .ok s') :
    s.readyThreadsLock = some c ∧ s' = (s.setReadyLock none).goto c pc := by
  obtain ⟨_, hl, h⟩ := bind_ok.mp h
  obtain ⟨hn, rfl⟩ := lockRelease_ok hl
  cases h
  exact ⟨hn, rfl⟩

end Locks

variable {C T : Type} [DecidableEq C] [DecidableEq T] {idleThread : C → T}

inductive Move (idleThread : C → T) (s : State C T) (c : C) : State C T → Prop where
  -- calls
  | yield : s.pc c = .run → Move idleThread s c { s with pc := update s.pc c .yieldLock }
  | forcedExit : s.pc c = .run ∨ s.pc c = .block → s.mustTerminate (s.current c) = true → Move idleThread s c
      { s with terminated := update s.terminated (s.current c) true, pc := update s.pc c .exitRelease }
  | takeBlockLock : s.pc c = .run → s.blockLock (s.current c) = none → Move idleThread s c
      { s with
        waiting := update s.waiting (s.current c) (decide (s.current c ≠ idleThread c))
        blockLock := update s.blockLock (s.current c) (some c)
        pc := update s.pc c .block }
  | unblock {t caller} : s.pc c = caller.resume → s.waiting t = true → Move idleThread s c
      { s with waiting := update s.waiting t false, pc := update s.pc c (.unblockLock t caller) }
  | exit : s.pc c = .run → s.current c ≠ idleThread c →
    Move idleThread s c { s with pc := update s.pc c .exitRelease }
  | create {t priority} : s.pc c = .run → s.created t = false → Move idleThread s c
      { s with
        state := update s.state t .blocked
        priority := update s.priority t priority
        terminatePending := update s.terminatePending t false
        terminated := update s.terminated t false
        blockLock := update s.blockLock t none
        refCnt := update s.refCnt t 2
        saved := update s.saved t true
        leftOn := update s.leftOn t none
        created := update s.created t true
        waiting := update s.waiting t false
        handles := update s.handles t 1
        dropped := update s.dropped t 0
        pc := update s.pc c (.unblockLock t .thread) }
  | keepPriority : s.pc c = .run → Move idleThread s c s
  | setPriority {newPriority} : s.pc c = .run → s.priority (s.current c) ≤ newPriority →
    Move idleThread s c { s with priority := update s.priority (s.current c) newPriority }
  | terminate {t} : s.pc c = .run → (∀ d, t ≠ idleThread d) →
    Move idleThread s c { s with terminatePending := update s.terminatePending t true }
  | closeHandle {t} : s.pc c = .run → s.handles t ≠ 0 → s.refCnt t ≠ 0 → Move idleThread s c
      { s with refCnt := update s.refCnt t (s.refCnt t - 1), handles := update s.handles t (s.handles t - 1) }
  -- locks
  | lockReady {pc} : s.readyThreadsLock = none →
    (s.pc c = .yieldLock ∧ pc = .yieldInsert) ∨ (s.pc c = .blockLock ∧ pc = .schedule) ∨
      (s.pc c = .exitLock ∧ pc = .schedule) →
    Move idleThread s c { s with readyThreadsLock := some c, pc := update s.pc c pc }
  | unblockReadyLock {t caller} : s.readyThreadsLock = none → s.pc c = .unblockReadyLock t caller →
    Move idleThread s c
      { s with readyThreadsLock := some c, pc := update s.pc c (.unblockInsert t caller) }
  | unblockReadyRelease {t caller} : s.readyThreadsLock = some c → s.pc c = .unblockReadyRelease t caller →
    Move idleThread s c
      { s with readyThreadsLock := none, pc := update s.pc c (.unblockRelease t caller) }
  | cleanup {pc} : s.readyThreadsLock = some c → s.pc c = .cleanup →
    (s.previous c = none ∧ pc = .run) ∨ (∃ p, s.previous c = some p ∧ pc = .cleanupOwner p) →
    Move idleThread s c { s with readyThreadsLock := none, pc := update s.pc c pc }
  | unblockLock {t caller} : s.blockLock t = none → s.pc c = .unblockLock t caller → Move idleThread s c
      { s with blockLock := update s.blockLock t (some c), pc := update s.pc c (.unblockCheck t caller) }
  | unblockRelease {t caller} : s.blockLock t = some c → s.pc c = .unblockRelease t caller → Move idleThread s c
      { s with blockLock := update s.blockLock t none, pc := update s.pc c caller.resume }
  | exitRelease : s.blockLock (s.current c) = some c → s.pc c = .exitRelease → Move idleThread s c
      { s with blockLock := update s.blockLock (s.current c) none, pc := update s.pc c .exitState }
  | cleanupRelease {p} : s.blockLock p = some c → s.pc c = .cleanupRelease p → Move idleThread s c
      { s with blockLock := update s.blockLock p none, pc := update s.pc c .run }
  -- states and the ready list
  | yieldInsert : s.pc c = .yieldInsert → s.current c ≠ idleThread c → Move idleThread s c
      { s with
        readyThreadsList := s.readyThreadsList ++ [s.current c]
        state := update s.state (s.current c) .ready
        pc := update s.pc c .schedule }
  | yieldIdle : s.pc c = .yieldInsert → s.current c = idleThread c → Move idleThread s c
      { s with state := update s.state (s.current c) .ready, pc := update s.pc c .schedule }
  | blockState : s.pc c = .blockState → Move idleThread s c
      { s with state := update s.state (s.current c) .blocked, pc := update s.pc c .blockLock }
  | exitState : s.pc c = .exitState → Move idleThread s c
      { s with state := update s.state (s.current c) .dying, pc := update s.pc c .exitLock }
  | unblockInsert {t caller} : s.pc c = .unblockInsert t caller → Move idleThread s c
      { s with
        readyThreadsList := s.readyThreadsList ++ [t]
        state := update s.state t .ready
        pc := update s.pc c (.unblockReadyRelease t caller) }
  | schedule {t rest} : s.pc c = .schedule → s.readyThreadsLock = some c →
    s.readyThreadsList = t :: rest ∨ (s.readyThreadsList = [] ∧ rest = [] ∧ t = idleThread c) →
    Move idleThread s c
      { s with
        readyThreadsList := rest
        current := update s.current c t
        previous := update s.previous c (some (s.current c))
        pc := update s.pc c (if t = s.current c then .cleanup else .switchRead) }
  -- contexts and references
  | switchSave {p} : s.pc c = .switchSave → s.previous c = some p → Move idleThread s c
      { s with
        saved := update s.saved p true
        leftOn := update s.leftOn p (some c)
        pc := update s.pc c .switchLoad }
  | switchLoad {pc} : s.pc c = .switchLoad →
    (s.leftOn (s.current c) = none ∧ pc = .cleanup) ∨ (s.leftOn (s.current c) ≠ none ∧ pc = .traceCheck) →
    Move idleThread s c
      { s with
        saved := update s.saved (s.current c) false
        stack := update s.stack c (s.current c)
        pc := update s.pc c pc }
  | dereference {p} : s.pc c = .cleanupDereference p → s.refCnt p ≠ 0 → Move idleThread s c
      { s with
        refCnt := update s.refCnt p (s.refCnt p - 1)
        dropped := update s.dropped p (s.dropped p + 1)
        previous := update s.previous c none
        pc := update s.pc c .run }
  -- checks
  | block : s.pc c = .block → Move idleThread s c { s with pc := update s.pc c .blockState }
  | unblockCheck {t caller} : s.pc c = .unblockCheck t caller → s.state t = .blocked →
    Move idleThread s c { s with pc := update s.pc c (.unblockReadyLock t caller) }
  | exitUnlocked : s.pc c = .exitRelease → s.blockLock (s.current c) ≠ some c →
    Move idleThread s c { s with pc := update s.pc c .exitState }
  | switchRead : s.pc c = .switchRead → Move idleThread s c { s with pc := update s.pc c .switchSave }
  | trace {pc} :
    (s.pc c = .traceCheck ∧ (pc = .cleanup ∨ pc = .traceName)) ∨ (s.pc c = .traceName ∧ pc = .cleanup) →
    Move idleThread s c { s with pc := update s.pc c pc }
  | cleanupOwner {p pc} : s.pc c = .cleanupOwner p →
    (s.blockLock p = some c ∧ pc = .cleanupCheck p) ∨ (s.blockLock p ≠ some c ∧ pc = .cleanupState p) →
    Move idleThread s c { s with pc := update s.pc c pc }
  | cleanupCheck {p} : s.pc c = .cleanupCheck p →
    Move idleThread s c { s with pc := update s.pc c (.cleanupRelease p) }
  | cleanupState {p pc} : s.pc c = .cleanupState p →
    (s.state p = .dying ∧ pc = .cleanupDereference p) ∨ (s.state p ≠ .dying ∧ pc = .run) →
    Move idleThread s c { s with pc := update s.pc c pc }

def Act.cpu : Act C T → C
  | .call c _ | .notify c _ | .continue c => c

section Inversion

variable {s s' : State C T} {c : C} {t : T} {pc : Pc T}

lemma lockBlock_ok (h : s.lockBlock c t pc = .ok s') :
    s.blockLock t = none ∧ s' = (s.setBlockLock t (some c)).goto c pc := by
  obtain ⟨_, hl, h⟩ := bind_ok.mp h
  obtain ⟨hn, rfl⟩ := lockAcquire_ok hl
  cases h
  exact ⟨hn, rfl⟩

lemma unlockBlock_ok (h : s.unlockBlock c t pc = .ok s') :
    s.blockLock t = some c ∧ s' = (s.setBlockLock t none).goto c pc := by
  obtain ⟨_, hl, h⟩ := bind_ok.mp h
  obtain ⟨hn, rfl⟩ := lockRelease_ok hl
  cases h
  exact ⟨hn, rfl⟩

lemma move_of_call {k : Call T} (hpc : s.pc c = .run) (hok : Proper idleThread s (.call c k))
    (h : s.call idleThread c k = .ok s') : Move idleThread s c s' := by
  cases k with
  | yield =>
    simp only [State.call, pure_okay, Except.ok.injEq] at h
    split at h
    · next hm => exact h ▸ .forcedExit (.inl hpc) hm
    · exact h ▸ .yield hpc
  | block =>
    obtain ⟨hl, rfl⟩ := lockBlock_ok h
    exact .takeBlockLock hpc hl
  | unblock t =>
    cases h
    exact .unblock hpc hok
  | exit =>
    cases h
    exact .exit hpc hok
  | create t priority =>
    obtain ⟨_, _, h⟩ := bind_ok.mp h
    cases h
    exact .create hpc hok
  | setPriority newPriority =>
    obtain ⟨_, _, h⟩ := bind_ok.mp h
    split at h
    · cases h
      exact .keepPriority hpc
    · next hle =>
      cases h
      exact .setPriority hpc (Nat.le_of_not_lt hle)
  | terminate t =>
    cases h
    exact .terminate hpc hok
  | closeHandle t =>
    obtain ⟨_, href, h⟩ := bind_ok.mp h
    cases h
    exact .closeHandle hpc hok (ensure_ok.mp href)

lemma move_of_schedule (hpc : s.pc c = .schedule) (h : s.schedule idleThread c = .ok s') :
    Move idleThread s c s' := by
  obtain ⟨_, hl, h⟩ := bind_ok.mp h
  split at h
  · next hlist =>
    cases h
    exact .schedule hpc (ensure_ok.mp hl) (.inr ⟨hlist, hlist, rfl⟩)
  · next t rest hlist =>
    obtain ⟨_, _, h⟩ := bind_ok.mp h
    cases h
    exact .schedule hpc (ensure_ok.mp hl) (.inl hlist)

lemma move_of_continue (h : s.continue idleThread c = .ok s') : Move idleThread s c s' := by
  unfold State.continue at h
  split at h
  · cases h
  · next hpc =>
    obtain ⟨hl, rfl⟩ := lockReady_ok h
    exact .lockReady hl (.inl ⟨hpc, rfl⟩)
  · next hpc =>
    simp only [pure_okay, Except.ok.injEq] at h
    split at h
    · next hi => exact h ▸ .yieldIdle hpc hi
    · next hi => exact h ▸ .yieldInsert hpc hi
  · next hpc =>
    obtain ⟨_, _, h⟩ := bind_ok.mp h
    simp only [pure_okay, Except.ok.injEq] at h
    split at h
    · next hm => exact h ▸ .forcedExit (.inr hpc) hm
    · exact h ▸ .block hpc
  · next hpc => exact Except.ok.inj h ▸ .blockState hpc
  · next hpc =>
    obtain ⟨hl, rfl⟩ := lockReady_ok h
    exact .lockReady hl (.inr (.inl ⟨hpc, rfl⟩))
  · next hpc =>
    obtain ⟨hl, rfl⟩ := lockBlock_ok h
    exact .unblockLock hl hpc
  · next hpc =>
    obtain ⟨_, hs, h⟩ := bind_ok.mp h
    exact Except.ok.inj h ▸ .unblockCheck hpc (ensure_ok.mp hs)
  · next hpc =>
    obtain ⟨hl, rfl⟩ := lockReady_ok h
    exact .unblockReadyLock hl hpc
  · next hpc => exact Except.ok.inj h ▸ .unblockInsert hpc
  · next hpc =>
    obtain ⟨hl, rfl⟩ := unlockReady_ok h
    exact .unblockReadyRelease hl hpc
  · next hpc =>
    obtain ⟨hl, rfl⟩ := unlockBlock_ok h
    exact .unblockRelease hl hpc
  · next hpc =>
    split at h
    · obtain ⟨hl, rfl⟩ := unlockBlock_ok h
      exact .exitRelease hl hpc
    · next hl => exact Except.ok.inj h ▸ .exitUnlocked hpc hl
  · next hpc => exact Except.ok.inj h ▸ .exitState hpc
  · next hpc =>
    obtain ⟨hl, rfl⟩ := lockReady_ok h
    exact .lockReady hl (.inr (.inr ⟨hpc, rfl⟩))
  · next hpc => exact move_of_schedule hpc h
  · next hpc =>
    split at h
    · exact Except.ok.inj h ▸ .switchRead hpc
    · cases h
  · next hpc =>
    split at h
    · cases h
    · next hp => exact Except.ok.inj h ▸ .switchSave hpc hp
  · next hpc =>
    refine Except.ok.inj h ▸ .switchLoad hpc ?_
    split
    · next hl => exact .inl ⟨hl, rfl⟩
    · next hl => exact .inr ⟨hl, rfl⟩
  · next hpc =>
    refine Except.ok.inj h ▸ .trace (.inl ⟨hpc, ?_⟩)
    split
    · exact .inl rfl
    · exact .inr rfl
  · next hpc =>
    split at h
    · cases h
    · exact Except.ok.inj h ▸ .trace (.inr ⟨hpc, rfl⟩)
  · next hpc =>
    obtain ⟨hl, rfl⟩ := unlockReady_ok h
    refine .cleanup hl hpc ?_
    cases hp : s.previous c with
    | none => exact .inl ⟨rfl, rfl⟩
    | some p => exact .inr ⟨p, rfl, rfl⟩
  · next hpc =>
    refine Except.ok.inj h ▸ .cleanupOwner hpc ?_
    split
    · next hl => exact .inl ⟨hl, rfl⟩
    · next hl => exact .inr ⟨hl, rfl⟩
  · next hpc =>
    obtain ⟨_, _, h⟩ := bind_ok.mp h
    exact Except.ok.inj h ▸ .cleanupCheck hpc
  · next hpc =>
    obtain ⟨hl, rfl⟩ := unlockBlock_ok h
    exact .cleanupRelease hl hpc
  · next hpc =>
    refine Except.ok.inj h ▸ .cleanupState hpc ?_
    split
    · next hs => exact .inl ⟨hs, rfl⟩
    · next hs => exact .inr ⟨hs, rfl⟩
  · next hpc =>
    obtain ⟨_, href, h⟩ := bind_ok.mp h
    exact Except.ok.inj h ▸ .dereference hpc (ensure_ok.mp href)

/-- Every step is a move of its processor. -/
theorem move_of_next {a : Act C T} (hok : Proper idleThread s a) (h : Step idleThread s a s') :
    Move idleThread s a.cpu s' := by
  cases a with simp only [Step, State.next] at h
  | call c k =>
    split at h
    · next hpc => exact move_of_call hpc hok h
    · cases h
  | notify c t =>
    split at h
    · next hpc => exact Except.ok.inj h ▸ .unblock hpc hok
    · cases h
  | «continue» c => exact move_of_continue h

lemma Move.other {d : C} (hm : Move idleThread s c s') (hd : d ≠ c) :
    s'.pc d = s.pc d ∧ s'.current d = s.current d ∧ s'.previous d = s.previous d := by
  cases hm <;> simp [update_of_ne hd]

end Inversion

end HAL9000.Sched
