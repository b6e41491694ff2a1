import Mathlib.Data.Fintype.Basic
import HAL9000.Event.Model

/-!
# Events: lost wakeups

A waiting thread tests the flag before it takes `EventLock`. A signal that comes after the test and
before the insertion finds the list without this thread, which then blocks although the event is
signaled. If no thread enters the list of a signaled event, no wakeup is lost.
-/

namespace HAL9000.Event
open Lib

variable {T : Type}

def Pc.signalling : Pc T → Bool
  | .signalRemove => true
  | .signalUnblock _ => true
  | _ => false

/-- The thread was taken from the list by a signal and has not tested the flag again. -/
def Pc.retests : Pc T → Bool
  | .woken => true
  | .waitTest again => again
  | _ => false

/-- Somebody takes care of the signal: it is still being delivered, or, for a synchronization event,
    the waiter it woke has yet to claim it. -/
def EventState.Pending (s : EventState T) : Prop := (∃ u, (s.pc u).signalling = true) ∨
    (s.type = .synchronization ∧ ∃ u, (s.pc u).retests = true)

/-- A lost wakeup: the thread is blocked in the waiting list of a signaled event and the signal is
    neither being delivered nor about to be claimed. The flag was clear when the thread tested it, so
    a signal was issued since and has not been cleared or claimed. -/
structure Lost (s : EventState T) (t : T) : Prop where
  blocked : s.pc t = .blocked
  waiting : t ∈ s.waiting
  signaled : s.signaled = true
  delivered : ¬ s.Pending

/-- No thread enters the waiting list of a signaled event, unless a woken waiter is still to claim the
    signal. -/
def Action.Timely (s : EventState T) : Action T → Prop
  | .run t => s.pc t = .waitInsert →
    s.signaled = false ∨ (s.type = .synchronization ∧ ∃ u, (s.pc u).retests = true)
  | .call _ _ => True

instance [DecidableEq T] [Fintype T] (s : EventState T) (a : Action T) : Decidable (a.Timely s) := by
  cases a <;> unfold Action.Timely <;> infer_instance

def EventState.Safe (s : EventState T) : Prop := s.signaled = true → s.waiting ≠ [] → s.Pending

variable {s s' : EventState T} {t : T} {pc : Pc T}

lemma safe_of_not_signaled (h : s.signaled = false) : s.Safe := by
  intro h1
  rw [h] at h1
  cases h1

lemma safe_of_signalling (h : (s.pc t).signalling = true) : s.Safe := fun _ _ => .inl ⟨t, h⟩

section Moves

variable [DecidableEq T]

@[simp] lemma goto_signaled : (s.goto t pc).signaled = s.signaled := rfl

@[simp] lemma goto_waiting : (s.goto t pc).waiting = s.waiting := rfl

@[simp] lemma goto_type : (s.goto t pc).type = s.type := rfl

lemma EventState.Pending.goto (h : s.Pending) (hs : (s.pc t).signalling = true → pc.signalling = true)
    (hr : (s.pc t).retests = true → pc.retests = true) : (s.goto t pc).Pending := by
  have move : ∀ (f : Pc T → Bool), (f (s.pc t) = true → f pc = true) →
      (∃ u, f (s.pc u) = true) → ∃ u, f ((s.goto t pc).pc u) = true := by
    rintro f hf ⟨u, hu⟩
    refine ⟨u, ?_⟩
    by_cases e : u = t
    · subst e
      simpa [EventState.goto] using hf hu
    · simpa [EventState.goto, e] using hu
  rcases h with h | ⟨htype, h⟩
  · exact .inl (move Pc.signalling hs h)
  · exact .inr ⟨htype, move Pc.retests hr h⟩

lemma EventState.Safe.goto (h : s.Safe) (hs : (s.pc t).signalling = true → pc.signalling = true)
    (hr : (s.pc t).retests = true → pc.retests = true) : (s.goto t pc).Safe :=
  fun h1 h2 => (h h1 h2).goto hs hr

lemma EventState.Pending.goto_notification (h : s.Pending) (htype : s.type = .notification)
    (hs : (s.pc t).signalling = false) : (s.goto t pc).Pending := by
  rcases h with ⟨u, hu⟩ | ⟨hsync, _⟩
  · have hne : u ≠ t := by
      rintro rfl
      rw [hs] at hu
      cases hu
    exact .inl ⟨u, by simpa [EventState.goto, hne] using hu⟩
  · rw [htype] at hsync
    cases hsync

lemma EventState.Safe.run (h : s.Safe) (hok : Action.Timely s (.run t)) (hstep : s.run t = .ok s') : s'.Safe := by
  unfold EventState.run at hstep
  cases hpc : s.pc t with simp only [hpc] at hstep
  | idle | blocked => cases hstep
  | waitTest again =>
    split at hstep
    · next hsig =>
      cases hstep
      by_cases htype : s.type = .notification
      · intro _ h2
        have hp : EventState.Pending { s with signaled := s.type = .notification } := h hsig h2
        exact hp.goto_notification htype (by simp [hpc, Pc.signalling])
      · exact safe_of_not_signaled (by simp [htype])
    · next hns =>
      cases hstep
      exact safe_of_not_signaled (by simpa using hns)
  | waitLock | signalLock =>
    split at hstep
    · cases hstep
      exact EventState.Safe.goto (s := { s with lock := some t }) h (by simp [hpc, Pc.signalling])
        (by simp [hpc, Pc.retests])
    · cases hstep
  | waitInsert =>
    cases hstep
    rcases hok hpc with hns | ⟨htype, hex⟩
    · exact safe_of_not_signaled hns
    · intro _ _
      have hp : EventState.Pending { s with waiting := s.insertWaiting t } := .inr ⟨htype, hex⟩
      exact hp.goto (by simp [hpc, Pc.signalling]) (by simp [hpc, Pc.retests])
  | waitTakeBlockLock | waitBlock =>
    cases hstep
    exact h.goto (by simp [hpc, Pc.signalling]) (by simp [hpc, Pc.retests])
  | waitRelease | signalRelease =>
    cases hstep
    exact EventState.Safe.goto (s := { s with lock := none }) h (by simp [hpc, Pc.signalling])
      (by simp [hpc, Pc.retests])
  | woken =>
    cases hstep
    by_cases htype : s.type = .notification
    · intro h1 h2
      exact (h h1 h2).goto_notification htype (by simp [hpc, Pc.signalling])
    · exact h.goto (by simp [hpc, Pc.signalling]) (by simp [htype, Pc.retests])
  | signalSet =>
    cases hstep
    exact safe_of_signalling (t := t) (by simp [EventState.goto, Pc.signalling])
  | signalRemove =>
    split at hstep
    · next hempty =>
      cases hstep
      intro _ h2
      exact absurd hempty h2
    · cases hstep
      exact safe_of_signalling (t := t) (by simp [EventState.goto, Pc.signalling])
  | signalUnblock u =>
    split at hstep
    · next hblocked =>
      cases hstep
      by_cases htype : s.type = .synchronization
      · have hne : u ≠ t := by
          rintro rfl
          rw [hpc] at hblocked
          cases hblocked
        intro _ _
        exact .inr ⟨htype, u, by simp [EventState.goto, hne, Pc.retests]⟩
      · exact safe_of_signalling (t := t) (by simp [EventState.goto, htype, Pc.signalling])
    · cases hstep
  | clear =>
    cases hstep
    exact safe_of_not_signaled rfl

lemma EventState.Safe.step {a : Action T} (h : s.Safe) (hok : a.Timely s) (hstep : Step s a s') : s'.Safe := by
  cases a with
  | run t => exact h.run hok hstep
  | call t c =>
    simp only [Step, EventState.next] at hstep
    split at hstep
    · next hpc =>
      cases hstep
      exact h.goto (by simp [hpc, Pc.signalling]) (by simp [hpc, Pc.retests])
    · cases hstep

/-- If no thread enters the waiting list of a signaled event, no wakeup is lost. -/
theorem no_lost_wakeup {s : EventState T} (hr : Reach Initial Step (fun s a => a.Timely s) s)
    (t : T) : ¬ Lost s t := by
  have hsafe : s.Safe := by
    refine hr.invariant (I := EventState.Safe) ?_ ?_
    · intro s hi _ hne
      exact absurd hi.waiting hne
    · intro s a s' hI hok hst
      exact hI.step hok hst
  intro hl
  exact hl.delivered (hsafe hl.signaled (List.ne_nil_of_mem hl.waiting))

end Moves

def quietEvent (type : EventType) : EventState Bool where
  type := type
  signaled := false
  lock := none
  waiting := []
  pc := fun _ => .idle
  timerOn := fun _ => false
  timerCountTicks := fun _ => 0

lemma initial_quietEvent (type : EventType) : Initial (quietEvent type) := ⟨rfl, rfl, fun _ => rfl⟩

def lostRun : List (Action Bool) := [.call false .waitForSignal, .run false] ++
    (.call true .signal :: List.replicate 4 (.run true)) ++ List.replicate 5 (.run false)

def runChecked (ok : EventState Bool → Action Bool → Prop) [∀ s a, Decidable (ok s a)]
    (type : EventType) (as : List (Action Bool)) : Exec (EventState Bool) :=
  as.foldlM (fun s a => do ensure (ok s a); s.next a) (quietEvent type)

lemma exists_runChecked {ok : EventState Bool → Action Bool → Prop} [∀ s a, Decidable (ok s a)]
    {P : EventState Bool → Prop} [DecidablePred P] (type : EventType) (as : List (Action Bool))
    (h : returns (runChecked ok type as) (fun s => decide (P s)) = true) : ∃ s, Reach Initial Step ok s ∧ P s :=
  exists_reach (initial_quietEvent type) as h

lemma lost_of_lostRun (type : EventType) :
    ∃ s : EventState Bool, Reach Initial Step (fun _ _ => True) s ∧ s.type = type ∧
      Lost s false := by
  obtain ⟨s, hr, htype, hblocked, hwaiting, hsignaled, hnone⟩ : ∃ s : EventState Bool,
      Reach Initial Step (fun _ _ => True) s ∧ s.type = type ∧ s.pc false = .blocked ∧ false ∈ s.waiting ∧
        s.signaled = true ∧ ∀ u, (s.pc u).signalling = false ∧ (s.pc u).retests = false :=
    exists_runChecked type lostRun (by cases type <;> decide)
  refine ⟨s, hr, htype, hblocked, hwaiting, hsignaled, ?_⟩
  rintro (⟨u, hu⟩ | ⟨_, u, hu⟩)
  · rw [(hnone u).1] at hu
    cases hu
  · rw [(hnone u).2] at hu
    cases hu

/-- Wakeups of both kinds of events can be lost. -/
theorem wakeup_lost : (∃ s : EventState Bool, Reach Initial Step (fun _ _ => True) s ∧ s.type = .notification ∧
      ∃ t, Lost s t) ∧
    (∃ s : EventState Bool, Reach Initial Step (fun _ _ => True) s ∧ s.type = .synchronization ∧
      ∃ t, Lost s t) := by
  obtain ⟨s, hs, htype, hl⟩ := lost_of_lostRun .notification
  obtain ⟨s', hs', htype', hl'⟩ := lost_of_lostRun .synchronization
  exact ⟨⟨s, hs, htype, false, hl⟩, s', hs', htype', false, hl'⟩

def wokenRun : List (Action Bool) := (.call false .waitForSignal :: List.replicate 6 (.run false)) ++
    (.call true .signal :: List.replicate 5 (.run true))

/-- A thread that blocks before the signal is issued is woken by it. -/
theorem no_lost_wakeup_of_wokenRun : ∃ s : EventState Bool,
    Reach Initial Step (fun s a => a.Timely s) s ∧ s.signaled = true ∧ s.pc false = .woken ∧
      ∀ t, ¬ Lost s t := by
  obtain ⟨s, hr, hsignaled, hwoken⟩ : ∃ s : EventState Bool, Reach Initial Step (fun s a => a.Timely s) s ∧
      s.signaled = true ∧ s.pc false = .woken := exists_runChecked .synchronization wokenRun (by decide)
  exact ⟨s, hr, hsignaled, hwoken, no_lost_wakeup hr⟩

end HAL9000.Event
