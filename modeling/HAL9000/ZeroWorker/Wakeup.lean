import HAL9000.Lib.Notify
import HAL9000.ZeroWorker.Model

/-!
# The thread that zeroes frames: lost wakeups

The worker clears the event after it has left the lock under which it found the list empty. A range that
was inserted and announced in between stays in the list while the worker waits (`Stuck`). If the worker
clears the event only while the list is empty or a call still owes a signal (`Timely`), it
never waits in vain.
-/

namespace HAL9000.ZeroWorker
open Lib Function

variable {E : Type} {s s' : ZeroThreadData E}

def Owes (s : ZeroThreadData E) (e : E) : Prop := s.caller e = .release ∨ s.caller e = .signal

/-- There are ranges to zero, nobody is about to signal the event, and the worker waits for it. -/
structure Stuck (s : ZeroThreadData E) : Prop where
  queued : s.pagesToZeroList ≠ []
  announced : ∀ e, ¬ Owes s e
  waits : s.worker = .wait ∨ s.worker = .blocked
  unsignaled : s.newPagesEvent = false

/-- The worker clears the event only while the list is empty or a call still owes a signal. -/
def Timely (s : ZeroThreadData E) : Actor E → Prop
  | .worker => s.worker = .clear → s.pagesToZeroList = [] ∨ ∃ e, Owes s e
  | .caller _ => True

/-- The lock is held by whoever is between its operations, a blocked worker waits for a signal, and the
    list is attended. -/
structure Kept (s : ZeroThreadData E) : Prop where
  heldByCaller : ∀ {e}, s.caller e = .insert ∨ s.caller e = .release ↔ s.pagesLock = some (some e)
  heldByWorker : (s.worker = .remove ∨ ∃ o, s.worker = .release o) ↔ s.pagesLock = some none
  blocked : s.worker = .blocked → s.newPagesEvent = false
  attended : Attended s.pagesToZeroList s.newPagesEvent (Owes s)

lemma Kept.start (h : Initial s) : Kept s where
  heldByCaller := by simp [h.caller, h.pagesLock]
  heldByWorker := by simp [h.worker, h.pagesLock]
  blocked := by simp [h.worker]
  attended := by
    rw [h.pagesToZeroList]
    exact attended_nil

section Moves

variable [DecidableEq E] {maps : Nat → Nat → Bool} {q : E → ZeroWorkerItem} {a : Actor E}

inductive Move (q : E → ZeroWorkerItem) (s : ZeroThreadData E) : Actor E → ZeroThreadData E → Prop where
  | start {e} : s.caller e = .start → Move q s (.caller e) { s with caller := update s.caller e .acquire }
  | acquire {e} : s.caller e = .acquire → s.pagesLock = none → Move q s (.caller e)
      { s with pagesLock := some (some e), caller := update s.caller e .insert }
  | insert {e} : s.caller e = .insert →
    Move q s (.caller e) { s with
      pagesToZeroList := s.pagesToZeroList ++ [e]
      caller := update s.caller e .release }
  | release {e} : s.caller e = .release →
    Move q s (.caller e) { s with pagesLock := none, caller := update s.caller e .signal }
  | signal {e} : s.caller e = .signal →
    Move q s (.caller e) { s with
      newPagesEvent := true
      worker := if s.worker = .blocked then .acquire else s.worker
      caller := update s.caller e .done }
  | pass : s.worker = .wait → s.newPagesEvent = true → Move q s .worker { s with worker := .acquire }
  | block : s.worker = .wait → s.newPagesEvent = false → Move q s .worker { s with worker := .blocked }
  | lock : s.worker = .acquire → s.pagesLock = none →
    Move q s .worker { s with pagesLock := some none, worker := .remove }
  | none : s.worker = .remove → s.pagesToZeroList = [] → Move q s .worker { s with worker := .release none }
  | take {e es} : s.worker = .remove → s.pagesToZeroList = e :: es →
    Move q s .worker { s with pagesToZeroList := es, worker := .release (some e) }
  | unlockEmpty : s.worker = .release none → Move q s .worker { s with pagesLock := none, worker := .clear }
  | unlock {e} : s.worker = .release (some e) → Move q s .worker { s with pagesLock := none, worker := .map e }
  | clear : s.worker = .clear → Move q s .worker { s with newPagesEvent := false, worker := .wait }
  | map {e} : s.worker = .map e → Move q s .worker { s with worker := .zero e }
  | zero {e} : s.worker = .zero e → Move q s .worker
      { s with zeroed := update s.zeroed e (noOfBytes (q e)), worker := .pmmRelease e }
  | pmmRelease {e} : s.worker = .pmmRelease e →
    Move q s .worker { s with released := update s.released e true, worker := .unmap e }
  | unmap {e} : s.worker = .unmap e → Move q s .worker { s with worker := .wait }

lemma move_of_caller {e : E} (h : s.mmuReleaseMemory q e = .ok s') : Move q s (.caller e) s' := by
  unfold ZeroThreadData.mmuReleaseMemory at h
  cases hpc : s.caller e with simp only [hpc] at h
  | start =>
    simp only [bind_ok] at h
    obtain ⟨_, -, _, -, h⟩ := h
    cases h
    exact .start hpc
  | acquire =>
    split at h
    · next hl =>
      cases h
      exact .acquire hpc hl
    · cases h
  | insert =>
    cases h
    exact .insert hpc
  | release =>
    cases h
    exact .release hpc
  | signal =>
    cases h
    exact .signal hpc
  | done => cases h

lemma move_of_worker (h : s.mmuZeroWorker maps q = .ok s') : Move q s .worker s' := by
  unfold ZeroThreadData.mmuZeroWorker at h
  cases hpc : s.worker with simp only [hpc] at h
  | wait =>
    cases h
    by_cases he : s.newPagesEvent = true
    · rw [if_pos he]
      exact .pass hpc he
    · rw [if_neg he]
      exact .block hpc (Bool.eq_false_iff.mpr he)
  | blocked => cases h
  | acquire =>
    split at h
    · next hl =>
      cases h
      exact .lock hpc hl
    · cases h
  | remove =>
    split at h
    · next hl =>
      cases h
      exact .none hpc hl
    · next hl =>
      cases h
      exact .take hpc hl
  | release o =>
    cases o with
    | none =>
      cases h
      exact .unlockEmpty hpc
    | some e =>
      cases h
      exact .unlock hpc
  | clear =>
    cases h
    exact .clear hpc
  | map e =>
    obtain ⟨_, -, h⟩ := bind_ok.mp h
    cases h
    exact .map hpc
  | zero e =>
    cases h
    exact .zero hpc
  | pmmRelease e =>
    cases h
    exact .pmmRelease hpc
  | unmap e =>
    cases h
    exact .unmap hpc

lemma move_of_step (h : Step maps q s a s') : Move q s a s' := by
  cases a with
  | caller e => exact move_of_caller h
  | worker => exact move_of_worker h

attribute [local grind =] update_apply
attribute [local grind] Owes

lemma heldByCaller_move (h : Kept s) (hv : Move q s a s') {e : E} :
    s'.caller e = .insert ∨ s'.caller e = .release ↔ s'.pagesLock = some (some e) := by
  have held := @h.heldByCaller
  have worker := h.heldByWorker
  clear h
  cases hv <;> grind -linarith

lemma heldByWorker_move (h : Kept s) (hv : Move q s a s') :
    (s'.worker = .remove ∨ ∃ o, s'.worker = .release o) ↔ s'.pagesLock = some none := by
  have held := @h.heldByCaller
  have worker := h.heldByWorker
  clear h
  cases hv <;> grind -linarith

lemma blocked_move (h : Kept s) (hv : Move q s a s') (hb : s'.worker = .blocked) : s'.newPagesEvent = false := by
  have blocked := h.blocked
  clear h
  cases hv <;> grind -linarith

lemma attended_move (h : Kept s) (ht : Timely s a) (hv : Move q s a s') :
    Attended s'.pagesToZeroList s'.newPagesEvent (Owes s') := by
  cases hv with
  | start hpc | acquire hpc | release hpc => exact h.attended.mono fun e he => by grind -linarith
  | @insert e _ => exact attended_of_owes (p := e) (.inl (update_self ..))
  | signal => exact attended_signaled
  | take _ hl =>
    have hatt := h.attended
    rw [hl] at hatt
    exact hatt.take
  | clear hpc =>
    obtain hl | ⟨e, he⟩ := ht hpc
    · rw [hl]
      exact attended_nil
    · exact attended_of_owes (p := e) he
  | _ => exact h.attended

lemma Kept.step (h : Kept s) (ht : Timely s a) (hs : Step maps q s a s') : Kept s' where
  heldByCaller := heldByCaller_move h (move_of_step hs)
  heldByWorker := heldByWorker_move h (move_of_step hs)
  blocked := blocked_move h (move_of_step hs)
  attended := attended_move h ht (move_of_step hs)

lemma kept_reach (h : Reach Initial (Step maps q) Timely s) : Kept s :=
  h.invariant (fun _ => Kept.start) fun _ _ _ hk ht hs => hk.step ht hs

omit [DecidableEq E] in
lemma Kept.not_stuck (h : Kept s) : ¬ Stuck s := by
  intro hs
  obtain hsig | ⟨e, he⟩ := h.attended hs.queued
  · rw [hs.unsignaled] at hsig
    cases hsig
  · exact hs.announced e he

lemma stuck_clear_iff (hpc : s.worker = .clear) (hs : Step maps q s .worker s') :
    Stuck s' ↔ ¬ Timely s .worker := by
  simp only [Step, ZeroThreadData.next, ZeroThreadData.mmuZeroWorker, hpc] at hs
  cases hs
  constructor
  · intro hst ht
    obtain hl | ⟨e, he⟩ := ht hpc
    · exact hst.queued hl
    · exact hst.announced e he
  · intro ht
    simp only [Timely, hpc, true_imp_iff, not_or, not_exists] at ht
    exact ⟨ht.1, ht.2, .inl rfl, rfl⟩

end Moves

end HAL9000.ZeroWorker
