import HAL9000.Process.Model

/-!
# Processes and their threads: what a step does

`Move` lists what a step can do to the process and its threads, if it is `Timely`: no thread is
abandoned after it has been put in the list, and the reference that goes with the last thread is not dropped before
`ProcessCreate` has taken its own. `Listed` and `Made` say which threads are in the list and who creates them.
-/

namespace HAL9000.Process
open Lib Ipc Function

section Points

variable {T : Type}

def Pc.listed : Pc T → Bool
  | .insertReference | .insertUnlock | .threadReference | .setup | .abandoned | .running | .spawning _
  | .exited | .ended | .removeLock | .remove => true
  | _ => false

/-- `ThreadListLock` is held for the thread. -/
def Pc.locks : Pc T → Bool
  | .insert | .insertReference | .insertUnlock | .remove | .removeDereference _ | .removeUnlock _ => true
  | _ => false

/-- `ThreadCreateEx` has not returned. -/
def Pc.making : Pc T → Bool
  | .insertLock | .insert | .insertReference | .insertUnlock | .threadReference | .setup => true
  | _ => false

def Pc.lives : Pc T → Bool
  | .running | .spawning _ | .exited => true
  | _ => false

def Pc.removed : Pc T → Bool
  | .removeLock | .remove | .removeDereference _ | .removeUnlock _ | .removeLast | .gone => true
  | _ => false

/-- Who removes the thread will drop the reference of `RfcInit`. -/
def Pc.last : Pc T → Bool
  | .removeDereference last | .removeUnlock last => last
  | .removeLast => true
  | _ => false

def Pc.more : Pc T → Bool
  | .removeDereference last | .removeUnlock last => !last
  | _ => false

/-- The thread has been taken from the list, and the process still has its reference. -/
def Pc.leaves : Pc T → Bool
  | .removeDereference _ => true
  | _ => false

/-- The call of `ProcessCreate` is on its way. -/
def CreatePc.busy : CreatePc T → Bool
  | .unused | .returned | .failed => false
  | _ => true

def CreatePc.young : CreatePc T → Bool
  | .unused | .starting | .dereference | .failed => true
  | _ => false

def CreatePc.started : CreatePc T → Bool
  | .closing _ | .removing _ | .reference => true
  | _ => false

end Points

variable {T : Type} [DecidableEq T]

/-- No thread is abandoned, and the first reference is not dropped, after the last thread, before `ProcessCreate`
    has its own. -/
def Timely (w : World T) : Action T → Prop
  | .mainSetup _ fails | .spawnSetup _ _ fails => fails = false
  | .run t => w.pc t = .removeLast → w.create = .returned
  | _ => True

/-- What is not in memory: who has created a thread, whether the reference of `RfcInit` is still there,
    which thread's removal will drop it, and the threads that are in the list without a reference to
    the process and the other way round. -/
structure Ghost (T : Type) where
  maker : T → T
  initial : Bool
  final : Option T
  entering : Option T
  leaving : Option T

inductive Move (g : Ghost T) (w : World T) : Ghost T → World T → Prop where
  | processCreate : w.create = .unused →
    Move g w { g with initial := true } { w with referenceCount := 1, create := .starting }
  | fail : w.create = .starting → Move g w g { w with create := .dereference }
  | main {t} : w.create = .starting → w.pc t = .unused →
    Move g w g { w with
      threadReferenceCount := update w.threadReferenceCount t 1
      pc := update w.pc t .insertLock
      create := .creating t }
  | closing {t} : w.create = .closing t → w.threadReferenceCount t ≠ 1 →
    Move g w g { w with
      threadReferenceCount := update w.threadReferenceCount t (w.threadReferenceCount t - 1)
      create := .reference }
  | closingLast {t} : w.create = .closing t → w.threadReferenceCount t = 1 →
    Move g w g { w with
      threadReferenceCount := update w.threadReferenceCount t 0
      pc := update w.pc t .removeLock
      create := .removing t }
  | removing {t} : w.create = .removing t → Move g w g { w with create := .reference }
  | reference : w.create = .reference → w.referenceCount + 1 < 2 ^ 32 →
    Move g w g { w with referenceCount := w.referenceCount + 1, create := .returned, handle := true }
  | dereference : w.create = .dereference → w.destroyed = 0 →
    Move g w { g with initial := false } { w with
      referenceCount := w.referenceCount - 1
      destroyed := if w.referenceCount = 1 then 1 else 0
      create := .failed }
  | spawn {u t} : w.pc u = .running → w.pc t = .unused →
    Move g w { g with maker := update g.maker t u } { w with
      threadReferenceCount := update w.threadReferenceCount t 1
      pc := update (update w.pc t .insertLock) u (.spawning t) }
  | insertLock {t} : w.pc t = .insertLock → w.threadListLock = none →
    Move g w g { w with threadListLock := some t, pc := update w.pc t .insert }
  | insert {t} : w.pc t = .insert → w.numberOfThreads + 1 < 2 ^ 32 →
    Move g w { g with entering := some t } { w with
      numberOfThreads := w.numberOfThreads + 1
      threadList := w.threadList ++ [t]
      pc := update w.pc t .insertReference }
  | insertReference {t} : w.pc t = .insertReference → w.referenceCount + 1 < 2 ^ 32 →
    Move g w { g with entering := none } { w with
      referenceCount := w.referenceCount + 1
      pc := update w.pc t .insertUnlock }
  | insertUnlock {t} : w.pc t = .insertUnlock →
    Move g w g { w with threadListLock := none, pc := update w.pc t .threadReference }
  | threadReference {t} : w.pc t = .threadReference →
    Move g w g { w with threadReferenceCount := update w.threadReferenceCount t 2, pc := update w.pc t .setup }
  | removeLock {t} : w.pc t = .removeLock → w.threadListLock = none →
    Move g w g { w with threadListLock := some t, pc := update w.pc t .remove }
  | remove {t} : w.pc t = .remove → w.numberOfThreads ≠ 1 →
    Move g w { g with leaving := some t } { w with
      numberOfThreads := w.numberOfThreads - 1
      threadList := w.threadList.erase t
      pc := update w.pc t (.removeDereference false) }
  | removeFinal {t} : w.pc t = .remove → w.numberOfThreads = 1 →
    Move g w { g with leaving := some t, final := some t } { w with
      numberOfThreads := 0
      threadList := w.threadList.erase t
      pc := update w.pc t (.removeDereference true) }
  | removeDereference {t last} : w.pc t = .removeDereference last → w.destroyed = 0 →
    Move g w { g with leaving := none } { w with
      referenceCount := w.referenceCount - 1
      destroyed := if w.referenceCount = 1 then 1 else 0
      pc := update w.pc t (.removeUnlock last) }
  | removeUnlock {t} : w.pc t = .removeUnlock false →
    Move g w g { w with threadListLock := none, pc := update w.pc t .gone }
  | removeUnlockLast {t} : w.pc t = .removeUnlock true →
    Move g w g { w with threadListLock := none, pc := update w.pc t .removeLast }
  | removeLast {t} : w.pc t = .removeLast → w.destroyed = 0 → w.create = .returned →
    Move g w { g with initial := false, final := none } { w with
      referenceCount := w.referenceCount - 1
      destroyed := if w.referenceCount = 1 then 1 else 0
      pc := update w.pc t .gone }
  | mainSetup {t} : w.create = .creating t → w.pc t = .setup →
    Move g w g { w with create := .closing t, pc := update w.pc t .running }
  | spawnSetup {u t} : w.pc u = .spawning t → w.pc t = .setup →
    Move g w g { w with
      threadHandle := update w.threadHandle t true
      pc := update (update w.pc t .running) u .running }
  | exit {t} : w.pc t = .running → Move g w g { w with pc := update w.pc t .exited }
  | cleanup {t} : w.pc t = .exited → w.threadReferenceCount t ≠ 1 →
    Move g w g { w with
      threadReferenceCount := update w.threadReferenceCount t (w.threadReferenceCount t - 1)
      pc := update w.pc t .ended }
  | cleanupLast {t} : w.pc t = .exited → w.threadReferenceCount t = 1 →
    Move g w g { w with
      threadReferenceCount := update w.threadReferenceCount t 0
      pc := update w.pc t .removeLock }
  | threadCloseHandle {t} : w.threadHandle t = true → w.threadReferenceCount t ≠ 1 →
    Move g w g { w with
      threadHandle := update w.threadHandle t false
      threadReferenceCount := update w.threadReferenceCount t (w.threadReferenceCount t - 1) }
  | threadCloseHandleLast {t} : w.threadHandle t = true → w.threadReferenceCount t = 1 →
    Move g w g { w with
      threadHandle := update w.threadHandle t false
      threadReferenceCount := update w.threadReferenceCount t 0
      pc := update w.pc t .removeLock }
  | processCloseHandle : w.handle = true → w.destroyed = 0 →
    Move g w g { w with
      referenceCount := w.referenceCount - 1
      destroyed := if w.referenceCount = 1 then 1 else 0
      handle := false }

structure Small (w : World T) : Prop where
  referenceCount : w.referenceCount < 2 ^ 32
  numberOfThreads : w.numberOfThreads < 2 ^ 32
  threadReferenceCount : ∀ t, w.threadReferenceCount t < 2 ^ 32
  threadReference : ∀ {t}, w.pc t = .threadReference → w.threadReferenceCount t = 1

variable {w w' : World T} {t : T}

lemma rfcReference_ok {n m : Nat} (h : rfcReference n = .ok m) (hn : n < 2 ^ 32) : m = n + 1 ∧ n + 1 < 2 ^ 32 := by
  simp only [rfcReference, bind_ok, ensure_ok, pure_okay, Except.ok.injEq] at h
  obtain ⟨_, -, _, h1, rfl⟩ := h
  have hlt : n + 1 < 2 ^ 32 := by
    by_contra hge
    simp [wadd, show n + 1 = 2 ^ 32 by omega] at h1
  exact ⟨wadd_eq hlt, hlt⟩

lemma rfcDereference_ok {n m : Nat} (h : rfcDereference n = .ok m) (hn : n < 2 ^ 32) : 0 < n ∧ m = n - 1 := by
  simp only [rfcDereference, bind_ok, ensure_ok, pure_okay, Except.ok.injEq] at h
  obtain ⟨_, h1, rfl⟩ := h
  have hpos : 0 < n := by
    by_contra h0
    simp [wsub, maxDword, show n = 0 by omega] at h1
  exact ⟨hpos, wsub_eq hn hpos⟩

section

omit [DecidableEq T]

lemma access_ok {u : Unit} : w.access = .ok u ↔ w.destroyed = 0 := by
  unfold World.access
  split <;> simp_all

lemma processReference_ok (h : w.processReference = .ok w') (hw : w.referenceCount < 2 ^ 32) :
    w.referenceCount + 1 < 2 ^ 32 ∧ w' = { w with referenceCount := w.referenceCount + 1 } := by
  simp only [World.processReference, bind_ok] at h
  obtain ⟨_, -, n, hn, h⟩ := h
  obtain ⟨rfl, hlt⟩ := rfcReference_ok hn hw
  cases h
  exact ⟨hlt, rfl⟩

lemma processDereference_ok (h : w.processDereference = .ok w') (hw : w.referenceCount < 2 ^ 32) :
    w.destroyed = 0 ∧ w' = { w with
      referenceCount := w.referenceCount - 1
      destroyed := if w.referenceCount = 1 then 1 else 0 } := by
  simp only [World.processDereference, bind_ok] at h
  obtain ⟨_, ha, n, hn, h⟩ := h
  obtain ⟨hpos, rfl⟩ := rfcDereference_ok hn hw
  have h0 := access_ok.mp ha
  refine ⟨h0, ?_⟩
  by_cases h1 : w.referenceCount = 1
  · rw [if_pos (by omega), bind_ok] at h
    obtain ⟨_, -, h⟩ := h
    cases h
    simp [h1, h0]
  · rw [if_neg (by omega)] at h
    cases h
    simp [h1, h0]

end

lemma threadDereference_ok {pc : Pc T} (h : w.threadDereference t pc = .ok w')
    (hw : w.threadReferenceCount t < 2 ^ 32) :
    w' = { w with
      threadReferenceCount := update w.threadReferenceCount t (w.threadReferenceCount t - 1)
      pc := update w.pc t (if w.threadReferenceCount t = 1 then .removeLock else pc) } := by
  simp only [World.threadDereference, bind_ok] at h
  obtain ⟨n, hn, h⟩ := h
  obtain ⟨hpos, rfl⟩ := rfcDereference_ok hn hw
  cases h
  have hiff : w.threadReferenceCount t - 1 = 0 ↔ w.threadReferenceCount t = 1 := by omega
  simp only [hiff]

variable (g : Ghost T) (hs : Small w)
include g hs

lemma move_of_run (ht : Timely w (.run t)) (h : w.run t = .ok w') : ∃ g', Move g w g' w' := by
  cases hc : w.pc t with
  | insertLock =>
    simp only [World.run, hc, bind_ok] at h
    obtain ⟨_, -, h⟩ := h
    split at h <;> cases h
    exact ⟨_, .insertLock hc ‹_›⟩
  | insert =>
    simp only [World.run, hc, bind_ok] at h
    obtain ⟨_, -, _, hn, h⟩ := h
    cases h
    exact ⟨_, .insert hc (by have := ensure_ok.mp hn; unfold maxDword at this; omega)⟩
  | insertReference =>
    simp only [World.run, hc, bind_ok] at h
    obtain ⟨v, hv, h⟩ := h
    obtain ⟨hlt, rfl⟩ := processReference_ok hv hs.referenceCount
    cases h
    exact ⟨_, .insertReference hc hlt⟩
  | insertUnlock =>
    simp only [World.run, hc, bind_ok] at h
    obtain ⟨_, -, h⟩ := h
    cases h
    exact ⟨_, .insertUnlock hc⟩
  | threadReference =>
    simp only [World.run, hc, bind_ok] at h
    obtain ⟨n, hn, h⟩ := h
    obtain ⟨rfl, -⟩ := rfcReference_ok hn (hs.threadReferenceCount t)
    cases h
    rw [hs.threadReference hc]
    exact ⟨_, .threadReference hc⟩
  | removeLock =>
    simp only [World.run, hc, bind_ok] at h
    obtain ⟨_, -, h⟩ := h
    split at h <;> cases h
    exact ⟨_, .removeLock hc ‹_›⟩
  | remove =>
    simp only [World.run, hc, bind_ok, ensure_ok] at h
    obtain ⟨_, -, _, hmax, h⟩ := h
    have hpos : 0 < w.numberOfThreads := by
      by_contra h0
      simp [wsub, maxDword, show w.numberOfThreads = 0 by omega] at hmax
    rw [wsub_eq hs.numberOfThreads hpos] at h
    cases h
    by_cases h1 : w.numberOfThreads = 1
    · exact ⟨_, by simpa [World.goto, h1] using Move.removeFinal hc h1⟩
    · have hne : ¬ (w.numberOfThreads - 1 = 0) := by omega
      exact ⟨_, by simpa [World.goto, hne] using Move.remove hc h1⟩
  | removeDereference last =>
    simp only [World.run, hc, bind_ok] at h
    obtain ⟨v, hv, h⟩ := h
    obtain ⟨h0, rfl⟩ := processDereference_ok hv hs.referenceCount
    cases h
    exact ⟨_, .removeDereference hc h0⟩
  | removeUnlock last =>
    simp only [World.run, hc, bind_ok] at h
    obtain ⟨_, -, h⟩ := h
    cases last <;> cases h
    · exact ⟨_, .removeUnlock hc⟩
    · exact ⟨_, .removeUnlockLast hc⟩
  | removeLast =>
    simp only [World.run, hc, bind_ok] at h
    obtain ⟨v, hv, h⟩ := h
    obtain ⟨h0, rfl⟩ := processDereference_ok hv hs.referenceCount
    cases h
    exact ⟨_, .removeLast hc h0 (ht hc)⟩
  | _ => simp [World.run, hc] at h

lemma move_of_step (h : w.step = .ok w') : ∃ g', Move g w g' w' := by
  cases hc : w.create with
  | closing t =>
    simp only [World.step, hc, bind_ok] at h
    obtain ⟨n, hn, h⟩ := h
    obtain ⟨hpos, rfl⟩ := rfcDereference_ok hn (hs.threadReferenceCount t)
    cases h
    by_cases h1 : w.threadReferenceCount t = 1
    · exact ⟨_, by simpa [h1] using Move.closingLast hc h1⟩
    · have hne : ¬ (w.threadReferenceCount t - 1 = 0) := by omega
      exact ⟨_, by simpa [hne] using Move.closing hc h1⟩
  | removing t =>
    simp only [World.step, hc] at h
    split at h <;> cases h
    exact ⟨_, .removing hc⟩
  | reference =>
    simp only [World.step, hc, bind_ok] at h
    obtain ⟨v, hv, h⟩ := h
    obtain ⟨hlt, rfl⟩ := processReference_ok hv hs.referenceCount
    cases h
    exact ⟨_, .reference hc hlt⟩
  | dereference =>
    simp only [World.step, hc, bind_ok] at h
    obtain ⟨v, hv, h⟩ := h
    obtain ⟨h0, rfl⟩ := processDereference_ok hv hs.referenceCount
    cases h
    exact ⟨_, .dereference hc h0⟩
  | _ => simp [World.step, hc] at h

lemma move_of_next {a : Action T} (ht : Timely w a) (h : w.next a = .ok w') : ∃ g', Move g w g' w' := by
  cases a with
  | processCreate =>
    simp only [World.next] at h
    split at h <;> cases h
    exact ⟨_, .processCreate ‹_›⟩
  | fail =>
    simp only [World.next] at h
    split at h <;> cases h
    exact ⟨_, .fail ‹_›⟩
  | main t =>
    simp only [World.next] at h
    split at h <;> cases h
    obtain ⟨hc, hp⟩ := ‹_ ∧ _›
    exact ⟨_, .main hc hp⟩
  | step => exact move_of_step g hs h
  | spawn u t =>
    simp only [World.next] at h
    split at h <;> cases h
    obtain ⟨hu, hp⟩ := ‹_ ∧ _›
    exact ⟨_, .spawn hu hp⟩
  | run t => exact move_of_run g hs ht h
  | mainSetup t fails =>
    obtain rfl : fails = false := ht
    simp only [World.next] at h
    split at h
    · obtain ⟨hc, hp⟩ := ‹_ ∧ _›
      obtain ⟨_, -, h⟩ := bind_ok.mp h
      cases h
      exact ⟨_, .mainSetup hc hp⟩
    · cases h
  | spawnSetup u t fails =>
    obtain rfl : fails = false := ht
    simp only [World.next] at h
    split at h
    · obtain ⟨hc, hp⟩ := ‹_ ∧ _›
      obtain ⟨_, -, h⟩ := bind_ok.mp h
      cases h
      exact ⟨_, .spawnSetup hc hp⟩
    · cases h
  | exit t =>
    simp only [World.next] at h
    split at h
    · obtain ⟨_, -, h⟩ := bind_ok.mp h
      cases h
      exact ⟨_, .exit ‹_›⟩
    · cases h
  | cleanup t =>
    simp only [World.next] at h
    by_cases hc : w.pc t = .exited
    · rw [if_pos hc] at h
      obtain rfl := threadDereference_ok h (hs.threadReferenceCount t)
      by_cases h1 : w.threadReferenceCount t = 1
      · exact ⟨g, by simpa [h1] using Move.cleanupLast hc h1⟩
      · exact ⟨g, by simpa [h1] using Move.cleanup hc h1⟩
    · simp [hc] at h
  | threadCloseHandle t =>
    simp only [World.next] at h
    by_cases hc : w.threadHandle t = true
    · rw [if_pos hc] at h
      obtain rfl := threadDereference_ok h (hs.threadReferenceCount t)
      by_cases h1 : w.threadReferenceCount t = 1
      · exact ⟨g, by simpa [h1] using Move.threadCloseHandleLast hc h1⟩
      · exact ⟨g, by simpa [h1] using Move.threadCloseHandle hc h1⟩
    · simp [hc] at h
  | processCloseHandle =>
    simp only [World.next] at h
    split at h
    · obtain ⟨h0, rfl⟩ := processDereference_ok h hs.referenceCount
      exact ⟨_, .processCloseHandle ‹_› h0⟩
    · cases h

end HAL9000.Process

