import HAL9000.Sched.Placement

/-!
# The order of the ready list

Threads are inserted at the end of the ready list and chosen from its front, whatever their priorities
are. So threads are chosen in the order in which they became ready, but a thread with a higher priority
waits behind those with a lower one. The thread with the highest priority is chosen in every run in which
no thread is inserted behind one with a lower priority (`ready_order`).

`ThreadSetPriority` does not lower the priority of the thread, and does not yield.
-/

namespace HAL9000.Sched
open Lib

variable {C T : Type} {idleThread : C → T} {s s' : State C T} {c : C}

/-- Every thread of the ready list has the priority of the thread, or a higher one. -/
def Follows (s : State C T) (t : T) : Prop := ∀ u ∈ s.readyThreadsList, s.priority t ≤ s.priority u

def Lowers (s : State C T) (c : C) (newPriority : Nat) : Prop :=
  newPriority < s.priority (s.current c) ∧ ∃ u ∈ s.readyThreadsList, newPriority < s.priority u

def Descends (s : State C T) : Prop := s.readyThreadsList.Pairwise fun t u => s.priority u ≤ s.priority t

section Steps

variable [DecidableEq C] [DecidableEq T]

def State.enters (idleThread : C → T) (s : State C T) (c : C) : List T :=
  match s.pc c with
  | .yieldInsert => if s.current c = idleThread c then [] else [s.current c]
  | .unblockInsert t _ => [t]
  | _ => []

def State.chooses (s : State C T) (c : C) : List T :=
  match s.pc c with
  | .schedule => s.readyThreadsList.take 1
  | _ => []

/-- A thread is inserted in the ready list behind threads with its priority or a higher one, and no thread
    asks for a priority below that of a ready thread. -/
def InOrder (idleThread : C → T) (s : State C T) (a : Act C T) : Prop :=
  (∀ t ∈ s.enters idleThread a.cpu, Follows s t) ∧
    match a with
    | .call c (.setPriority newPriority) => ¬ Lowers s c newPriority
    | _ => True

instance (idleThread : C → T) (s : State C T) : ∀ a, Decidable (InOrder idleThread s a)
  | .call c (.setPriority newPriority) =>
    inferInstanceAs (Decidable ((∀ t ∈ s.enters idleThread c, ∀ u ∈ s.readyThreadsList,
      s.priority t ≤ s.priority u) ∧ ¬ (newPriority < s.priority (s.current c) ∧
      ∃ u ∈ s.readyThreadsList, newPriority < s.priority u)))
  | .call c .yield | .call c .block | .call c (.unblock _) | .call c .exit | .call c (.create ..)
  | .call c (.terminate _) | .call c (.closeHandle _) | .notify c _ | .continue c =>
    inferInstanceAs (Decidable ((∀ t ∈ s.enters idleThread c, ∀ u ∈ s.readyThreadsList,
      s.priority t ≤ s.priority u) ∧ True))

/-- The scheduler with the threads that became ready and those that were chosen so far, in order. -/
structure Logged (C T : Type) where
  system : State C T
  entered : List T
  chosen : List T

def Logged.next (idleThread : C → T) (l : Logged C T) (a : Act C T) : Exec (Logged C T) := do
  let system ← l.system.next idleThread a
  pure {
    system := system
    entered := l.entered ++ l.system.enters idleThread a.cpu
    chosen := l.chosen ++ l.system.chooses a.cpu }

def LoggedStep (idleThread : C → T) (l : Logged C T) (a : Act C T) (l' : Logged C T) : Prop :=
  l.next idleThread a = .ok l'

structure LogInitial (idleThread : C → T) (l : Logged C T) : Prop where
  system : Initial idleThread l.system
  entered : l.entered = []
  chosen : l.chosen = []

attribute [local grind] State.enters State.chooses Caller.resume Follows
attribute [local grind =] Function.update_apply
attribute [local grind cases] Caller

lemma queue_move (hm : Move idleThread s c s') :
    s.readyThreadsList ++ s.enters idleThread c = s.chooses c ++ s'.readyThreadsList := by
  cases hm with
  | schedule hpc hlock hlist =>
    obtain hlist | ⟨hlist, rfl, rfl⟩ := hlist <;> simp [State.enters, State.chooses, hpc, hlist]
  | yieldInsert hpc hne => simp [State.enters, State.chooses, hpc, hne]
  | unblockInsert hpc => simp [State.enters, State.chooses, hpc]
  | _ => grind -linarith

lemma priority_move (ho : Ordered idleThread s) (hm : Move idleThread s c s') {t : T}
    (ht : t ∈ s'.readyThreadsList) : s'.priority t = s.priority t := by
  cases hm with
  | setPriority hpc =>
    have hinserted := ho.inserted c
    grind -linarith
  | create hpc hnew =>
    have hlisted := ho.listed t ht
    grind -linarith
  | _ => rfl

lemma Descends.move (h : Descends s) (ho : Ordered idleThread s) (hm : Move idleThread s c s')
    (hin : ∀ t ∈ s.enters idleThread c, Follows s t) : Descends s' := by
  have hqueue : (s.chooses c ++ s'.readyThreadsList).Pairwise fun t u => s.priority u ≤ s.priority t := by
    rw [← queue_move hm, List.pairwise_append]
    refine ⟨h, ?_, fun t ht u hu => hin u hu t ht⟩
    cases hpc : s.pc c <;> grind -linarith
  refine (List.pairwise_append.mp hqueue).2.1.imp_of_mem fun ht hu hle => ?_
  rw [priority_move ho hm ht, priority_move ho hm hu]
  exact hle

lemma setPriority_runs {newPriority : Nat} (h : Step idleThread s (.call c (.setPriority newPriority)) s') :
    s'.pc c = .run := by
  simp only [Step, State.next] at h
  split at h
  · next hpc =>
    obtain ⟨_, _, h⟩ := bind_ok.mp h
    split at h <;> (cases h; exact hpc)
  · cases h

/-- In every run in which threads become ready behind those with their priority or a higher one, and no
    thread asks for a priority below that of a ready thread: the thread that is chosen has the highest
    priority of the ready list, and threads are chosen in the order in which they became ready. A thread
    that asks for a priority below that of a ready thread is not stopped, so that it has to be excluded. -/
theorem ready_order {l : Logged C T} (hr : Reach (LogInitial idleThread) (LoggedStep idleThread)
      (fun l a => Proper idleThread l.system a ∧ InOrder idleThread l.system a) l) :
    (∀ t rest, l.system.readyThreadsList = t :: rest → ∀ u ∈ rest, l.system.priority u ≤ l.system.priority t) ∧
    l.entered = l.chosen ++ l.system.readyThreadsList ∧
    (∀ c newPriority s', Step idleThread l.system (.call c (.setPriority newPriority)) s' →
      ((Lowers l.system c newPriority → s'.pc c ≠ .run) ↔ ¬ Lowers l.system c newPriority)) := by
  have hinv : (Placed idleThread l.system ∧ Descends l.system) ∧
      l.entered = l.chosen ++ l.system.readyThreadsList := by
    refine hr.invariant (I := fun l => (Placed idleThread l.system ∧ Descends l.system) ∧
      l.entered = l.chosen ++ l.system.readyThreadsList) (fun l h => ?_) ?_
    · refine ⟨⟨⟨h.system.idle, h.system.ordered, h.system.tracked, h.system.stacked⟩, ?_⟩, ?_⟩
      · simp [Descends, h.system.list]
      · simp [h.entered, h.chosen, h.system.list]
    · rintro l a l' ⟨⟨hp, hd⟩, hlog⟩ ⟨hok, hin⟩ hst
      obtain ⟨system, hsystem, hl'⟩ := bind_ok.mp hst
      cases hl'
      have hm := move_of_next hok hsystem
      refine ⟨⟨hp.move hm, hd.move hp.ordered hm hin.1⟩, ?_⟩
      rw [hlog, List.append_assoc, List.append_assoc, queue_move hm]
  refine ⟨fun t rest hlist u hu => ?_, hinv.2, fun c newPriority s' hst => ?_⟩
  · have hd := hinv.1.2
    rw [Descends, hlist, List.pairwise_cons] at hd
    exact hd.1 u hu
  · have hrun := setPriority_runs hst
    exact ⟨fun h hlow => h hlow hrun, fun h hlow => absurd hlow h⟩

end Steps

def lowFirst : List (Act Bool Nat) :=
  .call false (.create 4 1) :: go false 6 ++ .call false (.create 5 31) :: go false 6

/-- A processor that is about to schedule has a thread at the front of the ready list whose priority is
    lower than that of another one; and a thread that asks for a priority below that of a ready thread
    goes on running, with its old priority. -/
theorem low_priority_chosen : (∃ s : State Bool Nat, Reach (Initial twoIdle) (Step twoIdle) (Proper twoIdle) s ∧
      s.pc false = .schedule ∧ s.readyThreadsList = [4, 5, 2] ∧ s.priority 4 < s.priority 5) ∧
    (∃ s s' : State Bool Nat, Reach (Initial twoIdle) (Step twoIdle) (Proper twoIdle) s ∧
      Lowers s false 8 ∧ Step twoIdle s (.call false (.setPriority 8)) s' ∧
      s'.pc false = .run ∧ s'.priority 2 = 16) := by
  refine ⟨?_, ?_⟩
  · exact exists_reach initial_booted (lowFirst ++ .call false .yield :: go false 2) (by decide)
  · obtain ⟨s, hr, hcurrent, hlist, hfive, hnext⟩ : ∃ s, Reach (Initial twoIdle) (Step twoIdle) (Proper twoIdle) s ∧
        s.priority (s.current false) = 16 ∧ s.readyThreadsList = [4, 5] ∧ s.priority 5 = 31 ∧
        returns (s.next twoIdle (.call false (.setPriority 8)))
          (fun s' => s'.pc false = .run ∧ s'.priority 2 = 16) = true :=
      exists_reach initial_booted lowFirst (by decide)
    obtain ⟨s', hs', htest⟩ := returns_iff.mp hnext
    refine ⟨s, s', hr, ⟨by omega, 5, ?_, by omega⟩, hs', of_decide_eq_true htest⟩
    simp [hlist]

/-- The theorem at the end of a run in which the thread with the high priority becomes ready first. -/
theorem ready_order_highFirst : ∃ l : Logged Bool Nat, Reach (LogInitial twoIdle) (LoggedStep twoIdle)
      (fun l a => Proper twoIdle l.system a ∧ InOrder twoIdle l.system a) l ∧
    l.system.readyThreadsList = [5, 4] ∧ l.system.priority 4 ≤ l.system.priority 5 ∧
    l.entered = l.chosen ++ [5, 4] := by
  obtain ⟨l, hr, hlist⟩ : ∃ l, Reach (LogInitial twoIdle) (LoggedStep twoIdle)
      (fun l a => Proper twoIdle l.system a ∧ InOrder twoIdle l.system a) l ∧ l.system.readyThreadsList = [5, 4] :=
    exists_reach (s := ⟨booted, [], []⟩) ⟨initial_booted, rfl, rfl⟩
      (.call false (.create 5 31) :: go false 6 ++ .call false (.create 4 1) :: go false 6) (by decide)
  have horder := ready_order hr
  refine ⟨l, hr, hlist, horder.1 5 [4] hlist 4 (by decide), ?_⟩
  rw [← hlist]
  exact horder.2.1

end HAL9000.Sched
