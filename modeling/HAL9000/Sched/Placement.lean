import Mathlib.Data.List.Nodup
import HAL9000.Sched.Ordered

/-!
# Where a thread is

A thread that is not an idle thread is current on one processor, in the ready list, blocked or dying. To
what the invariant of the scheduler says of this, `Tracked` adds the states of the current threads, and
`Stacked` the stacks the processors use. Together they give that the ready list has every ready thread
once, and that no processor resumes a thread before its context has been saved (`scheduler_safe`).
-/

namespace HAL9000.Sched
open Lib

variable {C T : Type} {idleThread : C → T} {s s' : State C T} {c : C}

/-- The states of the current threads, and the ready threads that are not idle. -/
structure Tracked (idleThread : C → T) (s : State C T) : Prop where
  blockLock : ∀ c, s.pc c = .blockLock → s.state (s.current c) = .blocked
  dying : ∀ c, (s.pc c).dies = true → s.state (s.current c) = .dying
  rescheduled : ∀ c, s.pc c = .schedule → s.state (s.current c) = .ready →
    s.current c ∈ s.readyThreadsList ∨ s.current c = idleThread c
  ready : ∀ t, s.created t = true → s.state t = .ready →
    t ∈ s.readyThreadsList ∨ (∃ c, s.current c = t) ∨ ∃ c, idleThread c = t

/-- The stacks the processors use, and the contexts the threads have left. -/
structure Stacked (s : State C T) : Prop where
  stack : ∀ c, (s.pc c).switches = false → s.stack c = s.current c
  previous : ∀ c, (s.pc c).switches = true → s.previous c = some (s.stack c)
  left : ∀ c d, (s.pc c).switches = true → s.current d ≠ s.stack c
  saved : ∀ t, s.created t = true → s.saved t = true ∨ ∃ c, s.stack c = t
  stored : ∀ c, s.pc c = .switchLoad → s.saved (s.stack c) = true
  resumed : ∀ c, (s.pc c).switches = true → s.saved (s.current c) = true

attribute [local grind] Pc.holdsReady Pc.dies Pc.switches Caller.resume

lemma Stacked.chosen_saved {t : T} (h : Stacked s) (ho : Ordered idleThread s) (hpc : s.pc c = .schedule)
    (ht : t ∈ s.readyThreadsList ∨ t = idleThread c) (hne : t ≠ s.current c) : s.saved t = true := by
  have hcreated : s.created t = true := by
    obtain ht | rfl := ht
    · exact (ho.listed t ht).2
    · exact ho.idle_created c
  refine (h.saved t hcreated).resolve_right ?_
  rintro ⟨d, rfl⟩
  have hc : s.readyThreadsLock = some c := (ho.lock c).mpr (by rw [hpc]; rfl)
  cases hd : (s.pc d).switches with
  | true =>
    have hlock := (ho.lock d).mpr (Pc.holdsReady_of_switches hd)
    cases hc.symm.trans hlock
    grind -linarith
  | false =>
    -- on its own stack, the thread is current
    rw [h.stack d hd] at ht hne
    obtain ht | ht := ht
    · have hlock := (ho.lock d).mpr (by rw [ho.inserted d ht]; rfl)
      cases hc.symm.trans hlock
      exact hne rfl
    · cases ho.idle_current d c ht
      exact hne rfl

section Moves

variable [DecidableEq C] [DecidableEq T]

attribute [local grind =] Function.update_apply
attribute [local grind cases] Caller

namespace Tracked

variable (h : Tracked idleThread s) (hm : Move idleThread s c s')
include h hm

lemma ready_move (t : T) (ht : s'.created t = true) (hs : s'.state t = .ready) :
    t ∈ s'.readyThreadsList ∨ (∃ d, s'.current d = t) ∨ ∃ d, idleThread d = t := by
  have hready := h.ready t
  cases hm with
  | schedule hpc hlock hlist =>
    have hres := h.rescheduled c hpc
    have hcase : t ∈ s.readyThreadsList ∨ (∃ d, d ≠ c ∧ s.current d = t) ∨ ∃ d, idleThread d = t := by
      grind -linarith
    obtain hin | ⟨d, hdc, hd⟩ | hidle := hcase
    · by_cases htail : t ∈ s.readyThreadsList.tail
      · exact .inl (by grind -linarith)
      · exact .inr (.inl ⟨c, by grind -linarith⟩)
    · exact .inr (.inl ⟨d, by grind -linarith⟩)
    · exact .inr (.inr hidle)
  | yieldInsert | yieldIdle | blockState | exitState | unblockInsert | create => grind -linarith
  | _ => exact hready ht hs

variable (ho : Ordered idleThread s)
include ho

lemma blockLock_move (d : C) (hd : s'.pc d = .blockLock) : s'.state (s'.current d) = .blocked := by
  have hblock := h.blockLock d
  have hunique := ho.unique c d
  have hcreated := ho.created d
  cases hm with
  | unblockInsert hpc =>
    have haway := (ho.unblockInsert hpc).current d
    grind -linarith
  | _ => grind -linarith

lemma dying_move (d : C) (hd : (s'.pc d).dies = true) : s'.state (s'.current d) = .dying := by
  have hdying := h.dying d
  have hunique := ho.unique c d
  have hcreated := ho.created d
  cases hm with
  | unblockInsert hpc =>
    have haway := (ho.unblockInsert hpc).current d
    grind -linarith
  | _ => grind -linarith

lemma rescheduled_move (d : C) (hd : s'.pc d = .schedule) (hs : s'.state (s'.current d) = .ready) :
    s'.current d ∈ s'.readyThreadsList ∨ s'.current d = idleThread d := by
  have hres := h.rescheduled d
  have hunique := ho.unique c d
  have hcreated := ho.created d
  have hblock := h.blockLock d
  have hdying := h.dying d
  have hl := ho.lock
  cases hm with
  | unblockInsert hpc =>
    have haway := (ho.unblockInsert hpc).current d
    grind -linarith
  | _ => grind -linarith

/-- Every move keeps the states of the current threads in order. -/
theorem move : Tracked idleThread s' where
  blockLock := h.blockLock_move hm ho
  dying := h.dying_move hm ho
  rescheduled := h.rescheduled_move hm ho
  ready := h.ready_move hm

end Tracked

namespace Stacked

variable (h : Stacked s) (hm : Move idleThread s c s')
include h hm

lemma stack_move (d : C) (hd : (s'.pc d).switches = false) : s'.stack d = s'.current d := by
  have hstack := h.stack d
  cases hm <;> grind -linarith

lemma previous_move (d : C) (hd : (s'.pc d).switches = true) : s'.previous d = some (s'.stack d) := by
  have hprev := h.previous d
  have hstack := h.stack d
  cases hm <;> grind -linarith

lemma saved_move (t : T) (ht : s'.created t = true) : s'.saved t = true ∨ ∃ d, s'.stack d = t := by
  have hsaved := h.saved t
  cases hm with
  | switchLoad hpc =>
    have hstored := h.stored c hpc
    by_cases htc : t = s.current c
    · exact .inr ⟨c, by grind -linarith⟩
    · obtain hs | ⟨d, rfl⟩ := hsaved ht
      · exact .inl (by grind -linarith)
      · by_cases hdc : d = c
        · exact .inl (by grind -linarith)
        · exact .inr ⟨d, by grind -linarith⟩
  | switchSave | create => grind -linarith
  | _ => exact hsaved ht

lemma stored_move (d : C) (hd : s'.pc d = .switchLoad) : s'.saved (s'.stack d) = true := by
  have hstored := h.stored d
  have hleft := h.left d c
  have hprev := h.previous d
  cases hm <;> grind -linarith

variable (ho : Ordered idleThread s)
include ho

lemma left_move (d e : C) (hd : (s'.pc d).switches = true) : s'.current e ≠ s'.stack d := by
  have hleft := h.left d e
  cases hm with
  | schedule hpc hlock hlist =>
    -- nobody else takes a thread from the list meanwhile
    have hstack := h.stack d
    have hunique := ho.unique
    have hl := ho.lock d
    have hholds := fun hd => Pc.holdsReady_of_switches (p := s.pc d) hd
    grind -linarith
  | _ => grind -linarith

lemma resumed_move (d : C) (hd : (s'.pc d).switches = true) : s'.saved (s'.current d) = true := by
  have hresumed := h.resumed d
  cases hm with
  | schedule hpc hlock hlist =>
    have hchosen := fun t => h.chosen_saved (t := t) ho hpc
    grind -linarith
  | switchLoad hpc =>
    have hunique := ho.unique c d
    grind -linarith
  | _ => grind -linarith

/-- Every move keeps the stacks in order. -/
theorem move : Stacked s' where
  stack := h.stack_move hm
  previous := h.previous_move hm
  left := h.left_move hm ho
  saved := h.saved_move hm
  stored := h.stored_move hm
  resumed := h.resumed_move hm ho

end Stacked

end Moves

section Runs

lemma Initial.ordered (h : Initial idleThread s) : Ordered idleThread s where
  lock c := by simp [h.lock, h.pc, Pc.holdsReady]
  unique c d hcd := h.current hcd
  idle_current c d hcd := absurd hcd (h.current_ne c d)
  idle_list c := by simp [h.list]
  nodup := by simp [h.list]
  listed := by simp [h.list]
  inserted := by simp [h.list]
  created c := (h.created _).mpr (.inl ⟨c, rfl⟩)
  idle_created c := (h.created _).mpr (.inr ⟨c, rfl⟩)
  blocked c hb := by simp [h.main] at hb
  target_unique := by simp [h.pc, Pc.target]
  target_waiting := by simp [h.pc, Pc.target]
  waiting := by simp [h.waiting]
  target := by simp [h.pc, Pc.target]
  locked := by simp [h.pc, Pc.locked]
  checked := by simp [h.pc, Pc.checked]
  pending := by simp [h.terminatePending]
  terminated := by simp [h.terminated]

lemma Initial.tracked (h : Initial idleThread s) : Tracked idleThread s where
  blockLock := by simp [h.pc]
  dying := by simp [h.pc, Pc.dies]
  rescheduled := by simp [h.pc]
  ready t ht _ := .inr ((h.created t).mp ht)

lemma Initial.stacked (h : Initial idleThread s) : Stacked s where
  stack c _ := h.stack c
  previous := by simp [h.pc, Pc.switches]
  left := by simp [h.pc, Pc.switches]
  saved t ht := by
    obtain ⟨c, rfl⟩ | ⟨c, rfl⟩ := (h.created t).mp ht
    · exact .inr ⟨c, h.stack c⟩
    · exact .inl (h.idleSaved c)
  stored := by simp [h.pc]
  resumed := by simp [h.pc, Pc.switches]

variable [DecidableEq C] [DecidableEq T] {t : T}

/-- The three invariants, and idle threads that differ. -/
structure Placed (idleThread : C → T) (s : State C T) : Prop where
  idle : Function.Injective idleThread
  ordered : Ordered idleThread s
  tracked : Tracked idleThread s
  stacked : Stacked s

lemma Placed.move (h : Placed idleThread s) (hm : Move idleThread s c s') : Placed idleThread s' :=
  ⟨h.idle, h.ordered.move hm h.idle, h.tracked.move hm h.ordered, h.stacked.move hm h.ordered⟩

/-- The invariants hold in every state that is reached. -/
theorem placed_reach (hr : Reach (Initial idleThread) (Step idleThread) (Proper idleThread) s) :
    Placed idleThread s :=
  hr.invariant (fun _ h => ⟨h.idle, h.ordered, h.tracked, h.stacked⟩)
    fun _ _ _ h hok hst => h.move (move_of_next hok hst)

def Unforced : Act C T → Prop
  | .call _ (.terminate _) => False
  | _ => True

instance : DecidablePred (Unforced : Act C T → Prop)
  | .call _ (.terminate _) => .isFalse id
  | .call _ .yield | .call _ .block | .call _ (.unblock _) | .call _ .exit | .call _ (.create ..)
  | .call _ (.setPriority _) | .call _ (.closeHandle _) | .notify .. | .continue _ => .isTrue trivial

lemma pending_of_call {k : Call T} (hk : Unforced (.call c k)) (h : s.call idleThread c k = .ok s')
    (ht : s'.terminatePending t = true) : s.terminatePending t = true := by
  cases k with
  | yield =>
    simp only [State.call, pure_okay, Except.ok.injEq] at h
    split at h <;> (subst h; exact ht)
  | block =>
    obtain ⟨_, rfl⟩ := lockBlock_ok h
    exact ht
  | unblock | exit =>
    cases h
    exact ht
  | create u priority =>
    obtain ⟨_, _, h⟩ := bind_ok.mp h
    cases h
    by_cases htu : t = u
    · simp [State.goto, State.init, htu] at ht
    · simpa [State.goto, State.init, htu] using ht
  | setPriority newPriority =>
    obtain ⟨_, _, h⟩ := bind_ok.mp h
    split at h <;> (cases h; exact ht)
  | terminate => exact hk.elim
  | closeHandle u =>
    obtain ⟨_, _, h⟩ := bind_ok.mp h
    cases h
    exact ht

lemma pending_of_next {a : Act C T} (ha : Unforced a) (h : Step idleThread s a s')
    (ht : s'.terminatePending t = true) : s.terminatePending t = true := by
  cases a with simp only [Step, State.next] at h
  | call c k =>
    split at h
    · exact pending_of_call ha h ht
    · cases h
  | notify c u =>
    split at h
    · cases h
      exact ht
    · cases h
  | «continue» c =>
    have hrun : s.pc c ≠ .run := by
      intro hpc
      simp [State.continue, hpc] at h
    cases move_of_continue h with
    | terminate hpc | create hpc => exact absurd hpc hrun
    | _ => exact ht

lemma terminated_reach
    (hr : Reach (Initial idleThread) (Step idleThread) (fun s a => Proper idleThread s a ∧ Unforced a) s)
    (t : T) : s.terminated t = false := by
  have hboth : ∀ t, s.terminatePending t = false ∧ s.terminated t = false := by
    refine hr.invariant (I := fun s => ∀ t, s.terminatePending t = false ∧ s.terminated t = false)
      (fun s h t => ⟨h.terminatePending t, h.terminated t⟩) ?_
    intro s a s' h hok hst t
    refine ⟨eq_false_of_ne_true fun ht => ?_, ?_⟩
    · exact absurd (pending_of_next hok.2 hst ht) (by simp [h t])
    · have hc := h (s.current a.cpu)
      have ht := (h t).2
      cases move_of_next hok.1 hst with
      | forcedExit _ hterm => simp [State.mustTerminate, hc] at hterm
      | create => simp [Function.update_apply, ht]
      | _ => exact ht
  exact (hboth t).2

/-- In every run without forced exits, in which `ThreadUnblock` is only called for threads that wait: the
    ready list has every ready thread that is neither idle nor current once, and no blocked or dying
    thread; no thread is current on two processors; `ThreadUnblock` finds its thread blocked; and the
    thread a processor switches to has a saved context. -/
theorem scheduler_safe
    (hr : Reach (Initial idleThread) (Step idleThread) (fun s a => Proper idleThread s a ∧ Unforced a) s) :
    (∀ t, s.created t = true → (∀ c, idleThread c ≠ t) → s.state t = .ready → (∀ c, s.current c ≠ t) →
      s.readyThreadsList.count t = 1) ∧
    (∀ t ∈ s.readyThreadsList, s.state t ≠ .blocked ∧ s.state t ≠ .dying) ∧
    (∀ c d, s.current c = s.current d → c = d) ∧
    (∀ c t k, s.pc c = .unblockCheck t k → s.state t = .blocked) ∧
    (∀ c, (s.pc c).switches = true → s.saved (s.current c) = true) := by
  obtain ⟨_, ho, ht, hs⟩ := placed_reach (hr.mono (fun _ _ h => h.1) fun _ _ _ h => h)
  refine ⟨fun t hcreated hidle hready hcurrent => ?_, fun t hin => ?_, ho.unique, fun c t k hpc => ?_, hs.resumed⟩
  · obtain hin | ⟨c, hc⟩ | ⟨c, hc⟩ := ht.ready t hcreated hready
    · exact List.count_eq_one_of_mem ho.nodup hin
    · exact absurd hc (hcurrent c)
    · exact absurd hc (hidle c)
  · rw [(ho.listed t hin).1]
    decide
  · obtain haway | hterm := ho.unblockCheck hpc
    · exact haway.state
    · rw [terminated_reach hr t] at hterm
      cases hterm

end Runs

def twoIdle : Bool → Nat := Bool.toNat

def booted : State Bool Nat where
  state t := if t < 2 then .ready else .running
  priority _ := 16
  terminatePending _ := false
  terminated _ := false
  blockLock _ := none
  refCnt _ := 1
  saved t := decide (t < 2)
  leftOn _ := none
  created t := decide (t < 4)
  waiting _ := false
  handles _ := 0
  dropped _ := 0
  current c := c.toNat + 2
  previous _ := none
  stack c := c.toNat + 2
  pc _ := .run
  readyThreadsLock := none
  readyThreadsList := []

lemma initial_booted : Initial twoIdle booted where
  idle := by decide
  current := by decide
  current_ne := by decide
  created t := by
    simp only [booted, twoIdle, Bool.exists_bool, decide_eq_true_eq, Bool.toNat_false, Bool.toNat_true]
    omega
  main := by decide
  idleState := by decide
  idleSaved := by decide
  terminatePending _ := rfl
  terminated _ := rfl
  blockLock _ := rfl
  waiting _ := rfl
  leftOn _ := rfl
  refCnt _ := rfl
  dropped _ := rfl
  stack _ := rfl
  previous _ := rfl
  pc _ := rfl
  lock := rfl
  list := rfl

def go (c : Bool) (n : Nat) : List (Act Bool Nat) := List.replicate n (.continue c)

/-- The first processor creates a thread. The second one yields to it; it blocks there, and the main thread
    creates another one. Meanwhile the first processor unblocks the blocked thread. -/
def unblockRun : List (Act Bool Nat) :=
  .call false (.create 4 16) :: go false 6 ++ .call true .yield :: go true 9 ++
    .call true .block :: go true 13 ++ .call true (.create 5 16) :: go true 6 ++
    .call false (.unblock 4) :: go false 1

/-- The theorem at the end of that run: the second new thread is in the ready list, and `ThreadUnblock` is
    about to check the state of the first one. -/
theorem scheduler_safe_unblock : ∃ s : State Bool Nat,
    Reach (Initial twoIdle) (Step twoIdle) (fun s a => Proper twoIdle s a ∧ Unforced a) s ∧
    s.readyThreadsList.count 5 = 1 ∧ s.pc false = .unblockCheck 4 .thread ∧ s.state 4 = .blocked := by
  obtain ⟨s, hr, hcreated, hready, hcurrent, hpc⟩ : ∃ s, Reach (Initial twoIdle) (Step twoIdle)
      (fun s a => Proper twoIdle s a ∧ Unforced a) s ∧ s.created 5 = true ∧ s.state 5 = .ready ∧
      (∀ c, s.current c ≠ 5) ∧ s.pc false = .unblockCheck 4 .thread :=
    exists_reach initial_booted unblockRun (by decide)
  have hsafe := scheduler_safe hr
  exact ⟨s, hr, hsafe.1 5 hcreated (by decide) hready hcurrent, hpc, hsafe.2.2.2.1 false 4 .thread hpc⟩

end HAL9000.Sched
