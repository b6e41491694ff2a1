import HAL9000.Lib.Fair
import HAL9000.ZeroWorker.Wakeup

/-!
# The thread that zeroes frames: progress

In a strongly fair run in which the worker clears the event in time, every range in the list is zeroed and
released. The worker gets closer to the range with every step it takes (`measure_move`). It cannot take one
while it is blocked, but then a call is about to signal the event, or while a call holds the lock.
-/

namespace HAL9000.ZeroWorker
open Lib Function

variable {E : Type} {s s' : ZeroThreadData E} {a : Actor E} {e x : E} {n : Nat} {w : WorkerPc E}

/-- How far the worker is from the next `RemoveHeadList`. -/
def WorkerPc.distance : WorkerPc E → Nat
  | .remove => 0
  | .acquire => 1
  | .blocked => 2
  | .wait => 3
  | .clear => 4
  | .unmap _ => 4
  | .release none => 5
  | .pmmRelease _ => 5
  | .zero _ => 6
  | .map _ => 7
  | .release (some _) => 8

section Steps

variable [DecidableEq E] {maps : Nat → Nat → Bool} {q : E → ZeroWorkerItem}

def ZeroThreadData.measure (s : ZeroThreadData E) (x : E) : Nat := 9 * s.pagesToZeroList.idxOf x + s.worker.distance

/-- The range is in the list and the worker at a place in its loop. -/
structure Queued (x : E) (n : Nat) (w : WorkerPc E) (s : ZeroThreadData E) : Prop where
  mem : x ∈ s.pagesToZeroList
  measure : s.measure x = n
  worker : s.worker = w

def Closer (x : E) (n : Nat) (s : ZeroThreadData E) : Prop :=
  s.worker = .release (some x) ∨ x ∈ s.pagesToZeroList ∧ s.measure x < n

lemma closer_of_worker (hs : Step maps q s .worker s') (hx : x ∈ s.pagesToZeroList) :
    Closer x (s.measure x) s' := by
  have hv := move_of_step hs
  generalize ha : Actor.worker = a at hv
  cases hv <;> cases ha
  case take e es hpc hl =>
    obtain rfl | hne := eq_or_ne e x
    · exact .inl rfl
    · have hmem : x ∈ es := by
        rw [hl] at hx
        exact List.mem_of_ne_of_mem hne.symm hx
      refine .inr ⟨hmem, ?_⟩
      rw [ZeroThreadData.measure, ZeroThreadData.measure, hl, hpc, List.idxOf_cons_ne es hne]
      simp only [WorkerPc.distance]
      omega
  case none hpc hl =>
    rw [hl] at hx
    cases hx
  all_goals
    refine .inr ⟨hx, ?_⟩
    simp only [ZeroThreadData.measure, WorkerPc.distance, *]
    omega

lemma queued_of_caller (hs : Step maps q s (.caller e) s') (h : Queued x n w s) :
    Queued x n w s' ∨ Closer x n s' := by
  have hv := move_of_step hs
  obtain ⟨hx, hm, hw⟩ := h
  generalize ha : Actor.caller e = a at hv
  cases hv <;> cases ha
  case insert hpc =>
    refine .inl ⟨List.mem_append_left _ hx, ?_, hw⟩
    rw [ZeroThreadData.measure, List.idxOf_append_of_mem hx]
    exact hm
  case signal hpc =>
    by_cases hb : s.worker = .blocked
    · refine .inr (.inr ⟨hx, ?_⟩)
      simp only [ZeroThreadData.measure, hb, if_pos, WorkerPc.distance] at hm ⊢
      omega
    · simp only [if_neg hb]
      exact .inl ⟨hx, hm, hw⟩
  all_goals exact .inl ⟨hx, hm, hw⟩

lemma queued_of_step (hs : Step maps q s a s') (h : Queued x n w s) : Queued x n w s' ∨ Closer x n s' := by
  cases a with
  | caller e => exact queued_of_caller hs h
  | worker => exact .inr (h.measure ▸ closer_of_worker hs h.mem)

lemma enabled_caller (h : s.caller e = .insert ∨ s.caller e = .release ∨ s.caller e = .signal) :
    Enabled (Step maps q) s (.caller e) := by
  obtain h | h | h := h <;>
    simp [Enabled, Step, ZeroThreadData.next, ZeroThreadData.mmuReleaseMemory, h, pure, Except.pure]

lemma enabled_worker (hmaps : ∀ e, maps (q e).physicalAddress (noOfBytes (q e)) = true)
    (hb : s.worker ≠ .blocked) (hl : s.worker = .acquire → s.pagesLock = none) :
    Enabled (Step maps q) s .worker := by
  simp only [Enabled, Step, ZeroThreadData.next, ZeroThreadData.mmuZeroWorker]
  cases hw : s.worker with
  | blocked => exact absurd hw hb
  | acquire => exact ⟨_, if_pos (hl hw)⟩
  | remove => cases s.pagesToZeroList <;> exact ⟨_, rfl⟩
  | release o => cases o <;> exact ⟨_, rfl⟩
  | map e =>
    refine ⟨{ s with worker := .zero e }, ?_⟩
    simp only [hmaps e, ensure_pos, bind_okay]
    rfl
  | _ => exact ⟨_, rfl⟩

lemma caller_other (hs : Step maps q s a s') (ha : a ≠ .caller e) : s'.caller e = s.caller e := by
  cases move_of_step hs
  all_goals first
    | rfl
    | exact update_of_ne (fun h => ha (by rw [h])) ..

variable (hs : Step maps q s (.caller e) s')
include hs

lemma caller_of_insert (hc : s.caller e = .insert) : s'.caller e = .release := by
  simp only [Step, ZeroThreadData.next, ZeroThreadData.mmuReleaseMemory, hc] at hs
  cases hs
  exact update_self ..

lemma caller_of_release (hc : s.caller e = .release) : s'.pagesLock = none ∧ s'.caller e = .signal := by
  simp only [Step, ZeroThreadData.next, ZeroThreadData.mmuReleaseMemory, hc] at hs
  cases hs
  exact ⟨rfl, update_self ..⟩

lemma caller_of_signal (hc : s.caller e = .signal) : s'.worker ≠ .blocked := by
  simp only [Step, ZeroThreadData.next, ZeroThreadData.mmuReleaseMemory, hc] at hs
  cases hs
  by_cases hb : s.worker = .blocked <;> simp [hb]

end Steps

section Runs

variable [DecidableEq E] {maps : Nat → Nat → Bool} {q : E → ZeroWorkerItem} {r : Run (Step maps q)}

/-- A fair run in which the worker clears the event in time and every range can be mapped. -/
structure Undisturbed (r : Run (Step maps q)) : Prop where
  start : Initial (r.state 0)
  fair : r.StrongFair
  timely : ∀ t a, r.action t = some a → Timely (r.state t) a
  maps : ∀ e, maps (q e).physicalAddress (noOfBytes (q e)) = true

section

variable (h : Undisturbed r)
include h

lemma Undisturbed.kept (t : Nat) : Kept (r.state t) := kept_reach (Run.reach h.start h.timely t)

lemma caller_leadsTo {pc : ReleasePc} {Q : ZeroThreadData E → Prop}
    (hpc : pc = .insert ∨ pc = .release ∨ pc = .signal) (hcloser : ∀ s, Closer x n s → Q s)
    (hact : ∀ t, Queued x n w (r.state t) → (r.state t).caller e = pc →
      Step maps q (r.state t) (.caller e) (r.state (t + 1)) → Q (r.state (t + 1))) :
    r.LeadsTo (fun s => Queued x n w s ∧ s.caller e = pc) Q := by
  refine Run.leadsTo_of_fair (h.fair.fair (.caller e)) ?_ ⟨?_, ?_⟩
  · rintro t ⟨-, hc⟩
    exact enabled_caller (by rwa [hc])
  · rintro t b - hb ⟨hq, hc⟩ hs
    refine (queued_of_step hs hq).imp (fun hq' => ⟨hq', ?_⟩) (hcloser _)
    rw [caller_other hs hb, hc]
  · rintro t - ⟨hq, hc⟩ hs
    exact hact t hq hc hs

lemma blocked_leadsTo_closer : r.LeadsTo (Queued x n .blocked) (Closer x n) := by
  intro t hq
  have hk := h.kept t
  obtain hsig | ⟨e, howes⟩ := hk.attended (List.ne_nil_of_mem hq.mem)
  · rw [hk.blocked hq.worker] at hsig
    cases hsig
  have hsignal : r.LeadsTo (fun s => Queued x n .blocked s ∧ s.caller e = .signal) (Closer x n) := by
    refine caller_leadsTo h (by simp) (fun _ hc => hc) fun t hq hc hs => ?_
    exact (queued_of_step hs hq).resolve_left fun hq' => caller_of_signal hs hc hq'.worker
  have hrelease : r.LeadsTo (fun s => Queued x n .blocked s ∧ s.caller e = .release) (Closer x n) := by
    refine Run.LeadsTo.cancel (caller_leadsTo h (by simp) (fun _ => .inr) fun t hq hc hs => ?_) hsignal
    exact (queued_of_step hs hq).imp_left fun hq' => ⟨hq', (caller_of_release hs hc).2⟩
  obtain hc | hc := howes
  · exact hrelease t ⟨hq, hc⟩
  · exact hsignal t ⟨hq, hc⟩

lemma acquire_leadsTo_enabled :
    r.LeadsTo (Queued x n .acquire) (fun s => Closer x n s ∨ Enabled (Step maps q) s .worker) := by
  have hfree : ∀ {s}, Queued x n .acquire s → s.pagesLock = none → Enabled (Step maps q) s .worker :=
    fun hq hl => enabled_worker h.maps (by rw [hq.worker]; simp) fun _ => hl
  intro t hq
  have hk := h.kept t
  cases hl : (r.state t).pagesLock with
  | none => exact ⟨t, Nat.le_refl t, .inr (hfree hq hl)⟩
  | some holder =>
    cases holder with
    | none =>
      have hin := hk.heldByWorker.mpr hl
      simp [hq.worker] at hin
    | some e =>
      have hrelease : r.LeadsTo (fun s => Queued x n .acquire s ∧ s.caller e = .release)
          (fun s => Closer x n s ∨ Enabled (Step maps q) s .worker) := by
        refine caller_leadsTo h (by simp) (fun _ => .inl) fun t hq hc hs => ?_
        exact (queued_of_step hs hq).symm.imp_right fun hq' => hfree hq' (caller_of_release hs hc).1
      have hinsert : r.LeadsTo (fun s => Queued x n .acquire s ∧ s.caller e = .insert)
          (fun s => Closer x n s ∨ Enabled (Step maps q) s .worker) := by
        refine Run.LeadsTo.cancel
          (caller_leadsTo h (by simp) (fun _ hc => .inr (.inl hc)) fun t hq hc hs => ?_) hrelease
        exact (queued_of_step hs hq).imp (fun hq' => ⟨hq', caller_of_insert hs hc⟩) .inl
      obtain hc | hc := hk.heldByCaller.mpr hl
      · exact hinsert t ⟨hq, hc⟩
      · exact hrelease t ⟨hq, hc⟩

lemma queued_leadsTo_closer : r.LeadsTo (Queued x n w) (Closer x n) := by
  refine Run.leadsTo_of_strongFair (h.fair .worker) ?_ ⟨?_, ?_⟩
  · intro t hq
    by_cases hb : w = .blocked
    · subst hb
      obtain ⟨u, hu, hc⟩ := blocked_leadsTo_closer h t hq
      exact ⟨u, hu, .inl hc⟩
    by_cases ha : w = .acquire
    · subst ha
      exact acquire_leadsTo_enabled h t hq
    · have henabled := enabled_worker (s := r.state t) h.maps (by rwa [hq.worker]) (by simp [hq.worker, ha])
      exact ⟨t, Nat.le_refl t, .inr henabled⟩
  · exact fun t b _ _ hq hs => queued_of_step hs hq
  · exact fun t _ hq hs => hq.measure ▸ closer_of_worker hs hq.mem

lemma queued_leadsTo_taken :
    r.LeadsTo (fun s => x ∈ s.pagesToZeroList) (fun s => s.worker = .release (some x)) := by
  refine Run.leadsTo_of_rank (fun s => s.measure x) fun n t ht => ?_
  exact queued_leadsTo_closer h t ⟨ht.1, ht.2, rfl⟩

end

def Carried (q : E → ZeroWorkerItem) (x : E) (s : ZeroThreadData E) : Prop :=
  s.worker = .release (some x) ∨ s.worker = .map x ∨ s.worker = .zero x ∨
    s.worker = .pmmRelease x ∧ s.zeroed x = noOfBytes (q x)

omit [DecidableEq E] in
lemma Carried.running (h : Carried q x s) : s.worker ≠ .blocked ∧ s.worker ≠ .acquire := by
  obtain h | h | h | ⟨h, -⟩ := h <;> simp [h]

lemma carried_of_caller (hs : Step maps q s (.caller e) s') (h : Carried q x s) :
    Carried q x s' ∧ s'.worker = s.worker := by
  have hrun := h.running.1
  have hv := move_of_step hs
  generalize ha : Actor.caller e = a at hv
  cases hv <;> cases ha
  case signal =>
    rw [if_neg hrun]
    exact ⟨h, rfl⟩
  all_goals exact ⟨h, rfl⟩

lemma carried_of_worker (hs : Step maps q s .worker s') (h : Carried q x s) :
    (s'.zeroed x = noOfBytes (q x) ∧ s'.released x = true) ∨
      Carried q x s' ∧ s'.worker.distance < s.worker.distance := by
  rw [Step, ZeroThreadData.next, ZeroThreadData.mmuZeroWorker] at hs
  obtain h | h | h | ⟨h, hz⟩ := h <;> simp only [h] at hs ⊢
  · cases hs
    exact .inr ⟨.inr (.inl rfl), by simp [WorkerPc.distance]⟩
  · obtain ⟨_, -, hs⟩ := bind_ok.mp hs
    cases hs
    exact .inr ⟨.inr (.inr (.inl rfl)), by simp [WorkerPc.distance]⟩
  · cases hs
    exact .inr ⟨.inr (.inr (.inr ⟨rfl, update_self ..⟩)), by simp [WorkerPc.distance]⟩
  · cases hs
    exact .inl ⟨hz, update_self ..⟩

lemma carried_leadsTo_released (h : Undisturbed r) : r.LeadsTo (Carried q x)
    (fun s => s.zeroed x = noOfBytes (q x) ∧ s.released x = true) := by
  refine Run.leadsTo_of_rank (fun s => s.worker.distance) fun n => ?_
  refine Run.leadsTo_of_fair (h.fair.fair .worker) ?_ ⟨?_, ?_⟩
  · rintro t ⟨hc, -⟩
    exact enabled_worker h.maps hc.running.1 fun ha => absurd ha hc.running.2
  · rintro t b - hb ⟨hc, hn⟩ hs
    cases b with
    | worker => exact absurd rfl hb
    | caller e =>
      obtain ⟨hc', hw⟩ := carried_of_caller hs hc
      exact .inl ⟨hc', hw ▸ hn⟩
  · rintro t - ⟨hc, hn⟩ hs
    exact hn ▸ carried_of_worker hs hc

/-- If the worker clears the event only while the list is empty or a call still owes a signal, it never waits in
    vain, and in a fair run every range in the list whose size fits a `DWORD` is zeroed and released. It is
    exactly the other clears that make the worker wait in vain. -/
theorem ranges_zeroed (maps : Nat → Nat → Bool) (q : E → ZeroWorkerItem) :
    (∀ s, Reach Initial (Step maps q) Timely s → ¬ Stuck s ∧
      ∀ s', s.worker = .clear → Step maps q s .worker s' → (Stuck s' ↔ ¬ Timely s .worker)) ∧
    ∀ r : Run (Step maps q), Initial (r.state 0) → r.StrongFair →
      (∀ t a, r.action t = some a → Timely (r.state t) a) →
      (∀ e, maps (q e).physicalAddress (noOfBytes (q e)) = true) →
      ∀ t e, (q e).numberOfFrames * pageSize < 2 ^ 32 → e ∈ (r.state t).pagesToZeroList →
        ∃ t' ≥ t, (r.state t').zeroed e = (q e).numberOfFrames * pageSize ∧
          (r.state t').released e = true := by
  refine ⟨fun s hs => ⟨(kept_reach hs).not_stuck, fun s' hpc hstep => stuck_clear_iff hpc hstep⟩, ?_⟩
  intro r h0 hfair htimely hmaps t e hsize hmem
  have h : Undisturbed r := ⟨h0, hfair, htimely, hmaps⟩
  have hbytes : noOfBytes (q e) = (q e).numberOfFrames * pageSize := Nat.mod_eq_of_lt hsize
  rw [← hbytes]
  have htaken : r.LeadsTo (fun s => e ∈ s.pagesToZeroList) (Carried q e) := by
    intro t hx
    obtain ⟨u, hu, hw⟩ := queued_leadsTo_taken h t hx
    exact ⟨u, hu, .inl hw⟩
  exact htaken.trans (carried_leadsTo_released h) t hmem

end Runs

section Samples

def noCalls (E : Type) : ZeroThreadData E where
  newPagesEvent := false
  pagesLock := none
  pagesToZeroList := []
  caller _ := .start
  worker := .wait
  zeroed _ := 0
  released _ := false

lemma initial_noCalls : Initial (noCalls E) := ⟨rfl, rfl, rfl, fun _ => rfl, rfl⟩

def oneFrame (_ : E) : ZeroWorkerItem := ⟨0x200000, 1⟩

def zeroRun (e : E) : List (Actor E) := .worker :: List.replicate 5 (.caller e) ++ List.replicate 11 .worker

def lateRun (e x : E) : List (Actor E) := zeroRun e ++ List.replicate 5 (.caller x) ++ [.worker, .worker]

/-- Two calls that overlap. -/
def pairRun : List (Actor Bool) :=
  [.worker, .caller false, .caller true, .caller false, .caller false, .caller false, .caller true, .caller true,
    .caller false, .caller true, .worker, .worker, .caller true] ++ List.replicate 19 .worker

def ClearsEmpty (s : ZeroThreadData E) (_ : Actor E) : Prop := s.worker = .clear → s.pagesToZeroList = []

variable [DecidableEq E] {maps : Nat → Nat → Bool} {q : E → ZeroWorkerItem}

instance (s : ZeroThreadData E) (a : Actor E) : Decidable (ClearsEmpty s a) :=
  inferInstanceAs (Decidable (s.worker = .clear → s.pagesToZeroList = []))

lemma disabled_of_blocked (hw : s.worker = .blocked) (hc : ∀ e, s.caller e = .done) (a : Actor E) :
    ¬ Enabled (Step maps q) s a := by
  rintro ⟨s', hs⟩
  cases a with
  | caller e =>
    simp only [Step, ZeroThreadData.next, ZeroThreadData.mmuReleaseMemory, hc] at hs
    cases hs
  | worker =>
    simp only [Step, ZeroThreadData.next, ZeroThreadData.mmuZeroWorker, hw] at hs
    cases hs

/-- The worker clears the signal of a call whose range it has not seen, and waits for ever. -/
theorem range_left_behind :
    ∃ r : Run (Step (fun _ _ => true) (oneFrame (E := Bool))), Initial (r.state 0) ∧ r.StrongFair ∧
      ∀ t ≥ 24, Stuck (r.state t) ∧ true ∈ (r.state t).pagesToZeroList ∧
        (r.state t).released true = false := by
  obtain ⟨last, hlast, hw, hc, hev, hl, hrel⟩ : ∃ last, (lateRun false true).foldlM
      (fun s a => do ensure True; s.next (fun _ _ => true) oneFrame a) (noCalls Bool) = .ok last ∧
        last.worker = .blocked ∧ (∀ e, last.caller e = .done) ∧ last.newPagesEvent = false ∧
        last.pagesToZeroList = [true] ∧ last.released true = false := exists_ok (by decide)
  obtain ⟨r, hstate, -, hend⟩ := Run.exists_of_foldlM hlast none (by simp)
  have h0 : noCalls Bool = r.state 0 := Except.ok.inj (hstate 0)
  refine ⟨r, h0 ▸ initial_noCalls, Run.strongFair_of_end hend fun a => .inr (disabled_of_blocked hw hc a), ?_⟩
  intro t ht
  rw [(hend t ht).1]
  refine ⟨⟨by simp [hl], fun e => by simp [Owes, hc], .inr hw, hev⟩, by simp [hl], hrel⟩

/-- The ranges of two calls that overlap are zeroed. -/
theorem ranges_zeroed_pair : ∃ r : Run (Step (fun _ _ => true) (oneFrame (E := Bool))), ¬ Stuck (r.state 8) ∧
      (r.state 8).pagesToZeroList = [false, true] ∧
      ∀ e, ∃ t ≥ 8, (r.state t).zeroed e = 1 * pageSize ∧ (r.state t).released e = true := by
  obtain ⟨last, hlast, hw, hc⟩ : ∃ last, pairRun.foldlM
      (fun s a => do ensure (ClearsEmpty s a); s.next (fun _ _ => true) oneFrame a) (noCalls Bool) = .ok last ∧
        last.worker = .blocked ∧ ∀ e, last.caller e = .done := exists_ok (by decide)
  obtain ⟨s8, hs8, hlist⟩ : ∃ s8, (pairRun.take 8).foldlM
      (fun s a => do ensure (ClearsEmpty s a); s.next (fun _ _ => true) oneFrame a) (noCalls Bool) = .ok s8 ∧
        s8.pagesToZeroList = [false, true] := exists_ok (by decide)
  obtain ⟨r, hstate, hok, hend⟩ := Run.exists_of_foldlM hlast none (by simp)
  obtain rfl : s8 = r.state 8 := Except.ok.inj (hs8.symm.trans (hstate 8))
  have h0 : noCalls Bool = r.state 0 := Except.ok.inj (hstate 0)
  have hinit : Initial (r.state 0) := h0 ▸ initial_noCalls
  have htimely : ∀ t a, r.action t = some a → Timely (r.state t) a := by
    intro t a ha
    cases a with
    | caller e => trivial
    | worker => exact fun hpc => .inl (hok t .worker ha hpc)
  obtain ⟨hsafe, hprogress⟩ := ranges_zeroed (fun _ _ => true) (oneFrame (E := Bool))
  refine ⟨r, (hsafe _ (Run.reach hinit htimely 8)).1, hlist, fun e => ?_⟩
  refine hprogress r hinit ?_ htimely (fun _ => rfl) 8 e (by decide +revert) (by simp [hlist])
  exact Run.strongFair_of_end hend fun a => .inr (disabled_of_blocked hw hc a)

end Samples

end HAL9000.ZeroWorker
