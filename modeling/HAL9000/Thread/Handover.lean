import HAL9000.Lib.Locks
import HAL9000.Thread.Queues

/-!
# Threads: a mutex is handed over in order

If a thread acquires a mutex only while it holds no other one, then a thread that waits holds nothing,
so that no donation is passed on and all waiting lists are rings. The mutexes are then locks that are
handed over: the holder, the recursion depth and the waiting lists of the code change as those of
`Lib.Locks` do, whose log counts the calls of `MutexAcquire` and `MutexRelease`.
-/

namespace HAL9000.Thread
open Lib LinkMem Function

variable {T X E : Type}

def Action.Single (s : System T X E) : Action T X → Prop
  | .acquire t x => ∀ y, s.holder y = some t → y = x
  | _ => True

instance [DecidableEq T] [DecidableEq X] [Fintype X] (s : System T X E) (a : Action T X) : Decidable (a.Single s) :=
  match a with
  | .acquire t x => inferInstanceAs (Decidable (∀ y, s.holder y = some t → y = x))
  | .release .. | .schedule | .resume _ | .yield _ | .setPriority .. => .isTrue trivial

/-- Threads hold one mutex at most, and none while they wait. -/
structure Flat (s : System T X E) : Prop where
  single : ∀ {t x y}, s.holder x = some t → s.holder y = some t → x = y
  outside : ∀ {t x y}, s.Waits t x → s.holder y ≠ some t

/-- The threads and mutexes, with a log of the calls so far. -/
structure Logged (T X E : Type) where
  system : System T X E
  log : LockLog T X

/-- A thread is inside a mutex from where it is given the mutex in `MutexAcquire` to its last
    `MutexRelease`. -/
def Logged.Inside (r : Logged T X E) (t : T) (x : X) : Prop :=
  r.log.releases t x < r.log.acquires t x ∧ ¬ r.system.Waits t x

def Logged.locks (r : Logged T X E) (lists : Head T X E → List T) : Locks T X where
  holder := r.system.holder
  depth := r.system.currentRecursivityDepth
  queue := fun x => lists (.wait x)
  log := r.log

def Logged.Unused (r : Logged T X E) : Prop := (∃ lists, Initial r.system lists) ∧ r.log = .empty

variable [DecidableEq T] [DecidableEq X] [DecidableEq E]

def System.record (s : System T X E) (log : LockLog T X) (s' : System T X E) : Action T X → LockLog T X
  | .acquire t x => if s'.Waits t x then (log.acquire t x).start t x else log.acquire t x
  | .release t x =>
    if s.currentRecursivityDepth x > 1 then log.release t x
    else (log.release t x).vacate (s'.holder x) x
  | _ => log

def Logged.next (fuel : Nat) (r : Logged T X E) (a : Action T X) : Exec (Logged T X E) := do
  let s' ← r.system.next fuel a
  pure ⟨s', r.system.record r.log s' a⟩

def LoggedStep (r : Logged T X E) (a : Action T X) (r' : Logged T X E) : Prop := ∃ fuel, r.next fuel a = .ok r'

variable {lists lists' : Head T X E → List T} {s s' : System T X E} {r r' : Logged T X E}
  {a : Action T X} {t : T} {x : X}

section Flat

attribute [local grind =] update_apply

lemma Flat.unnested (hf : Flat s) (hs : Sound (fun _ => True) lists s) (a : Action T X) : a.Unnested s := by
  cases a with
  | acquire t x =>
    intro u hu _ y v hy hv hne
    have hw : s.Waits u y := hs.waits hy (by simpa [hv] using hne)
    exact absurd hu (hf.outside hw)
  | _ => trivial

lemma Flat.change (hf : Flat s) (hs : Sound (fun _ => True) lists s) (hn : a.Single s)
    (hc : Change lists s a lists' s') : Flat s' := by
  obtain ⟨hsingle, hout⟩ := hf
  cases hc with
  | @grant t x ht hx =>
    have hwaits : ∀ {v y}, (s.grant t x).Waits v y ↔ s.Waits v y := hs.waits_grant hx
    have hfree := ht.not_waits
    have hn : ∀ y, s.holder y = some t → y = x := hn
    constructor
    · simp only [System.grant]
      grind -linarith
    · intro v y z hw
      rw [hwaits] at hw
      simp only [System.grant]
      grind -linarith
  | @block t x u l p ht hx hne hl =>
    refine ⟨hsingle, fun {v y z} hw => ?_⟩
    have hn : ∀ y, s.holder y = some t → y = x := hn
    rcases (ht.waits_block hx hne).mp hw with hw | ⟨rfl, rfl⟩
    · exact hout hw
    · intro hz
      cases hn z hz
      exact hw.2 hz
  | @free t x l ht hx hd hw hl =>
    have hwaits : ∀ {v y}, System.Waits
        { s.fallBack l t with holder := update s.holder x none } v y ↔ s.Waits v y :=
      hs.waits_free ht hx hw
    constructor
    · grind -linarith
    · intro v y z hv
      rw [hwaits] at hv
      grind -linarith
  | @wake t x u us l ht hx hd hw hl =>
    have hu : s.Waits u x := hs.mem_wait.mp (by simp [hw])
    have hwaits : ∀ {v y}, ((s.fallBack l t).wake l u x).Waits v y ↔ s.Waits v y ∧ v ≠ u :=
      ht.waits_wake hx hu.1
    constructor
    · simp only [System.wake, System.grant, System.fallBack]
      grind -linarith
    · intro v y z hv
      rw [hwaits] at hv
      simp only [System.wake, System.grant, System.fallBack]
      grind -linarith
  | resume ht ha hx => exact ⟨hsingle, fun hw => hout ((waits_return ha hx).mp hw)⟩
  | _ => exact ⟨hsingle, hout⟩

end Flat

lemma wait_update (lists : Head T X E → List T) (x : X) (ts : List T) :
    (fun y => update lists (.wait x) ts (.wait y)) =
      update (fun y => lists (.wait y)) x ts := by
  funext y
  by_cases e : y = x
  · subst e
    simp
  · simp [e]

lemma ready_update (lists : Head T X E → List T) (ts : List T) :
    (fun y => update lists .ready ts (.wait y)) = fun y => lists (.wait y) := by
  simp

lemma Change.locks (hs : Sound (fun _ => True) lists s) (hc : Change lists s a lists' s') (log : LockLog T X) :
    Locks.Step (Logged.locks ⟨s, log⟩ lists) (Logged.locks ⟨s', s.record log s' a⟩ lists') := by
  cases hc with
  | @deeper t x ht hx =>
    have hw : ¬ System.Waits { s with
        lockWaitedOn := update s.lockWaitedOn t none
        currentRecursivityDepth :=
          update s.currentRecursivityDepth x (s.currentRecursivityDepth x + 1) } t x :=
      fun hw => hw.2 hx
    rw [System.record, if_neg hw]
    exact Locks.Step.deepen (l := Logged.locks ⟨s, log⟩ lists) hx
  | @grant t x ht hx =>
    have hw : ¬ (s.grant t x).Waits t x := fun hw => hw.2 (update_self ..)
    rw [System.record, if_neg hw]
    exact Locks.Step.take (l := Logged.locks ⟨s, log⟩ lists) hx
  | @block t x u l p ht hx hne hl =>
    have hw : (System.block { s.waitOn t x with links := l, priority := p } t x).Waits t x :=
      (ht.waits_block hx hne).mpr (.inr ⟨rfl, rfl⟩)
    rw [System.record, if_pos hw]
    simp only [Logged.locks, wait_update]
    exact Locks.Step.wait (l := Logged.locks ⟨s, log⟩ lists) (by simp [Logged.locks, hx])
      (by simp [Logged.locks, hx, hne]) (hs.not_mem ht.1 _)
  | @shallower t x ht hx hd =>
    rw [System.record, if_pos hd]
    exact Locks.Step.lessen (l := Logged.locks ⟨s, log⟩ lists) hx hd
  | @free t x l ht hx hd hw hl =>
    have hu : System.holder
        { s.fallBack l t with holder := update s.holder x none } x = none :=
      update_self ..
    rw [System.record, if_neg (Nat.not_lt.mpr hd), hu]
    exact Locks.Step.free (l := Logged.locks ⟨s, log⟩ lists) hx hd hw
  | @wake t x u us l ht hx hd hw hl =>
    have hu : ((s.fallBack l t).wake l u x).holder x = some u := update_self ..
    rw [System.record, if_neg (Nat.not_lt.mpr hd), hu]
    simp only [Logged.locks, ready_update, wait_update]
    exact Locks.Step.pass (l := Logged.locks ⟨s, log⟩ lists) hx hd hw
  | yield ht | schedule hr hl =>
    simp only [Logged.locks, ready_update]
    exact Locks.Step.stay
  | _ => exact Locks.Step.stay

/-- The lists are rings, threads hold one mutex at most, and the log agrees with the mutexes. -/
structure Agrees (lists : Head T X E → List T) (r : Logged T X E) : Prop where
  sound : Sound (fun _ => True) lists r.system
  flat : Flat r.system
  kept : (r.locks lists).Kept

lemma Logged.Unused.agrees (h : r.Unused) : ∃ lists, Agrees lists r := by
  obtain ⟨⟨lists, hi⟩, hlog⟩ := h
  refine ⟨lists, hi.sound, ⟨?_, ?_⟩, ?_⟩
  · intro t x y hx
    rw [hi.holder] at hx
    cases hx
  · intro t x y hw
    simp [hi.holder]
  · constructor <;> simp [Logged.locks, hlog, LockLog.empty, hi.holder, hi.wait]

lemma Agrees.step (h : Agrees lists r) (hn : a.Single r.system) (hst : LoggedStep r a r') :
    ∃ lists', Agrees lists' r' ∧ Locks.Step (r.locks lists) (r'.locks lists') := by
  obtain ⟨fuel, hst⟩ := hst
  obtain ⟨s', hs', hst⟩ := bind_ok.mp hst
  cases hst
  obtain ⟨lists', hc⟩ := h.sound.change_of_next (h.flat.unnested h.sound a) hs'
  have hl := hc.locks h.sound r.log
  exact ⟨lists', ⟨h.sound.change hc, h.flat.change h.sound hn hc, h.kept.step hl⟩, hl⟩

lemma agrees_reach (hr : Reach Logged.Unused LoggedStep (fun r a => Action.Single r.system a) r) :
    ∃ lists, Agrees lists r := by
  refine hr.invariant (I := fun r => ∃ lists, Agrees lists r) (fun r hi => hi.agrees) ?_
  rintro r a r' ⟨lists, h⟩ hn hst
  obtain ⟨lists', h', _⟩ := h.step hn hst
  exact ⟨lists', h'⟩

lemma Agrees.since {r₀ : Logged T X E} {k : Nat} (h0 : Agrees lists r₀) (hk : k < (lists (.wait x)).length)
    (hr : Reach (· = r₀) LoggedStep (fun r a => Action.Single r.system a) r) :
    ∃ lists', Agrees lists' r ∧ Locks.Since (r₀.locks lists) x k (r.locks lists') := by
  refine hr.invariant
    (I := fun r => ∃ lists', Agrees lists' r ∧ Locks.Since (r₀.locks lists) x k (r.locks lists'))
    ?_ ?_
  · rintro r rfl
    exact ⟨lists, h0, Locks.Since.refl ..⟩
  · rintro r a r' ⟨lists', h, hsince⟩ hn hst
    obtain ⟨lists'', h', hl⟩ := h.step hn hst
    exact ⟨lists'', h', hsince.step h0.kept h.kept hk hl⟩

lemma Sound.threadUpdatePriorityAfterLockRelease_returns (hs : Sound (fun _ => True) lists s) (t : T)
    (x : X) : ∃ s', threadUpdatePriorityAfterLockRelease 1 s t x = .ok s' := by
  obtain ⟨h2, _⟩ := hs.linked.removeHead_nil trivial (hs.donations t)
  have hf : s.links.flink (.head (.donations t)) = .head (.donations t) := h2
  simp only [threadUpdatePriorityAfterLockRelease, dropDonations, hf, if_true, pure_okay, bind_okay,
    threadUpdatePriority, h2]
  exact ⟨_, rfl⟩

lemma Sound.mutexPass_returns (hs : Sound (fun _ => True) lists s) {l : Links (Link T X E)}
    (hl : Linked l (fun _ => True) lists) (t : T) (x : X) :
    ∃ s', mutexPass (s.fallBack l t) x = .ok s' := by
  have hlinks : (s.fallBack l t).links = l := rfl
  unfold mutexPass
  cases hw : lists (.wait x) with
  | nil =>
    obtain ⟨h2, _⟩ := hl.removeHead_nil trivial hw
    simp only [hlinks, h2, if_true]
    exact ⟨_, rfl⟩
  | cons u us =>
    obtain ⟨h2, _⟩ := hl.removeHead trivial hw
    have hu : s.state u = .blocked := hs.blocked (hs.mem_wait.mp (hw ▸ List.mem_cons_self))
    have hst : (s.fallBack l t).state u = .blocked := hu
    simp only [hlinks, h2, reduceCtorEq, if_false, containingRecord, pure_okay, bind_okay,
      threadUnblock, ensure_pos hst]
    exact ⟨_, rfl⟩

lemma Agrees.release (h : Agrees lists r) (ht : r.system.Free t) (hx : r.system.holder x = some t) :
    ∃ r', LoggedStep r (.release t x) r' := by
  suffices hret : ∃ s', mutexRelease 1 r.system t x = .ok s' by
    obtain ⟨s', hs'⟩ := hret
    refine ⟨_, 1, bind_ok.mpr ⟨s', ?_, rfl⟩⟩
    rw [System.next, if_pos ht, hs']
  obtain ⟨s1, h1⟩ := h.sound.threadUpdatePriorityAfterLockRelease_returns t x
  obtain ⟨l, hl, rfl⟩ :=
    threadUpdatePriorityAfterLockRelease_cases h.sound.linked trivial (h.sound.donations t) h1
  obtain ⟨s', h2⟩ := h.sound.mutexPass_returns hl t x
  rw [mutexRelease, ensure_pos hx, bind_okay]
  split
  · exact ⟨_, rfl⟩
  · exact ⟨s', bind_ok.mpr ⟨_, h1, h2⟩⟩

/-- The mutexes are handed over in order: `queue` are the threads in the waiting lists. -/
structure InOrder (r : Logged T X E) (queue : X → List T) : Prop where
  /-- The waiting lists are rings. -/
  ring : ∀ x, Ring r.system.links (.head (.wait x)) (entries (queue x))
  waits : ∀ {t x}, t ∈ queue x ↔ r.system.Waits t x
  /-- The one thread inside a mutex is its holder. -/
  inside : ∀ {t x}, r.Inside t x ↔ r.system.holder x = some t
  depth : ∀ {t x}, r.system.holder x = some t →
    r.system.currentRecursivityDepth x = r.log.acquires t x - r.log.releases t x
  free : ∀ {x}, r.system.holder x = none → queue x = []
  /-- Those who started to wait first have received the mutex first, the others still wait. -/
  order : ∀ x, r.log.started x = r.log.received x ++ queue x
  /-- A thread with `k` others in front of it receives the mutex when it is let go of for the
      `k + 1`-st time. -/
  obtains : ∀ {x k t}, (queue x)[k]? = some t → ∀ r',
    Reach (· = r) LoggedStep (fun r a => Action.Single r.system a) r' →
      r.log.vacated x + k < r'.log.vacated x →
      (r'.log.received x)[(r.log.received x).length + k]? = some t
  /-- The holder does not wait, and can let go of the mutex. -/
  progress : ∀ {t x}, r.system.holder x = some t →
    (∀ y, ¬ r.system.Waits t y) ∧ (r.system.Free t → ∃ r', LoggedStep r (.release t x) r')

/-- As long as every thread holds one mutex at a time, mutexes are handed over in order. -/
theorem mutex_in_order
    (hr : Reach Logged.Unused LoggedStep (fun r a => Action.Single r.system a) r) :
    ∃ queue, InOrder r queue := by
  obtain ⟨lists, h⟩ := agrees_reach hr
  refine ⟨fun x => lists (.wait x), ?_⟩
  have hq : ∀ {t x}, t ∈ lists (.wait x) ↔ r.system.Waits t x := h.sound.mem_wait
  constructor
  case ring => exact fun x => h.sound.linked.ring trivial
  case waits => exact hq
  case inside =>
    intro t x
    rw [Logged.Inside, ← hq]
    constructor
    · intro ⟨hlt, hw⟩
      by_contra hx
      exact absurd (h.kept.outside hx hw) (Nat.ne_of_gt hlt)
    · intro hx
      have hheld := h.kept.held hx
      have hpos := h.kept.pos hx
      exact ⟨by simp only [Logged.locks] at hheld hpos; omega, h.kept.not_mem hx⟩
  case depth =>
    intro t x hx
    have hheld := h.kept.held hx
    simp only [Logged.locks] at hheld
    omega
  case free => exact fun hx => h.kept.free hx
  case order => exact fun x => h.kept.order x
  case obtains =>
    intro x k t hk r' hr' hv
    have hlt : k < (lists (.wait x)).length := (List.getElem?_eq_some_iff.mp hk).1
    obtain ⟨lists', h', hsince⟩ := h.since hlt hr'
    exact hsince.received h.kept h'.kept hk hv
  case progress => exact fun hx => ⟨fun y hw => h.flat.outside hw hx, fun ht => h.release ht hx⟩

/-- Two threads wait for a third one. The first of them is given the mutex, and is back in the queue
    when the second one has it. -/
def turnsRun (t u v : T) : List (Action T Bool) :=
  [.acquire t false, .acquire u false, .acquire v false, .release t false, .schedule, .resume u,
    .release u false, .acquire u false]

def runLogged (priority : T → Nat) [Fintype X] (as : List (Action T X)) : Exec (Logged T X E) :=
  as.foldlM (fun r a => do ensure (a.Single r.system); r.next 8 a) ⟨unused priority, .empty⟩

theorem mutex_in_order_turns : ∃ r : Logged (Fin 3) Bool Empty,
      Reach Logged.Unused LoggedStep (fun r a => Action.Single r.system a) r ∧
        r.system.holder false = some 2 ∧ r.log.started false = [1, 2, 1] ∧
        r.log.received false = [1, 2] ∧ ∃ queue, InOrder r queue := by
  obtain ⟨r, hreach, hh, hst, hrec⟩ : ∃ r : Logged (Fin 3) Bool Empty,
      Reach Logged.Unused LoggedStep (fun r a => Action.Single r.system a) r ∧ r.system.holder false = some 2 ∧
        r.log.started false = [1, 2, 1] ∧ r.log.received false = [1, 2] :=
    exists_reach_of (fun _ _ _ hn => ⟨8, hn⟩) ⟨⟨_, initial_unused _⟩, rfl⟩ (turnsRun 0 1 2)
      (show returns (runLogged (·.val) (turnsRun 0 1 2)) _ = true by decide)
  exact ⟨r, hreach, hh, hst, hrec, mutex_in_order hreach⟩

end HAL9000.Thread
