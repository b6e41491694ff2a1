import Mathlib.Data.Fintype.Basic
import HAL9000.Thread.Ownership

/-!
# Threads: one list at a time

As long as no donation is passed on to a second thread, every thread is in at most one list, all lists
are rings and the threads that wait for a mutex are in its waiting list. A thread that passes a
donation on is blocked itself: its entry goes from the waiting list to a list of donations without
having been unlinked.
-/

namespace HAL9000.Thread
open Lib LinkMem Function

variable {T X E : Type}

/-- Every list is a ring, no thread is in two lists, and a thread that waits for a mutex is in its
    waiting list. -/
def WellQueued (s : System T X E) : Prop := ∃ lists : Head T X E → List T,
    (∀ h, Ring s.links (.head h) (entries (lists h))) ∧
    (∀ t h h', t ∈ lists h → t ∈ lists h' → h = h') ∧
    ∀ t x, s.Waits t x → t ∈ lists (.wait x)

/-- No mutex has been used yet; threads are running, ready, or wait for events. -/
structure Initial (s : System T X E) (lists : Head T X E → List T) : Prop where
  ring : ∀ h, Ring s.links (.head h) (entries (lists h))
  single : ∀ {t h h'}, t ∈ lists h → t ∈ lists h' → h = h'
  wait : ∀ x, lists (.wait x) = []
  donations : ∀ t, lists (.donations t) = []
  ready : ∀ {t}, t ∈ lists .ready → s.state t = .ready
  event : ∀ {t e}, t ∈ lists (.event e) → s.state t = .blocked
  acquiring : ∀ t, s.acquiring t = none
  lockWaitedOn : ∀ t, s.lockWaitedOn t = none
  holder : ∀ x, s.holder x = none

/-- A thread that has to wait does not donate to a holder that would pass the donation on: a holder
    that waits itself, for a mutex whose holder has a lower priority. -/
def Action.Unnested (s : System T X E) : Action T X → Prop
  | .acquire t x => ∀ u, s.holder x = some u → s.priority u < s.priority t →
    ∀ y v, s.lockWaitedOn u = some y → s.holder y = some v → v ≠ u → s.priority t ≤ s.priority v
  | _ => True

instance [DecidableEq T] [DecidableEq X] [Fintype T] [Fintype X] (s : System T X E)
    (a : Action T X) : Decidable (a.Unnested s) := by
  cases a <;> unfold Action.Unnested <;> infer_instance

lemma WellQueued.flink_waiter {s : System T X E} {t : T} {x : X} (hs : WellQueued s)
    (ht : s.Waits t x) (h : Head T X E) (hh : h ≠ .wait x) : s.links.flink (.thread t) ≠ .head h := by
  obtain ⟨lists, hring, _, hwait⟩ := hs
  obtain ⟨ys, zs, e⟩ := List.append_of_mem (hwait t x ht)
  have hr := hring (.wait x)
  rw [e] at hr
  have hj := (Ring.joined (y := entries (ys ++ [t])) (z := entries zs) (by simpa [entries] using hr)).1
  have hl : (entries (ys ++ [t])).getLastD (.head (.wait x)) = (.thread t : Link T X E) := by
    simp [entries]
  rw [hl] at hj
  rw [hj]
  intro e'
  have hm := headD_mem (Link.head (.wait x)) (entries zs : List (Link T X E))
  rw [e', List.mem_append] at hm
  rcases hm with hm | hm
  · obtain ⟨_, _, hm⟩ := mem_entries.mp hm
    cases hm
  · rw [List.mem_singleton] at hm
    cases hm
    exact hh rfl

variable [DecidableEq T] [DecidableEq X] [DecidableEq E] {ok : Head T X E → Prop}
  {lists : Head T X E → List T} {s s' : System T X E} {t u : T} {x : X} {a : Action T X} {fuel : Nat}

lemma Initial.sound (hi : Initial s lists) : Sound (fun _ => True) lists s where
  linked :=
    { ring := fun _ => hi.ring _
      last := fun h => (Ring.joined (y := entries (lists h)) (z := []) (by simpa using hi.ring h)).2
      single := hi.single }
  shared := fun _ _ => trivial
  donations := hi.donations
  ready := hi.ready
  event := hi.event
  mem_wait := by
    intro t x
    simp [hi.wait, System.Waits, hi.acquiring]
  blocked := fun hw => absurd hw.1 (by simp [hi.acquiring])
  held := fun hw => absurd hw.1 (by simp [hi.acquiring])
  lockWaitedOn := fun ha => absurd ha (by simp [hi.acquiring])
  waited := fun ha => absurd ha (by simp [hi.lockWaitedOn])

lemma Sound.wellQueued (hs : Sound (fun _ => True) lists s) : WellQueued s :=
  ⟨lists, fun _ => hs.linked.ring trivial, fun _ _ _ => hs.linked.single, fun _ _ hw => hs.mem_wait.mpr hw⟩

lemma Linked.donate_once (hl : Linked s.links ok lists)
    (hd : ∀ r, ok (.donations r) ∧ lists (.donations r) = []) (ht : ∀ h, t ∉ lists h)
    (hn : ∀ y v, s.lockWaitedOn u = some y → s.holder y = some v → v ≠ u → s.priority t ≤ s.priority v)
    (h : threadDonatePriority fuel s t u = .ok s') :
    ∃ l p, Linked l ok lists ∧ s' = { s with links := l, priority := p } := by
  cases fuel with
  | zero => cases h
  | succ fuel =>
    have hr := hl.ring (hd u).1
    rw [(hd u).2] at hr
    obtain ⟨l, p, hsame, rfl, h⟩ := threadDonatePriority_cases hr h
    rcases h with ⟨rfl, _⟩ | ⟨y, v, hy, hv, hlt', _⟩
    · exact ⟨l, _, (hl.off hsame).mono fun h hok => ⟨hok, ht h⟩, rfl⟩
    · exfalso
      by_cases e : v = u
      · rw [e, update_self] at hlt'
        exact absurd hlt' (lt_irrefl _)
      · rw [update_of_ne e] at hlt'
        exact absurd (hn y v hy hv e) (Nat.not_le.mpr hlt')

/-- What a step does while all lists are rings and no donation is passed on: the state after it, and
    the lists after it. -/
inductive Change (lists : Head T X E → List T) (s : System T X E) :
    Action T X → (Head T X E → List T) → System T X E → Prop where
  | deeper {t : T} {x : X} : s.Free t → s.holder x = some t →
    Change lists s (.acquire t x) lists { s with
      lockWaitedOn := update s.lockWaitedOn t none
      currentRecursivityDepth :=
        update s.currentRecursivityDepth x (s.currentRecursivityDepth x + 1) }
  | grant {t : T} {x : X} : s.Free t → s.holder x = none → Change lists s (.acquire t x) lists (s.grant t x)
  | block {t : T} {x : X} {u : T} {l : Links (Link T X E)} {p : T → Nat} : s.Free t → s.holder x = some u →
    u ≠ t → Linked l (fun _ => True) lists →
    Change lists s (.acquire t x) (update lists (.wait x) (lists (.wait x) ++ [t]))
      (System.block { s.waitOn t x with links := l, priority := p } t x)
  | shallower {t : T} {x : X} : s.Free t → s.holder x = some t → 1 < s.currentRecursivityDepth x →
    Change lists s (.release t x) lists { s with
      currentRecursivityDepth :=
        update s.currentRecursivityDepth x (s.currentRecursivityDepth x - 1) }
  | free {t : T} {x : X} {l : Links (Link T X E)} : s.Free t → s.holder x = some t →
    s.currentRecursivityDepth x ≤ 1 → lists (.wait x) = [] → Linked l (fun _ => True) lists →
    Change lists s (.release t x) lists
      { s.fallBack l t with holder := update s.holder x none }
  | wake {t : T} {x : X} {u : T} {us : List T} {l : Links (Link T X E)} : s.Free t → s.holder x = some t →
    s.currentRecursivityDepth x ≤ 1 → lists (.wait x) = u :: us → Linked l (fun _ => True)
      (update (update lists (.wait x) us) .ready (lists .ready ++ [u])) → Change lists s (.release t x)
      (update (update lists (.wait x) us) .ready (lists .ready ++ [u]))
      ((s.fallBack l t).wake l u x)
  | priority {t : T} {n : Nat} {p : T → Nat} : Change lists s (.setPriority t n) lists { s with priority := p }
  | yield {t : T} : s.state t = .running →
    Change lists s (.yield t) (update lists .ready (lists .ready ++ [t])) (threadYield s t)
  | resume {t : T} {x : X} : s.state t = .running → s.acquiring t = some x → s.holder x = some t →
    Change lists s (.resume t) lists { s with acquiring := update s.acquiring t none }
  | schedule {t : T} {ts : List T} {l : Links (Link T X E)} : lists .ready = t :: ts →
    Linked l (fun _ => True) (update lists .ready ts) → Change lists s .schedule (update lists .ready ts)
      { s with links := l, state := update s.state t .running }

lemma Sound.change_of_next (hs : Sound (fun _ => True) lists s) (hn : a.Unnested s)
    (h : s.next fuel a = .ok s') : ∃ lists', Change lists s a lists' s' := by
  cases a with simp only [System.next] at h
  | acquire t x =>
    split at h
    · next ht =>
      rcases mutexAcquire_cases ht h with ⟨hx, rfl⟩ | ⟨hx, rfl⟩ | ⟨u, hx, hne, h⟩
      · exact ⟨_, .deeper ht hx⟩
      · exact ⟨_, .grant ht hx⟩
      · obtain ⟨s1, rfl, ⟨_, rfl⟩ | ⟨hlt, h1⟩⟩ := mutexAcquireLoop_cases hx hne h
        · exact ⟨_, .block ht hx hne hs.linked⟩
        · have hn' : ∀ y v, (s.waitOn t x).lockWaitedOn u = some y → s.holder y = some v → v ≠ u →
              s.priority t ≤ s.priority v := by
            intro y v hy
            simp only [System.waitOn, update_of_ne hne] at hy
            exact hn u hx hlt y v hy
          obtain ⟨l, p, hl, rfl⟩ := Linked.donate_once (s := s.waitOn t x) hs.linked
            (fun r => ⟨trivial, hs.donations r⟩) (hs.not_mem ht.1) hn' h1
          exact ⟨_, .block ht hx hne hl⟩
    · cases h
  | release t x =>
    split at h
    · next ht =>
      obtain ⟨hx, h⟩ := mutexRelease_cases hs (fun _ => trivial) h
      rcases h with ⟨hd, rfl⟩ | ⟨hd, ⟨hw, l, hl, rfl⟩ | ⟨u, us, l, hw, hl, rfl⟩⟩
      · exact ⟨_, .shallower ht hx hd⟩
      · exact ⟨_, .free ht hx hd hw hl⟩
      · exact ⟨_, .wake ht hx hd hw hl⟩
    · cases h
  | setPriority t p =>
    simp only [threadSetPriority] at h
    split at h
    · obtain ⟨_, _, h⟩ := bind_ok.mp h
      split at h
      · cases h
        exact ⟨_, .priority⟩
      · cases h
        exact ⟨_, .priority⟩
    · cases h
  | yield t =>
    split at h
    · next ht =>
      cases h
      exact ⟨_, .yield ht⟩
    · cases h
  | resume t =>
    cases ha : s.acquiring t with simp only [ha] at h
    | none => cases h
    | some x =>
      split at h
      · next ht =>
        obtain ⟨hx, rfl, _⟩ := hs.resume ht ha h
        exact ⟨_, .resume ht ha hx⟩
      · cases h
  | schedule =>
    obtain ⟨t, ts, l, hr, hl, _, rfl⟩ := threadSchedule_cases hs h
    exact ⟨_, .schedule hr hl⟩

lemma Sound.change {lists' : Head T X E → List T} (hs : Sound (fun _ => True) lists s)
    (hc : Change lists s a lists' s') : Sound (fun _ => True) lists' s' := by
  cases hc with
  | deeper ht hx => exact hs.deeper ht _
  | grant ht hx => exact hs.grant_free hx
  | block ht hx hne hl => exact hs.block ht hx hne hl hs.shared
  | shallower ht hx hd | priority => exact { hs with }
  | free ht hx hd hw hl => exact hs.free ht hx hw hl
  | wake ht hx hd hw hl => exact hs.wake ht hx trivial hw hl
  | yield ht => exact hs.yield ht
  | @resume t x ht ha hx =>
    have h : mutexAcquireLoop 0 s t x =
        .ok { s with acquiring := update s.acquiring t none } := by
      rw [mutexAcquireLoop, if_pos hx]
      rfl
    exact (hs.resume ht ha h).2.2
  | schedule hr hl => exact hs.schedule hr hl

/-- In every run without nested donation, every thread is in at most one list, all lists are rings and
    the threads that wait for a mutex are in its waiting list. -/
theorem wellQueued_of_unnested
    (hr : Reach (fun s => ∃ lists, Initial s lists) Step (fun s a => Action.Unnested s a) s) :
    WellQueued s := by
  have hinv : ∃ lists, Sound (fun _ => True) lists s := by
    refine hr.invariant (I := fun s => ∃ lists, Sound (fun _ => True) lists s) ?_ ?_
    · rintro s ⟨lists, hi⟩
      exact ⟨lists, hi.sound⟩
    · rintro s a s' ⟨lists, hs⟩ hn ⟨fuel, h⟩
      obtain ⟨lists', hc⟩ := hs.change_of_next hn h
      exact ⟨lists', hs.change hc⟩
  obtain ⟨lists, hs⟩ := hinv
  exact hs.wellQueued

def unused (priority : T → Nat) : System T X E where
  links := ⟨id, id⟩
  priority := priority
  initialPriority := priority
  lockWaitedOn := fun _ => none
  state := fun _ => .running
  acquiring := fun _ => none
  holder := fun _ => none
  currentRecursivityDepth := fun _ => 0
  maxRecursivityDepth := fun _ => 1

omit [DecidableEq T] [DecidableEq X] [DecidableEq E] in
lemma initial_unused (priority : T → Nat) : Initial (unused priority : System T X E) fun _ => [] where
  ring := fun _ => ring_nil_iff.mpr ⟨rfl, rfl⟩
  single := fun hm => absurd hm (List.not_mem_nil)
  wait := fun _ => rfl
  donations := fun _ => rfl
  ready := fun hm => absurd hm (List.not_mem_nil)
  event := fun hm => absurd hm (List.not_mem_nil)
  acquiring := fun _ => rfl
  lockWaitedOn := fun _ => rfl
  holder := fun _ => rfl

def runUnused (ok : System T X E → Action T X → Prop) [∀ s a, Decidable (ok s a)]
    (priority : T → Nat) (as : List (Action T X)) : Exec (System T X E) :=
  as.foldlM (fun s a => do ensure (ok s a); s.next 8 a) (unused priority)

lemma exists_runUnused {ok : System T X E → Action T X → Prop} [∀ s a, Decidable (ok s a)]
    {P : System T X E → Prop} [DecidablePred P] (priority : T → Nat) (as : List (Action T X))
    (h : returns (runUnused ok priority as) (fun s => decide (P s)) = true) :
    ∃ s, Reach (fun s => ∃ lists, Initial s lists) Step ok s ∧ P s :=
  exists_reach_of (fun _ _ _ hn => ⟨8, hn⟩) ⟨_, initial_unused priority⟩ as h

/-- The thread in the middle of a chain waits for the first mutex when it is given a donation through
    the second one. -/
def nestedRun (t u v : T) : List (Action T Bool) :=
  [.acquire t false, .acquire u true, .acquire u false, .acquire v true]

/-- Nested donation takes a waiting thread out of its waiting list. -/
theorem nested_donation_breaks_queue : ∃ s : System (Fin 3) Bool Empty,
      Reach (fun s => ∃ lists, Initial s lists) Step (fun _ _ => True) s ∧ ¬ WellQueued s := by
  obtain ⟨s, hr, hw, hf⟩ : ∃ s : System (Fin 3) Bool Empty,
      Reach (fun s => ∃ lists, Initial s lists) Step (fun _ _ => True) s ∧ s.Waits 1 false ∧
        s.links.flink (.thread 1) = .head (.donations 0) := exists_runUnused (·.val) (nestedRun 0 1 2) (by decide)
  exact ⟨s, hr, fun hq => hq.flink_waiter hw _ (by simp) hf⟩

def flatRun (t u v : T) : List (Action T Bool) :=
  [.acquire t false, .acquire u false, .acquire v false, .release t false, .schedule, .resume u,
    .acquire u true, .release u false, .yield u]

theorem wellQueued_after_flatRun : ∃ s : System (Fin 3) Bool Empty,
      Reach (fun s => ∃ lists, Initial s lists) Step (fun s a => Action.Unnested s a) s ∧
        s.holder false = some 2 ∧ WellQueued s := by
  obtain ⟨s, hr, hh⟩ : ∃ s : System (Fin 3) Bool Empty,
      Reach (fun s => ∃ lists, Initial s lists) Step (fun s a => Action.Unnested s a) s ∧ s.holder false = some 2 :=
    exists_runUnused (·.val) (flatRun 0 1 2) (by decide)
  exact ⟨s, hr, hh, wellQueued_of_unnested hr⟩

end HAL9000.Thread
