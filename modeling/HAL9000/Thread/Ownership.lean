import HAL9000.Thread.Lists

/-!
# Threads: what a step does

`Sound ok lists s` ties the lists to the state of the threads: a ready thread is in the ready list, a
thread that waits for a mutex is blocked in the waiting list of this mutex, and the lists of donations
are empty between the calls, because `ThreadUpdatePriority` takes a donation out again at once.

The functions of the model are described on sound states, once each. Donation goes along a chain of
threads that wait for each other; `donate_rule` is the induction rule for it. A thread in the middle
of the chain is in a waiting list while its entry goes through a list of donations, so this waiting
list may be broken afterwards.
-/

namespace HAL9000.Thread
open Lib LinkMem Function

variable {T X E : Type}

/-- The thread is in `MutexAcquire` and has not been granted the mutex. -/
def System.Waits (s : System T X E) (t : T) (x : X) : Prop := s.acquiring t = some x ∧ s.holder x ≠ some t

lemma System.Free.not_waits {s : System T X E} {t : T} (ht : s.Free t) (y : X) : ¬ s.Waits t y := by
  intro hw
  rw [System.Waits, ht.2] at hw
  cases hw.1

variable [DecidableEq T] [DecidableEq X] [DecidableEq E]

instance (s : System T X E) (t : T) (x : X) : Decidable (s.Waits t x) := by
  unfold System.Waits
  infer_instance

/-- The lists are those that the states of the threads call for. -/
structure Sound (ok : Head T X E → Prop) (lists : Head T X E → List T) (s : System T X E) :
    Prop where
  linked : Linked s.links ok lists
  shared : ∀ h, (∀ x, h ≠ .wait x) → ok h
  donations : ∀ t, lists (.donations t) = []
  ready : ∀ {t}, t ∈ lists .ready → s.state t = .ready
  event : ∀ {t e}, t ∈ lists (.event e) → s.state t = .blocked
  mem_wait : ∀ {t x}, t ∈ lists (.wait x) ↔ s.Waits t x
  blocked : ∀ {t x}, s.Waits t x → s.state t = .blocked
  held : ∀ {t x}, s.Waits t x → s.holder x ≠ none
  lockWaitedOn : ∀ {t x}, s.acquiring t = some x → s.lockWaitedOn t = some x
  waited : ∀ {t x}, s.lockWaitedOn t = some x → s.acquiring t = some x ∨ s.holder x = some t

variable {ok ok' : Head T X E → Prop} {lists : Head T X E → List T} {s s' : System T X E}
  {t u o d r : T} {x : X} {fuel : Nat} {l l' : Links (Link T X E)}

lemma Sound.not_mem (hs : Sound ok lists s) (ht : s.state t = .running) (h : Head T X E) : t ∉ lists h := by
  intro hm
  cases h with
  | ready => simp [hs.ready hm] at ht
  | wait x => simp [hs.blocked (hs.mem_wait.mp hm)] at ht
  | event e => simp [hs.event hm] at ht
  | donations u => simp [hs.donations u] at hm

lemma Sound.waits (hs : Sound ok lists s) (hw : s.lockWaitedOn t = some x)
    (hx : s.holder x ≠ some t) : s.Waits t x :=
  ⟨(hs.waited hw).resolve_right hx, hx⟩

/-- The receiver has the priority of the donor; the donation went through its list. -/
def System.receive (s : System T X E) (d r : T) : System T X E :=
  let l := insertTailList s.links (.head (.donations r)) (.thread d)
  { s with
    links := (removeHeadList l (.head (.donations r))).1
    priority := update s.priority r (s.priority d) }

section

variable (hr : Ring (links s.links) (.head (.donations r)) [])
include hr

lemma receive_same
    (x : Link T X E) (hx : x ≠ .thread d) : SameLinks s.links (s.receive d r).links x :=
  (insert_remove_donation (d := d) hr 0 (fun _ => pure true)).2.2 x hx

lemma threadDonatePriority_eq : threadDonatePriority (fuel + 1) s d r =
      match s.lockWaitedOn r with
      | none => pure (s.receive d r)
      | some y =>
        match s.holder y with
        | none => throw .wild
        | some u =>
          if (s.receive d r).priority u < s.priority d then
            threadDonatePriority fuel (s.receive d r) r u
          else pure (s.receive d r) := by
  obtain ⟨hin, h2, _⟩ := insert_remove_donation (d := d) hr fuel
    (fun current => do pure (decide ((← threadComparePriority s (.thread d) current) < 0)))
  rw [threadDonatePriority, hin, bind_okay, threadUpdatePriority]
  simp only [h2, reduceCtorEq, if_false, containingRecord, pure_okay, bind_okay, update_self]
  rfl

lemma threadDonatePriority_cases
    (h : threadDonatePriority (fuel + 1) s d r = .ok s') :
    ∃ l' p', (∀ x, x ≠ .thread d → SameLinks s.links l' x) ∧
      p' = update s.priority r (s.priority d) ∧
      ((s' = { s with links := l', priority := p' } ∧
          ∀ y u, s.lockWaitedOn r = some y → s.holder y = some u → s.priority d ≤ p' u) ∨
        ∃ y u, s.lockWaitedOn r = some y ∧ s.holder y = some u ∧ p' u < s.priority d ∧
          threadDonatePriority fuel { s with links := l', priority := p' } r u = .ok s') := by
  rw [threadDonatePriority_eq hr] at h
  refine ⟨_, _, receive_same hr, rfl, ?_⟩
  cases hw : s.lockWaitedOn r with simp only [hw] at h
  | none =>
    cases h
    exact .inl ⟨rfl, by simp⟩
  | some y =>
    cases hy : s.holder y with simp only [hy] at h
    | none => cases h
    | some u =>
      split at h
      · next hlt => exact .inr ⟨y, u, rfl, hy, hlt, h⟩
      · next hge =>
        cases h
        refine .inl ⟨rfl, ?_⟩
        rintro y' u' ⟨⟩ hu'
        rw [hy] at hu'
        cases hu'
        exact Nat.not_lt.mp hge

end

/-- The part of soundness that donation relies on. The chain starts with the donation of `o`, which is
    not in its waiting list yet, and reaches `d`, which has the same priority by then. -/
structure Donating (ok : Head T X E → Prop) (lists : Head T X E → List T) (s : System T X E)
    (o d : T) : Prop where
  linked : Linked s.links ok lists
  shared : ∀ h, (∀ x, h ≠ .wait x) → ok h
  donations : ∀ t, lists (.donations t) = []
  waiting : ∀ {t x}, t ≠ o → s.lockWaitedOn t = some x → s.holder x ≠ some t → t ∈ lists (.wait x)
  donor : ∀ {h}, d ∈ lists h → ∃ x, h = .wait x
  level : s.priority d = s.priority o

lemma Donating.ring (hd : Donating ok lists s o d) (r : T) : Ring (links s.links) (.head (.donations r)) [] := by
  have := hd.linked.ring (hd.shared (.donations r) (by simp))
  rwa [hd.donations r] at this

/-- The induction rule for donation. `I p d r` holds when `d` is about to donate to `r` under the
    priorities `p`, `J p` when no more donation is due. -/
lemma donate_rule {I : (T → Nat) → T → T → Prop} {J : (T → Nat) → Prop} (stop : ∀ p d r, I p d r →
      (∀ y u, s.lockWaitedOn r = some y → s.holder y = some u →
        p d ≤ update p r (p d) u) → J (update p r (p d)))
    (pass : ∀ p d r y u, I p d r → s.lockWaitedOn r = some y → s.holder y = some u →
      update p r (p d) u < p d → I (update p r (p d)) r u)
    (hd : Donating ok lists s o d) (hI : I s.priority d r) (hlt : s.priority r < s.priority d)
    (h : threadDonatePriority fuel s d r = .ok s') :
    ∃ l' p' ok', s' = { s with links := l', priority := p' } ∧ Linked l' ok' lists ∧
      (∀ h, (∀ x, h ≠ .wait x) → ok' h) ∧ J p' := by
  induction fuel generalizing s d r ok with
  | zero => cases h
  | succ fuel ih =>
    obtain ⟨l1, p1, hsame, rfl, h⟩ := threadDonatePriority_cases (hd.ring r) h
    -- the waiting list that the donor is in loses its ring
    have hl1 := hd.linked.off hsame
    have hshared : ∀ h, (∀ x, h ≠ .wait x) → ok h ∧ d ∉ lists h := by
      intro h hh
      refine ⟨hd.shared h hh, fun hm => ?_⟩
      obtain ⟨x, e⟩ := hd.donor hm
      exact hh x e
    rcases h with ⟨rfl, hstop⟩ | ⟨y, u, hy, hu, hlt', h⟩
    · exact ⟨_, _, _, rfl, hl1, hshared, stop _ _ _ hI hstop⟩
    · have hro : r ≠ o := by
        rintro rfl
        exact absurd hd.level (Nat.ne_of_gt hlt)
      have hr : r ∈ lists (.wait y) := by
        refine hd.waiting hro hy fun e => ?_
        rw [hu] at e
        cases e
        rw [update_self] at hlt'
        exact absurd hlt' (lt_irrefl _)
      have hd1 : Donating _ lists
          { s with links := l1, priority := update s.priority r (s.priority d) } o r :=
        ⟨hl1, hshared, hd.donations, hd.waiting, fun hm => ⟨y, hd.linked.single hm hr⟩,
          by simp [update_of_ne hro.symm, hd.level]⟩
      obtain ⟨l', p', ok', rfl, hl', hok', hJ⟩ :=
        ih (s := { s with links := l1, priority := update s.priority r (s.priority d) })
          stop pass hd1 (pass _ _ _ _ _ hI hy hu hlt') (by simpa using hlt') h
      exact ⟨l', p', ok', rfl, hl', hok', hJ⟩

/-- The state of a thread that blocks in `MutexAcquire`. -/
def System.block (s : System T X E) (t : T) (x : X) : System T X E := { s with
    links := insertTailList s.links (.head (.wait x)) (.thread t)
    state := update s.state t .blocked
    acquiring := update s.acquiring t (some x) }

def System.waitOn (s : System T X E) (t : T) (x : X) : System T X E :=
  { s with lockWaitedOn := update s.lockWaitedOn t (some x) }

def System.grant (s : System T X E) (t : T) (x : X) : System T X E := { s with
    holder := update s.holder x (some t)
    currentRecursivityDepth := update s.currentRecursivityDepth x 1 }

lemma mutexAcquireLoop_cases (hx : s.holder x = some u) (hne : u ≠ t) (h : mutexAcquireLoop fuel s t x = .ok s') :
    ∃ s1, s' = s1.block t x ∧
      ((s.priority t ≤ s.priority u ∧ s1 = s.waitOn t x) ∨
        (s.priority u < s.priority t ∧ threadDonatePriority fuel (s.waitOn t x) t u = .ok s1)) := by
  have hx' : ¬ (u = t) := hne
  simp only [mutexAcquireLoop, hx, Option.some.injEq, hx', if_false] at h
  split at h
  · next hlt =>
    obtain ⟨s1, h1, h⟩ := bind_ok.mp h
    cases h
    exact ⟨s1, rfl, .inr ⟨hlt, h1⟩⟩
  · next hge =>
    cases h
    exact ⟨_, rfl, .inl ⟨Nat.not_lt.mp hge, rfl⟩⟩

lemma mutexAcquire_cases (ht : s.Free t) (h : mutexAcquire fuel s t x = .ok s') : (s.holder x = some t ∧
      s' = { s with
        lockWaitedOn := update s.lockWaitedOn t none
        currentRecursivityDepth :=
          update s.currentRecursivityDepth x (s.currentRecursivityDepth x + 1) }) ∨
    (s.holder x = none ∧ s' = s.grant t x) ∨
    ∃ u, s.holder x = some u ∧ u ≠ t ∧ mutexAcquireLoop fuel s t x = .ok s' := by
  unfold mutexAcquire at h
  split at h
  · next hx =>
    obtain ⟨_, _, h⟩ := bind_ok.mp h
    cases h
    exact .inl ⟨hx, rfl⟩
  · next hne =>
    split at h
    · next hx =>
      rw [mutexAcquireLoop, if_pos (update_self ..)] at h
      cases h
      refine .inr (.inl ⟨hx, ?_⟩)
      simp only [System.grant, ← ht.2, update_eq_self]
    · next hx =>
      obtain ⟨u, hu⟩ := Option.ne_none_iff_exists'.mp hx
      exact .inr (.inr ⟨u, hu, fun e => hne (e ▸ hu), h⟩)

section

variable (hs : Sound ok lists s)
include hs

lemma Sound.donating (ht : s.Free t) (x : X) : Donating ok lists (s.waitOn t x) t t where
  linked := hs.linked
  shared := hs.shared
  donations := hs.donations
  waiting := by
    intro v y hv hw hy
    simp only [System.waitOn, update_of_ne hv] at hw
    exact hs.mem_wait.mpr (hs.waits hw hy)
  donor := fun hm => absurd hm (hs.not_mem ht.1 _)
  level := rfl

lemma Sound.deeper (ht : s.Free t) (depth : X → Nat) : Sound ok lists { s with
      lockWaitedOn := update s.lockWaitedOn t none
      currentRecursivityDepth := depth } where
  linked := hs.linked
  shared := hs.shared
  donations := hs.donations
  ready := hs.ready
  event := hs.event
  mem_wait := hs.mem_wait
  blocked := hs.blocked
  held := hs.held
  lockWaitedOn := by
    intro v y hv
    have hvt : v ≠ t := by
      rintro rfl
      rw [show s.acquiring v = none from ht.2] at hv
      cases hv
    simpa [update_of_ne hvt] using hs.lockWaitedOn hv
  waited := by
    intro v y hv
    by_cases hvt : v = t
    · simp [hvt] at hv
    · simp only [update_of_ne hvt] at hv
      exact hs.waited hv

lemma Sound.waits_grant (hx : s.holder x = none) {v : T} {y : X} : (s.grant t x).Waits v y ↔ s.Waits v y := by
  have hnone : s.acquiring v ≠ some x := by
    intro hv
    have hw : s.Waits v x := ⟨hv, by simp [hx]⟩
    exact hs.held hw hx
  by_cases e : y = x
  · subst e
    exact ⟨fun h => absurd h.1 hnone, fun h => absurd h.1 hnone⟩
  · simp [System.Waits, System.grant, e]

lemma Sound.grant_free (hx : s.holder x = none) : Sound ok lists (s.grant t x) := by
  have hwaits : ∀ {v y}, (s.grant t x).Waits v y ↔ s.Waits v y := hs.waits_grant hx
  refine ⟨hs.linked, hs.shared, hs.donations, hs.ready, hs.event, ?_, ?_, ?_, hs.lockWaitedOn, ?_⟩
  · intro v y
    rw [hwaits]
    exact hs.mem_wait
  · intro v y hv
    exact hs.blocked (hwaits.mp hv)
  · intro v y hv
    by_cases e : y = x
    · subst e
      simp [System.grant]
    · simpa [System.grant, update_of_ne e] using hs.held (hwaits.mp hv)
  · intro v y hv
    rcases hs.waited hv with ha | hh
    · exact .inl ha
    · right
      have e : y ≠ x := by
        rintro rfl
        simp [hx] at hh
      simpa [System.grant, update_of_ne e] using hh

end

lemma System.Free.waits_block (ht : s.Free t) (hx : s.holder x = some u) (hne : u ≠ t)
    {p : T → Nat} {v : T} {y : X} :
    (System.block { s.waitOn t x with links := l, priority := p } t x).Waits v y ↔
      s.Waits v y ∨ (v = t ∧ y = x) := by
  by_cases e : v = t
  · subst e
    have hv := ht.not_waits y
    simp only [System.Waits, System.block, System.waitOn, update_self, Option.some.injEq, true_and] at hv ⊢
    constructor
    · exact fun h => .inr h.1.symm
    · rintro (h | rfl)
      · exact absurd h hv
      · exact ⟨rfl, by simp [hx, hne]⟩
  · simp [System.Waits, System.block, System.waitOn, e]

lemma Sound.block (hs : Sound ok lists s) (ht : s.Free t) (hx : s.holder x = some u) (hne : u ≠ t)
    {p : T → Nat} (hl : Linked l ok' lists) (hok : ∀ h, (∀ x, h ≠ .wait x) → ok' h) :
    Sound ok' (update lists (.wait x) (lists (.wait x) ++ [t]))
      (System.block { s.waitOn t x with links := l, priority := p } t x) := by
  have hwaits : ∀ {v y},
      (System.block { s.waitOn t x with links := l, priority := p } t x).Waits v y ↔
        s.Waits v y ∨ (v = t ∧ y = x) := ht.waits_block hx hne
  have hmem : ∀ {v h}, v ∈ update lists (.wait x) (lists (.wait x) ++ [t]) h ↔
      v ∈ lists h ∨ (v = t ∧ h = .wait x) := by
    intro v h
    by_cases e : h = .wait x
    · subst e
      simp
    · simp [e]
  have hstate : ∀ {v}, v ≠ t →
      (System.block { s.waitOn t x with links := l, priority := p } t x).state v = s.state v :=
    fun e => update_of_ne e ..
  have hrun : ∀ {v h}, v ∈ lists h → v ≠ t := by
    rintro v h hm rfl
    exact hs.not_mem ht.1 h hm
  refine ⟨hl.insertTail (hs.not_mem ht.1) _, hok, ?_, ?_, ?_, ?_, ?_, ?_, ?_, ?_⟩
  · intro v
    rw [update_of_ne (by simp)]
    exact hs.donations v
  · intro v hv
    rw [update_of_ne (by simp)] at hv
    rw [hstate (hrun hv)]
    exact hs.ready hv
  · intro v e hv
    rw [update_of_ne (by simp)] at hv
    rw [hstate (hrun hv)]
    exact hs.event hv
  · intro v y
    rw [hmem, hwaits, hs.mem_wait]
    simp
  · intro v y hv
    rcases hwaits.mp hv with hv | ⟨rfl, rfl⟩
    · rw [hstate (hrun (hs.mem_wait.mpr hv))]
      exact hs.blocked hv
    · exact update_self ..
  · intro v y hv
    rcases hwaits.mp hv with hv | ⟨rfl, rfl⟩
    · exact hs.held hv
    · simp [System.block, System.waitOn, hx]
  · intro v y hv
    by_cases e : v = t
    · subst e
      simpa [System.block, System.waitOn] using hv
    · simp only [System.block, System.waitOn, update_of_ne e] at hv ⊢
      exact hs.lockWaitedOn hv
  · intro v y hv
    by_cases e : v = t
    · subst e
      left
      simpa [System.block, System.waitOn] using hv
    · simp only [System.block, System.waitOn, update_of_ne e] at hv ⊢
      exact hs.waited hv

omit [DecidableEq X] [DecidableEq E] in
lemma waits_return (ha : s.acquiring t = some x) (hx : s.holder x = some t) {v : T} {y : X} :
    System.Waits { s with acquiring := update s.acquiring t none } v y ↔ s.Waits v y := by
  by_cases e : v = t
  · subst e
    simp only [System.Waits, update_self, ha]
    constructor
    · rintro ⟨⟨⟩, _⟩
    · rintro ⟨⟨⟩, hne⟩
      exact absurd hx hne
  · simp [System.Waits, e]

lemma Sound.resume (hs : Sound ok lists s) (ht : s.state t = .running) (ha : s.acquiring t = some x)
    (h : mutexAcquireLoop fuel s t x = .ok s') :
    s.holder x = some t ∧ s' = { s with acquiring := update s.acquiring t none } ∧
      Sound ok lists s' := by
  have hx : s.holder x = some t := by
    by_contra hne
    rw [hs.blocked (t := t) ⟨ha, hne⟩] at ht
    cases ht
  rw [mutexAcquireLoop, if_pos hx] at h
  cases h
  have hwaits : ∀ {v y}, System.Waits { s with acquiring := update s.acquiring t none } v y ↔
      s.Waits v y := waits_return ha hx
  refine ⟨hx, rfl, hs.linked, hs.shared, hs.donations, hs.ready, hs.event, ?_, ?_, ?_, ?_, ?_⟩
  · intro v y
    rw [hwaits]
    exact hs.mem_wait
  · exact fun hv => hs.blocked (hwaits.mp hv)
  · exact fun hv => hs.held (hwaits.mp hv)
  · intro v y hv
    by_cases e : v = t
    · simp [e] at hv
    · simp only [update_of_ne e] at hv
      exact hs.lockWaitedOn hv
  · intro v y hv
    by_cases e : v = t
    · subst e
      rcases hs.waited hv with ha' | hh
      · rw [ha] at ha'
        cases ha'
        exact .inr hx
      · exact .inr hh
    · simpa [e] using hs.waited hv

def System.fallBack (s : System T X E) (l : Links (Link T X E)) (t : T) : System T X E := { s with
    links := l
    lockWaitedOn := update s.lockWaitedOn t none
    priority := update s.priority t (s.initialPriority t) }

def System.wake (s : System T X E) (l : Links (Link T X E)) (u : T) (x : X) : System T X E :=
  { s.grant u x with links := l, state := update s.state u .ready }

lemma threadUpdatePriorityAfterLockRelease_cases (hl : Linked s.links ok lists)
    (hok : ok (.donations t)) (hd : lists (.donations t) = [])
    (h : threadUpdatePriorityAfterLockRelease fuel s t x = .ok s') :
    ∃ l, Linked l ok lists ∧ s' = s.fallBack l t := by
  obtain ⟨h2, hl⟩ := hl.removeHead_nil hok hd
  have hf : s.links.flink (.head (.donations t)) = .head (.donations t) := h2
  cases fuel with
  | zero => simp [threadUpdatePriorityAfterLockRelease, dropDonations] at h
  | succ fuel =>
    simp only [threadUpdatePriorityAfterLockRelease, dropDonations, hf, if_true, pure_okay, bind_okay,
      threadUpdatePriority, h2] at h
    cases h
    exact ⟨_, hl, rfl⟩

lemma mutexRelease_cases (hs : Sound ok lists s) (hok : s.currentRecursivityDepth x ≤ 1 → ok (.wait x))
    (h : mutexRelease fuel s t x = .ok s') :
    s.holder x = some t ∧
      ((1 < s.currentRecursivityDepth x ∧ s' = { s with
          currentRecursivityDepth :=
            update s.currentRecursivityDepth x (s.currentRecursivityDepth x - 1) }) ∨
      s.currentRecursivityDepth x ≤ 1 ∧
        ((lists (.wait x) = [] ∧ ∃ l, Linked l ok lists ∧
          s' = { s.fallBack l t with holder := update s.holder x none }) ∨
        ∃ u us l, lists (.wait x) = u :: us ∧
          Linked l ok (update (update lists (.wait x) us) .ready (lists .ready ++ [u])) ∧
          s' = (s.fallBack l t).wake l u x)) := by
  rw [mutexRelease] at h
  obtain ⟨_, hx, h⟩ := bind_ok.mp h
  refine ⟨ensure_ok.mp hx, ?_⟩
  split at h
  · next hd =>
    cases h
    exact .inl ⟨hd, rfl⟩
  · next hd =>
    replace hok := hok (Nat.not_lt.mp hd)
    obtain ⟨s1, h1, h⟩ := bind_ok.mp h
    obtain ⟨l1, hl1, rfl⟩ := threadUpdatePriorityAfterLockRelease_cases hs.linked
      (hs.shared (.donations t) (by simp)) (hs.donations t) h1
    refine .inr ⟨Nat.not_lt.mp hd, ?_⟩
    unfold mutexPass at h
    cases hw : lists (.wait x) with
    | nil =>
      obtain ⟨h2, hl⟩ := hl1.removeHead_nil hok hw
      rw [show (s.fallBack l1 t).links = l1 from rfl] at h
      simp only [h2, if_true, pure_okay] at h
      cases h
      exact .inl ⟨rfl, _, hl, rfl⟩
    | cons u us =>
      obtain ⟨h2, hl⟩ := hl1.removeHead hok hw
      have hl' := hl.insertTail (hs.linked.head_not_mem hok hw) .ready
      rw [show (s.fallBack l1 t).links = l1 from rfl] at h
      simp only [h2, reduceCtorEq, if_false, containingRecord, pure_okay, bind_okay, threadUnblock] at h
      obtain ⟨_, _, h⟩ := bind_ok.mp h
      cases h
      refine .inr ⟨u, us, _, rfl, ?_, rfl⟩
      simpa using hl'

section

variable (hs : Sound ok lists s) (ht : s.Free t) (hx : s.holder x = some t) (hw : lists (.wait x) = [])
include hs ht hx hw

lemma Sound.not_acquiring (v : T) : s.acquiring v ≠ some x := by
  intro hv
  by_cases e : v = t
  · rw [e, ht.2] at hv
    cases hv
  · have : v ∈ lists (.wait x) := hs.mem_wait.mpr ⟨hv, by simpa [hx] using Ne.symm e⟩
    simp [hw] at this

lemma Sound.waits_free {v : T} {y : X} :
    System.Waits { s.fallBack l t with holder := update s.holder x none } v y ↔
      s.Waits v y := by
  have hnone := hs.not_acquiring ht hx hw v
  by_cases e : y = x
  · subst e
    exact ⟨fun h => absurd h.1 hnone, fun h => absurd h.1 hnone⟩
  · simp [System.Waits, System.fallBack, e]

lemma Sound.free (hl : Linked l ok lists) :
    Sound ok lists { s.fallBack l t with holder := update s.holder x none } := by
  have hwaits : ∀ {v y},
      System.Waits { s.fallBack l t with holder := update s.holder x none } v y ↔
        s.Waits v y := hs.waits_free ht hx hw
  refine ⟨hl, hs.shared, hs.donations, hs.ready, hs.event, ?_, ?_, ?_, ?_, ?_⟩
  · intro v y
    rw [hwaits]
    exact hs.mem_wait
  · exact fun hv => hs.blocked (hwaits.mp hv)
  · intro v y hv
    have e : y ≠ x := by
      rintro rfl
      exact hs.not_acquiring ht hx hw v hv.1
    simpa [e] using hs.held (hwaits.mp hv)
  · intro v y hv
    have e : v ≠ t := by
      rintro rfl
      cases ht.2.symm.trans hv
    simpa [System.fallBack, e] using hs.lockWaitedOn hv
  · intro v y hv
    have e : v ≠ t := by
      rintro rfl
      simp [System.fallBack] at hv
    simp only [System.fallBack, update_of_ne e] at hv
    rcases hs.waited hv with ha | hh
    · exact .inl ha
    · right
      have e' : y ≠ x := by
        rintro rfl
        rw [hx] at hh
        cases hh
        exact e rfl
      simpa [e'] using hh

end

omit [DecidableEq E] in
lemma System.Free.waits_wake (ht : s.Free t) (hx : s.holder x = some t) (hu : s.acquiring u = some x)
    {v : T} {y : X} : ((s.fallBack l t).wake l u x).Waits v y ↔ s.Waits v y ∧ v ≠ u := by
  by_cases e : y = x
  · subst e
    simp only [System.Waits, System.wake, System.grant, System.fallBack, update_self, hx,
      ne_eq, Option.some.injEq]
    constructor
    · intro ⟨ha, hne⟩
      refine ⟨⟨ha, ?_⟩, fun e => hne e.symm⟩
      rintro rfl
      cases ht.2.symm.trans ha
    · exact fun ⟨⟨ha, _⟩, hne⟩ => ⟨ha, fun e => hne e.symm⟩
  · simp only [System.Waits, System.wake, System.grant, System.fallBack, update_of_ne e]
    refine ⟨fun hv => ⟨hv, ?_⟩, And.left⟩
    rintro rfl
    rw [hu] at hv
    cases hv.1
    exact e rfl

lemma Sound.wake {us : List T} (hs : Sound ok lists s) (ht : s.Free t) (hx : s.holder x = some t)
    (hok : ok (.wait x)) (hw : lists (.wait x) = u :: us)
    (hl : Linked l ok (update (update lists (.wait x) us) .ready (lists .ready ++ [u]))) :
    Sound ok (update (update lists (.wait x) us) .ready (lists .ready ++ [u]))
      ((s.fallBack l t).wake l u x) := by
  have hux : u ∈ lists (.wait x) := by rw [hw]; exact List.mem_cons_self
  have htv : ∀ {v y}, s.acquiring v = some y → v ≠ t := by
    rintro v y hv rfl
    cases ht.2.symm.trans hv
  have hnd : u ∉ us := by simpa using hs.linked.head_not_mem hok hw (.wait x)
  have hwaits : ∀ {v y}, ((s.fallBack l t).wake l u x).Waits v y ↔ s.Waits v y ∧ v ≠ u :=
    ht.waits_wake hx (hs.mem_wait.mp hux).1
  have hstate : ∀ {v}, v ≠ u → ((s.fallBack l t).wake l u x).state v = s.state v :=
    fun e => update_of_ne e ..
  refine ⟨hl, hs.shared, ?_, ?_, ?_, ?_, ?_, ?_, ?_, ?_⟩
  · intro v
    simpa using hs.donations v
  · intro v hv
    by_cases e : v = u
    · subst e
      exact update_self ..
    · rw [hstate e]
      exact hs.ready (by simpa [e] using hv)
  · intro v e hv
    have hv : v ∈ lists (.event e) := by simpa using hv
    have hne : v ≠ u := by
      rintro rfl
      cases hs.linked.single hv hux
    rw [hstate hne]
    exact hs.event hv
  · intro v y
    rw [hwaits, ← hs.mem_wait]
    by_cases e : y = x
    · subst e
      rw [update_of_ne (by simp), update_self, hw, List.mem_cons]
      constructor
      · intro hm
        exact ⟨.inr hm, fun e' => hnd (e' ▸ hm)⟩
      · exact fun ⟨hm, hne⟩ => hm.resolve_left hne
    · rw [update_of_ne (by simp), update_of_ne (by simpa using e)]
      refine ⟨fun hm => ⟨hm, ?_⟩, And.left⟩
      rintro rfl
      cases hs.linked.single hm hux
      exact e rfl
  · intro v y hv
    obtain ⟨hv, hne⟩ := hwaits.mp hv
    rw [hstate hne]
    exact hs.blocked hv
  · intro v y hv
    by_cases e : y = x
    · subst e
      simp [System.wake, System.grant]
    · simpa [System.wake, System.grant, System.fallBack, e] using hs.held (hwaits.mp hv).1
  · intro v y hv
    simpa [System.wake, System.grant, System.fallBack, htv hv] using hs.lockWaitedOn hv
  · intro v y hv
    have e : v ≠ t := by
      rintro rfl
      simp [System.wake, System.grant, System.fallBack] at hv
    simp only [System.wake, System.grant, System.fallBack, update_of_ne e] at hv
    rcases hs.waited hv with ha | hh
    · exact .inl ha
    · right
      have e' : y ≠ x := by
        rintro rfl
        rw [hx] at hh
        cases hh
        exact e rfl
      simpa [System.wake, System.grant, System.fallBack, e'] using hh

lemma Sound.yield (hs : Sound ok lists s) (ht : s.state t = .running) :
    Sound ok (update lists .ready (lists .ready ++ [t])) (threadYield s t) := by
  have hrun : ∀ {v h}, v ∈ lists h → v ≠ t := by
    rintro v h hm rfl
    exact hs.not_mem ht h hm
  have hstate : ∀ {v}, v ≠ t → (threadYield s t).state v = s.state v :=
    fun e => update_of_ne e ..
  refine ⟨hs.linked.insertTail (hs.not_mem ht) _, hs.shared, ?_, ?_, ?_, ?_, ?_, hs.held,
    hs.lockWaitedOn, hs.waited⟩
  · intro v
    simpa using hs.donations v
  · intro v hv
    by_cases e : v = t
    · subst e
      exact update_self ..
    · rw [hstate e]
      exact hs.ready (by simpa [e] using hv)
  · intro v e hv
    have hv : v ∈ lists (.event e) := by simpa using hv
    rw [hstate (hrun hv)]
    exact hs.event hv
  · intro v y
    rw [update_of_ne (by simp)]
    exact hs.mem_wait
  · intro v y hv
    rw [hstate (hrun (hs.mem_wait.mpr hv))]
    exact hs.blocked hv

lemma threadSchedule_cases (hs : Sound ok lists s) (h : threadSchedule s = .ok s') :
    ∃ t ts l, lists .ready = t :: ts ∧ Linked l ok (update lists .ready ts) ∧
      s.state t = .ready ∧ s' = { s with links := l, state := update s.state t .running } := by
  have hok := hs.shared .ready (by simp)
  unfold threadSchedule at h
  cases hr : lists .ready with
  | nil =>
    obtain ⟨h2, _⟩ := hs.linked.removeHead_nil hok hr
    simp only [h2, if_true] at h
    cases h
  | cons t ts =>
    obtain ⟨h2, hl⟩ := hs.linked.removeHead hok hr
    simp only [h2, reduceCtorEq, if_false, containingRecord, pure_okay, bind_okay] at h
    obtain ⟨_, hst, h⟩ := bind_ok.mp h
    cases h
    exact ⟨t, ts, _, rfl, hl, ensure_ok.mp hst, rfl⟩

lemma Sound.schedule {ts : List T} (hs : Sound ok lists s) (hr : lists .ready = t :: ts)
    (hl : Linked l ok (update lists .ready ts)) :
    Sound ok (update lists .ready ts)
      { s with links := l, state := update s.state t .running } := by
  have htr : t ∈ lists .ready := by rw [hr]; exact List.mem_cons_self
  have hnd : t ∉ ts := by
    simpa using hs.linked.head_not_mem (hs.shared .ready (by simp)) hr .ready
  have hne : ∀ {v h}, v ∈ lists h → h ≠ .ready → v ≠ t := by
    rintro v h hv hh rfl
    exact hh (hs.linked.single hv htr)
  refine ⟨hl, hs.shared, ?_, ?_, ?_, ?_, ?_, hs.held, hs.lockWaitedOn, hs.waited⟩
  · intro v
    simpa using hs.donations v
  · intro v hv
    rw [update_self] at hv
    have e : v ≠ t := fun e => hnd (e ▸ hv)
    simpa [e] using hs.ready (by rw [hr]; exact List.mem_cons_of_mem _ hv)
  · intro v e hv
    have hv : v ∈ lists (.event e) := by simpa using hv
    simpa [hne hv (by simp)] using hs.event hv
  · intro v y
    rw [update_of_ne (by simp)]
    exact hs.mem_wait
  · intro v y hv
    simpa [hne (hs.mem_wait.mpr hv) (by simp)] using hs.blocked hv

end HAL9000.Thread
