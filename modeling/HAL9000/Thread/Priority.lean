import HAL9000.Lib.Inherit
import HAL9000.Thread.Queues

/-!
# Threads: priority donation

The priority of a thread should be the largest of its base priority and of the priorities of the
threads that wait for its mutexes. The base priority is the one it was created with, or the last one
asked for with `ThreadSetPriority`; the code does not keep it, so it is carried along beside the
system.

`MutexAcquire` always settles the priorities again, along the whole chain of holders. The other two
calls do only in some states: `MutexRelease` resets the releasing thread to its initial priority and
gives nothing to the thread that gets the mutex, and `ThreadSetPriority` never lowers a priority.
-/

namespace HAL9000.Thread
open Lib LinkMem Function

variable {T X E : Type}

def System.Donates (s : System T X E) (u t : T) : Prop := ∃ x, s.Waits u x ∧ s.holder x = some t

/-- The thread waits for another mutex than `x` that the other one holds. -/
def System.DonatesBeside (s : System T X E) (x : X) (u t : T) : Prop :=
  ∃ y, y ≠ x ∧ s.Waits u y ∧ s.holder y = some t

abbrev Based (T X E : Type) := System T X E × (T → Nat)

/-- Every thread has the largest of its base priority and of the priorities donated to it. -/
def Effective (s : Based T X E) : Prop := ∀ t, Level s.1.Donates s.2 s.1.priority t

/-- The waiting list of the mutex is a ring of the threads that wait for it, and none of them has a
    higher priority than the first one. -/
def System.FirstIsHighest (s : System T X E) (x : X) : Prop :=
  ∃ ws, Ring s.links (.head (.wait x)) (entries ws) ∧ (∀ u, u ∈ ws ↔ s.Waits u x) ∧
    ∀ v ∈ ws.tail, ∀ u ∈ ws.head?, s.priority v ≤ s.priority u

/-- The last release of a mutex passes it on to the thread with the highest priority, and the initial
    priority of the releasing thread is what is left for it: the largest of its base priority and of
    the donations through the other mutexes it holds. A new priority is not below the old one, unless
    the old one is donated. -/
def Action.Settling (s : Based T X E) : Action T X → Prop
  | .release t x => s.1.currentRecursivityDepth x ≤ 1 →
    s.1.FirstIsHighest x ∧
      IsLargest (s.1.initialPriority t) (s.2 t) s.1.priority (s.1.DonatesBeside x · t)
  | .setPriority t p =>
    s.1.priority t ≤ p ∨ ∃ u, s.1.Donates u t ∧ s.1.priority u = s.1.priority t
  | _ => True

lemma System.Free.not_donates {s : System T X E} {t : T} (ht : s.Free t) (v : T) : ¬ s.Donates t v := by
  rintro ⟨x, hw, _⟩
  exact ht.not_waits x hw

lemma Level.congr_donates {s s' : System T X E} {b : T → Nat} {t : T} (h : Level s.Donates b s.priority t)
    (hw : ∀ {v y}, s'.Waits v y ↔ s.Waits v y) (hh : ∀ {v y}, s.Waits v y → s'.holder y = s.holder y)
    (hp : s'.priority = s.priority) : Level s'.Donates b s'.priority t := by
  rw [Level, hp]
  refine IsLargest.congr h (fun u => ?_) (fun _ _ => rfl)
  constructor
  · rintro ⟨y, h1, h2⟩
    have h1 := hw.mp h1
    exact ⟨y, h1, by rwa [← hh h1]⟩
  · rintro ⟨y, h1, h2⟩
    exact ⟨y, hw.mpr h1, by rwa [hh h1]⟩

variable [DecidableEq T] [DecidableEq X] [DecidableEq E]

def rebase (b : T → Nat) : Action T X → T → Nat
  | .setPriority t p => update b t p
  | _ => b

def BasedStep (s : Based T X E) (a : Action T X) (s' : Based T X E) : Prop := Step s.1 a s'.1 ∧ s'.2 = rebase s.2 a

def Created (s : Based T X E) : Prop :=
  (∃ lists, Initial s.1 lists) ∧ s.1.initialPriority = s.1.priority ∧ s.2 = s.1.priority

variable {ok : Head T X E → Prop} {lists : Head T X E → List T} {s s' : System T X E} {b : T → Nat} {t u v : T}
  {x : X} {fuel : Nat} {l : Links (Link T X E)} {D : T → T → Prop}

lemma Sound.donates_iff (hs : Sound ok lists s) :
    s.Donates u t ↔ t ≠ u ∧ ∃ x, s.lockWaitedOn u = some x ∧ s.holder x = some t := by
  constructor
  · rintro ⟨x, hw, hx⟩
    refine ⟨?_, x, hs.lockWaitedOn hw.1, hx⟩
    rintro rfl
    exact hw.2 hx
  · rintro ⟨hne, x, hw, hx⟩
    refine ⟨x, hs.waits hw ?_, hx⟩
    rw [hx]
    simpa using hne

lemma Sound.repair (hs : Sound ok lists s) {ws : List T}
    (hr : Ring s.links (.head (.wait x)) (entries ws)) (hws : ∀ u, u ∈ ws ↔ s.Waits u x) :
    Sound (fun h => ok h ∨ h = .wait x) (update lists (.wait x) ws) s := by
  have hmem : ∀ {v h}, v ∈ update lists (.wait x) ws h ↔ v ∈ lists h := by
    intro v h
    by_cases e : h = .wait x
    · subst e
      rw [update_self, hws, hs.mem_wait]
    · rw [update_of_ne e]
  have hlast := (Ring.joined (y := entries ws) (z := []) (by simpa using hr)).2
  refine ⟨⟨?_, ?_, ?_⟩, ?_, ?_, ?_, ?_, ?_, hs.blocked, hs.held, hs.lockWaitedOn, hs.waited⟩
  · intro h hok
    by_cases e : h = .wait x
    · subst e
      rw [update_self]
      exact hr
    · rw [update_of_ne e]
      exact hs.linked.ring (hok.resolve_right e)
  · intro h
    by_cases e : h = .wait x
    · subst e
      rw [update_self]
      exact hlast
    · rw [update_of_ne e]
      exact hs.linked.last h
  · exact fun h1 h2 => hs.linked.single (hmem.mp h1) (hmem.mp h2)
  · exact fun h hh => .inl (hs.shared h hh)
  · intro v
    rw [update_of_ne (by simp)]
    exact hs.donations v
  · exact fun hv => hs.ready (hmem.mp hv)
  · exact fun hv => hs.event (hmem.mp hv)
  · exact hmem.trans hs.mem_wait

lemma Sound.acquire_effective (hs : Sound ok lists s) (hall : ∀ v, Level s.Donates b s.priority v)
    (ht : s.Free t) (hx : s.holder x = some u) (hne : u ≠ t)
    (h : mutexAcquireLoop fuel s t x = .ok s') :
    (∃ ok' lists', Sound ok' lists' s') ∧ ∀ v, Level s'.Donates b s'.priority v := by
  -- the donations once the thread waits, as the code finds them
  let D := fun a c => s.Donates a c ∨ (a = t ∧ c = u)
  have hD : ∀ a c, D a c ↔ c ≠ a ∧ ∃ y, (s.waitOn t x).lockWaitedOn a = some y ∧
      s.holder y = some c := by
    intro a c
    by_cases e : a = t
    · subst e
      simp only [D, ht.not_donates, System.waitOn, update_self, false_or, true_and,
        Option.some.injEq, exists_eq_left', hx]
      constructor
      · rintro rfl
        exact ⟨hne, rfl⟩
      · exact fun hc => hc.2.symm
    · simp [D, e, hs.donates_iff, System.waitOn]
  have hblock : ∀ {l : Links (Link T X E)} {p : T → Nat} {a c : T},
      (System.block { s.waitOn t x with links := l, priority := p } t x).Donates a c ↔ D a c := by
    intro l p a c
    constructor
    · rintro ⟨y, hw, hy⟩
      rcases (ht.waits_block hx hne).mp hw with hw | ⟨rfl, rfl⟩
      · exact .inl ⟨y, hw, hy⟩
      · exact .inr ⟨rfl, Option.some.inj (hy.symm.trans hx)⟩
    · rintro (⟨y, hw, hy⟩ | ⟨rfl, rfl⟩)
      · exact ⟨y, (ht.waits_block hx hne).mpr (.inl hw), hy⟩
      · exact ⟨x, (ht.waits_block hx hne).mpr (.inr ⟨rfl, rfl⟩), hx⟩
  have stop : ∀ p d r, Raising D b p d r →
      (∀ y w, (s.waitOn t x).lockWaitedOn r = some y → (s.waitOn t x).holder y = some w →
        p d ≤ update p r (p d) w) → ∀ v, Level D b (update p r (p d)) v := by
    intro p d r hI hstop
    refine hI.stop fun v hv => ?_
    obtain ⟨_, y, hy, hyv⟩ := (hD r v).mp hv
    exact hstop y v hy hyv
  have pass : ∀ p d r y w, Raising D b p d r → (s.waitOn t x).lockWaitedOn r = some y →
      (s.waitOn t x).holder y = some w → update p r (p d) w < p d →
      Raising D b (update p r (p d)) r w := by
    intro p d r y w hI hy hw hlt
    have hwr : w ≠ r := by
      rintro rfl
      rw [update_self] at hlt
      exact absurd hlt (lt_irrefl _)
    refine hI.pass ((hD r w).mpr ⟨hwr, y, hy, hw⟩) (fun v hv => ?_) hlt
    obtain ⟨_, y', hy', hyv⟩ := (hD r v).mp hv
    rw [hy] at hy'
    cases hy'
    exact Option.some.inj (hyv.symm.trans hw)
  obtain ⟨s1, rfl, ⟨hle, rfl⟩ | ⟨hlt, h1⟩⟩ := mutexAcquireLoop_cases hx hne h
  · refine ⟨⟨_, _, hs.block ht hx hne hs.linked hs.shared⟩, fun v => ?_⟩
    exact IsLargest.congr (Level.insert hall hle (fun _ _ => Iff.rfl) v) (fun _ => hblock)
      (fun _ _ => rfl)
  · obtain ⟨l, p, ok', rfl, hl, hok', hJ⟩ := donate_rule (I := Raising D b)
      (J := fun p => ∀ v, Level D b p v) stop pass (hs.donating ht x)
      (Raising.start hall hlt fun _ _ => Iff.rfl) hlt h1
    refine ⟨⟨_, _, hs.block ht hx hne hl hok'⟩, fun v => ?_⟩
    exact IsLargest.congr (hJ v) (fun _ => hblock) (fun _ _ => rfl)

omit [DecidableEq X] [DecidableEq E] in
lemma System.Free.level_other {p : Nat} (ht : s.Free t) (hv : v ≠ t) (h : Level s.Donates b s.priority v)
    (hD : ∀ a, D a v ↔ s.Donates a v) : Level D b (update s.priority t p) v := by
  rw [Level, update_of_ne hv]
  refine IsLargest.congr h hD fun a ha => update_of_ne ?_ ..
  rintro rfl
  exact ht.not_donates v ha

omit [DecidableEq T] [DecidableEq X] [DecidableEq E] in
lemma donatesBeside_iff (hx : s.holder x = some t) (hv : v ≠ t) : s.DonatesBeside x u v ↔ s.Donates u v := by
  constructor
  · rintro ⟨y, _, hw, hy⟩
    exact ⟨y, hw, hy⟩
  · rintro ⟨y, hw, hy⟩
    refine ⟨y, ?_, hw, hy⟩
    rintro rfl
    exact hv (Option.some.inj (hy.symm.trans hx))

omit [DecidableEq X] [DecidableEq E] in
lemma System.Free.level_self (ht : s.Free t)
    (h : IsLargest (s.initialPriority t) (b t) s.priority (s.DonatesBeside x · t))
    (hD : ∀ a, D a t ↔ s.DonatesBeside x a t) : Level D b (update s.priority t (s.initialPriority t)) t := by
  rw [Level, update_self]
  refine IsLargest.congr h hD fun a ha => update_of_ne ?_ ..
  rintro rfl
  obtain ⟨y, _, hw, _⟩ := ha
  exact ht.not_waits y hw

lemma Sound.free_effective (hs : Sound ok lists s) (hall : ∀ v, Level s.Donates b s.priority v)
    (ht : s.Free t) (hx : s.holder x = some t) (hw : lists (.wait x) = [])
    (hinit : IsLargest (s.initialPriority t) (b t) s.priority (s.DonatesBeside x · t)) (v : T) :
    Level (System.Donates { s.fallBack l t with holder := update s.holder x none }) b
      (update s.priority t (s.initialPriority t)) v := by
  have hD : ∀ a c, System.Donates
      { s.fallBack l t with holder := update s.holder x none } a c ↔
        s.DonatesBeside x a c := by
    intro a c
    refine exists_congr fun y => ?_
    rw [hs.waits_free ht hx hw]
    constructor
    · rintro ⟨ha, hy⟩
      have hne : y ≠ x := by
        rintro rfl
        exact hs.not_acquiring ht hx hw a ha.1
      exact ⟨hne, ha, by simpa [hne] using hy⟩
    · rintro ⟨hne, ha, hy⟩
      exact ⟨ha, by simpa [hne] using hy⟩
  by_cases e : v = t
  · subst e
    exact ht.level_self hinit fun a => hD a v
  · exact ht.level_other e (hall v) fun a => (hD a v).trans (donatesBeside_iff hx e)

omit [DecidableEq E] in
lemma System.Free.wake_effective (ht : s.Free t) (hall : ∀ v, Level s.Donates b s.priority v)
    (hx : s.holder x = some t) (hu : s.Waits u x)
    (hfirst : ∀ a, s.Waits a x → s.priority a ≤ s.priority u)
    (hinit : IsLargest (s.initialPriority t) (b t) s.priority (s.DonatesBeside x · t)) (v : T) :
    Level ((s.fallBack l t).wake l u x).Donates b
      (update s.priority t (s.initialPriority t)) v := by
  have hD : ∀ a c, ((s.fallBack l t).wake l u x).Donates a c ↔
      s.DonatesBeside x a c ∨ (c = u ∧ s.Waits a x ∧ a ≠ u) := by
    intro a c
    constructor
    · rintro ⟨y, hw, hy⟩
      obtain ⟨ha, hne⟩ := (ht.waits_wake hx hu.1).mp hw
      by_cases e : y = x
      · subst e
        rw [show ((s.fallBack l t).wake l u y).holder y = some u from update_self ..] at hy
        exact .inr ⟨(Option.some.inj hy).symm, ha, hne⟩
      · rw [show ((s.fallBack l t).wake l u x).holder y = s.holder y from
          update_of_ne e ..] at hy
        exact .inl ⟨y, e, ha, hy⟩
    · rintro (⟨y, e, ha, hy⟩ | ⟨rfl, ha, hne⟩)
      · refine ⟨y, (ht.waits_wake hx hu.1).mpr ⟨ha, ?_⟩, (update_of_ne e ..).trans hy⟩
        rintro rfl
        exact e (Option.some.inj (ha.1.symm.trans hu.1))
      · exact ⟨x, (ht.waits_wake hx hu.1).mpr ⟨ha, hne⟩, update_self ..⟩
  have hut : u ≠ t := by
    rintro rfl
    exact ht.not_waits x hu
  by_cases e : v = t
  · subst e
    refine ht.level_self hinit fun a => (hD a v).trans (or_iff_left ?_)
    exact fun h => hut h.1.symm
  by_cases e' : v = u
  · subst e'
    have h := IsLargest.union (E := fun a => s.Waits a x ∧ a ≠ v) (hall v)
      fun a ha => hfirst a ha.1
    rw [Level, update_of_ne e]
    refine IsLargest.congr h (fun a => ?_) fun a ha => update_of_ne ?_ ..
    · rw [hD, donatesBeside_iff hx e]
      simp
    · rintro rfl
      rcases ha with ha | ha
      · exact ht.not_donates v ha
      · exact ht.not_waits x ha.1
  · refine ht.level_other e (hall v) fun a => (hD a v).trans ?_
    rw [donatesBeside_iff hx e]
    exact or_iff_left fun h => e' h.1

section

variable (hs : Sound ok lists s) (hall : ∀ v, Level s.Donates b s.priority v)
include hs hall

lemma Sound.release_effective (ht : s.Free t) (hok : Action.Settling (s, b) (.release t x))
    (h : mutexRelease fuel s t x = .ok s') :
    (∃ ok' lists', Sound ok' lists' s') ∧ ∀ v, Level s'.Donates b s'.priority v := by
  by_cases hd : s.currentRecursivityDepth x ≤ 1
  · obtain ⟨⟨ws, hr, hws, hfirst⟩, hinit⟩ := hok hd
    have hs' := hs.repair hr hws
    obtain ⟨hx, h⟩ := mutexRelease_cases hs' (fun _ => .inr rfl) h
    rcases h with ⟨_, rfl⟩ | ⟨_, ⟨hw, l, hl, rfl⟩ | ⟨u, us, l, hw, hl, rfl⟩⟩
    · exact ⟨⟨_, _, { hs with }⟩, hall⟩
    · exact ⟨⟨_, _, hs'.free ht hx hw hl⟩, hs'.free_effective hall ht hx hw hinit⟩
    · refine ⟨⟨_, _, hs'.wake ht hx (.inr rfl) hw hl⟩, ?_⟩
      rw [update_self] at hw
      subst hw
      refine ht.wake_effective hall hx ((hws u).mp List.mem_cons_self) (fun a ha => ?_) hinit
      rcases List.mem_cons.mp ((hws a).mpr ha) with rfl | ha
      · exact le_rfl
      · exact hfirst a ha u rfl
  · obtain ⟨_, ⟨_, rfl⟩ | ⟨hd', _⟩⟩ := mutexRelease_cases hs (fun h => absurd h hd) h
    · exact ⟨⟨_, _, { hs with }⟩, hall⟩
    · exact absurd hd' hd

lemma Sound.setPriority_effective {p : Nat} (ht : s.Free t) (hok : Action.Settling (s, b) (.setPriority t p))
    (h : threadSetPriority s t p = .ok s') :
    (∃ ok' lists', Sound ok' lists' s') ∧
      ∀ v, Level s'.Donates (update b t p) s'.priority v := by
  obtain ⟨_, _, h⟩ := bind_ok.mp h
  have hother : ∀ {q v}, v ≠ t →
      Level s.Donates (update b t p) (update s.priority t q) v := by
    intro q v e
    have := ht.level_other (p := q) e (hall v) fun a => Iff.rfl
    rwa [Level, ← update_of_ne e p b] at this
  obtain ⟨_, hmax, _⟩ := hall t
  split at h
  · next hgt =>
    cases h
    refine ⟨⟨_, _, hs⟩, fun v => ?_⟩
    by_cases e : v = t
    · subst e
      rw [Level, update_self]
      exact ⟨hgt.le, hmax, .inr (hok.resolve_left (Nat.not_le.mpr hgt))⟩
    · simpa using hother (q := s.priority t) e
  · next hle =>
    cases h
    refine ⟨⟨_, _, { hs with }⟩, fun v => ?_⟩
    by_cases e : v = t
    · subst e
      change IsLargest (update s.priority v p v) (update b v p v)
        (update s.priority v p) (s.Donates · v)
      rw [update_self, update_self]
      refine ⟨le_rfl, fun a ha => ?_, .inl rfl⟩
      rw [update_of_ne]
      · exact (hmax a ha).trans (Nat.not_lt.mp hle)
      · rintro rfl
        exact ht.not_donates a ha
    · exact hother e

lemma Sound.step_effective {a : Action T X} (hok : a.Settling (s, b)) (h : s.next fuel a = .ok s') :
    (∃ ok' lists', Sound ok' lists' s') ∧ ∀ v, Level s'.Donates (rebase b a) s'.priority v := by
  cases a with simp only [System.next] at h
  | acquire t x =>
    split at h
    · next ht =>
      rcases mutexAcquire_cases ht h with ⟨_, rfl⟩ | ⟨hx, rfl⟩ | ⟨u, hx, hne, h⟩
      · exact ⟨⟨_, _, hs.deeper ht _⟩, hall⟩
      · refine ⟨⟨_, _, hs.grant_free hx⟩, fun v => ?_⟩
        refine Level.congr_donates (hall v) (hs.waits_grant hx) (fun {v y} hw => ?_) rfl
        refine update_of_ne ?_ ..
        rintro rfl
        exact hs.held hw hx
      · exact hs.acquire_effective hall ht hx hne h
    · cases h
  | release t x =>
    split at h
    · next ht => exact hs.release_effective hall ht hok h
    · cases h
  | setPriority t p =>
    split at h
    · next ht => exact hs.setPriority_effective hall ht hok h
    · cases h
  | yield t =>
    split at h
    · next ht =>
      cases h
      exact ⟨⟨_, _, hs.yield ht⟩, hall⟩
    · cases h
  | resume t =>
    cases ha : s.acquiring t with simp only [ha] at h
    | none => cases h
    | some x =>
      split at h
      · next ht =>
        obtain ⟨hx, rfl, hs'⟩ := hs.resume ht ha h
        exact ⟨⟨_, _, hs'⟩, fun v => Level.congr_donates (hall v) (waits_return ha hx) (fun _ => rfl) rfl⟩
      · cases h
  | schedule =>
    obtain ⟨t, ts, l, hr, hl, _, rfl⟩ := threadSchedule_cases hs h
    exact ⟨⟨_, _, hs.schedule hr hl⟩, hall⟩

end

/-- In every run whose releases and priority changes meet their conditions, every thread has the
    largest of its base priority and of the priorities of the threads that wait for its mutexes. -/
theorem priority_effective {s : Based T X E}
    (hr : Reach Created BasedStep (fun s a => Action.Settling s a) s) : Effective s := by
  have hinv : (∃ ok lists, Sound ok lists s.1) ∧ Effective s := by
    refine hr.invariant (I := fun s => (∃ ok lists, Sound ok lists s.1) ∧ Effective s) ?_ ?_
    · rintro ⟨s, b⟩ ⟨⟨lists, hi⟩, _, hb⟩
      obtain rfl : b = s.priority := hb
      refine ⟨⟨_, lists, hi.sound⟩, fun t => ⟨le_rfl, ?_, .inl rfl⟩⟩
      rintro u ⟨x, _, hx⟩
      exact absurd ((hi.holder x).symm.trans hx) (by simp)
    · rintro ⟨s, b⟩ a ⟨s', b'⟩ ⟨⟨ok, lists, hs⟩, hall⟩ hok ⟨⟨fuel, h⟩, hb⟩
      obtain rfl : b' = rebase b a := hb
      exact hs.step_effective hall hok h
  exact hinv.2

def System.queue (s : System T X E) : Nat → Link T X E → List T
  | 0, _ => []
  | _ + 1, .head _ => []
  | fuel + 1, .thread t => t :: s.queue fuel (s.links.flink (.thread t))

instance [Fintype X] (s : System T X E) (u t : T) : Decidable (s.Donates u t) :=
  inferInstanceAs (Decidable (∃ x, s.Waits u x ∧ s.holder x = some t))

instance [Fintype X] (s : System T X E) (x : X) (u t : T) : Decidable (s.DonatesBeside x u t) :=
  inferInstanceAs (Decidable (∃ y, y ≠ x ∧ s.Waits u y ∧ s.holder y = some t))

def Action.settling [Fintype T] [Fintype X] (s : Based T X E) : Action T X → Bool
  | .release t x =>
    let ws := s.1.queue 8 (s.1.links.flink (.head (.wait x)))
    decide (s.1.currentRecursivityDepth x ≤ 1 →
      (Ring s.1.links (.head (.wait x)) (entries ws) ∧ (∀ u, u ∈ ws ↔ s.1.Waits u x) ∧
        ∀ v ∈ ws.tail, ∀ u ∈ ws.head?, s.1.priority v ≤ s.1.priority u) ∧
      IsLargest (s.1.initialPriority t) (s.2 t) s.1.priority (s.1.DonatesBeside x · t))
  | .setPriority t p =>
    decide (s.1.priority t ≤ p ∨ ∃ u, s.1.Donates u t ∧ s.1.priority u = s.1.priority t)
  | _ => true

lemma Action.Settling.of_settling [Fintype T] [Fintype X] {s : Based T X E} {a : Action T X}
    (h : a.settling s = true) : a.Settling s := by
  cases a with
  | release t x =>
    simp only [Action.settling, decide_eq_true_eq] at h
    exact fun hd => ⟨⟨_, (h hd).1⟩, (h hd).2⟩
  | setPriority t p =>
    simp only [Action.settling, decide_eq_true_eq] at h
    exact h
  | acquire t x => trivial
  | yield t => trivial
  | resume t => trivial
  | schedule => trivial

def runCreated (ok : Based T X E → Action T X → Bool) (priority : T → Nat)
    (as : List (Action T X)) : Exec (Based T X E) :=
  as.foldlM
    (fun s a => do
      ensure (ok s a = true)
      let s' ← s.1.next 8 a
      pure (s', rebase s.2 a))
    (unused priority, priority)

lemma exists_runCreated {ok : Based T X E → Action T X → Bool} {P : Based T X E → Prop} [DecidablePred P]
    (priority : T → Nat) (as : List (Action T X))
    (h : returns (runCreated ok priority as) (fun s => decide (P s)) = true) :
    ∃ s, Reach Created BasedStep (fun s a => ok s a = true) s ∧ P s := by
  refine exists_reach_of (fun s a s' hn => ?_) ⟨⟨_, initial_unused priority⟩, rfl, rfl⟩ as h
  obtain ⟨s1, h1, hn⟩ := bind_ok.mp hn
  cases hn
  exact ⟨⟨8, h1⟩, rfl⟩

def releaseOneOfTwo (t u v : T) : List (Action T Bool) :=
  [.acquire t false, .acquire t true, .acquire u false, .acquire v true, .release t true]

/-- A release forgets the donations through the other mutexes. -/
theorem donation_lost_on_release : ∃ s : Based (Fin 3) Bool Empty,
      Reach Created BasedStep (fun _ _ => True) s ∧ ¬ Effective s := by
  obtain ⟨s, hr, hd, hlt⟩ : ∃ s : Based (Fin 3) Bool Empty, Reach Created BasedStep (fun _ _ => true = true) s ∧
      s.1.Donates 1 0 ∧ s.1.priority 0 < s.1.priority 1 :=
        exists_runCreated (4 * ·.val) (releaseOneOfTwo 0 1 2) (by decide)
  refine ⟨s, hr.mono (fun _ _ _ => trivial) (fun _ _ _ h => h), fun he => ?_⟩
  exact absurd ((he 0).2.1 1 hd) (Nat.not_le.mpr hlt)

/-- A donation that ends with the release of the mutex, a new priority, and a donation that goes
    through a chain of two holders. -/
def chainRun (t u v : T) : List (Action T Bool) :=
  [.acquire t false, .acquire u false, .release t false, .schedule, .resume u, .setPriority t 3,
    .acquire t true, .acquire t false, .acquire v true]

theorem priority_effective_after_chainRun : ∃ s : Based (Fin 3) Bool Empty,
      Reach Created BasedStep (fun s a => Action.Settling s a) s ∧
        s.1.priority 1 = s.1.priority 2 ∧ Effective s := by
  obtain ⟨s, hr, hp⟩ : ∃ s : Based (Fin 3) Bool Empty, Reach Created BasedStep (fun s a => a.settling s = true) s ∧
      s.1.priority 1 = s.1.priority 2 := exists_runCreated (4 * ·.val) (chainRun 0 1 2) (by decide)
  have hr := hr.mono (fun _ _ h => Action.Settling.of_settling h) (fun _ _ _ h => h)
  exact ⟨s, hr, hp, priority_effective hr⟩

end HAL9000.Thread
