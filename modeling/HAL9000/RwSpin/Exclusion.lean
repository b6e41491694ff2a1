import HAL9000.RwSpin.Model
import Mathlib.Data.Fintype.Card
import Mathlib.Data.List.Nodup

/-!
# RW spinlocks: exclusion

`Counted waiters s` ties the three WORDs to the CPUs: `WaitingWriters` counts the writers on their
way in, `ActiveReaders` the shared acquisitions, and `ActiveWriter` is 1 for the one CPU that owns the
lock exclusively or pretends to. It is kept by every step that leaves `ActiveReaders` room to count
(`Roomy`), whatever the CPUs acquire inside what. With fewer than 65536 CPUs that never acquire a lock
they have there is always room.
-/

namespace HAL9000.RwSpin
open Lib Function

variable {C : Type} [DecidableEq C] {waiters : Finset C} {active : Option C} {s s' : RwSpinlock C} {c : C}
  {a : Action C}

/-- A writer that `WaitingWriters` counts. -/
def Pc.waits : Pc → Bool
  | .claim | .withdraw => true
  | _ => false

/-- A reader that has set `ActiveWriter`. -/
def Pc.pretends : Pc → Bool
  | .join | .joined | .confess => true
  | _ => false

/-- A step that has an entry in `writers`. -/
def Pc.owns : Pc → Bool
  | .withdraw | .release _ | .give _ => true
  | _ => false

/-- A step that has an entry in `readers`. -/
def Pc.shares : Pc → Bool
  | .joined | .confess | .leave _ => true
  | _ => false

lemma interlockedCompareExchange_zero (low high exchange : Nat) : interlockedCompareExchange low high exchange 0 =
      if low = 0 ∧ high = 0 then (exchange % 2 ^ 16, exchange / 2 ^ 16, 0)
      else (low, high, low + 2 ^ 16 * high) := by
  unfold interlockedCompareExchange
  by_cases h : low = 0 ∧ high = 0
  · simp [h.1, h.2]
  · rw [if_neg h, if_neg (by omega)]

inductive Move (s : RwSpinlock C) (c : C) : RwSpinlock C → Prop where
  | spin : Move s c s
  | announce : s.pc c = .announce →
    Move s c { s with waitingWriters := wadd 16 s.waitingWriters 1, pc := update s.pc c .claim }
  | claim : s.pc c = .claim → s.activeWriter = 0 → s.activeReaders = 0 →
    Move s c { s with activeWriter := 1, writers := c :: s.writers, pc := update s.pc c .withdraw }
  | withdraw : s.pc c = .withdraw →
    Move s c { s with waitingWriters := wsub 16 s.waitingWriters 1, pc := update s.pc c .idle }
  | pretend : s.pc c = .pretend → s.activeWriter = 0 →
    Move s c { s with activeWriter := 1, pc := update s.pc c .join }
  | join : s.pc c = .join →
    Move s c { s with
      activeReaders := wadd 16 s.activeReaders 1
      readers := c :: s.readers
      pc := update s.pc c .joined }
  | joined : s.pc c = .joined → Move s c { s with pc := update s.pc c .confess }
  | confess : s.pc c = .confess →
    Move s c { s with activeWriter := wsub 16 s.activeWriter 1, pc := update s.pc c .idle }
  | release {i} : s.pc c = .release i → Move s c { s with pc := update s.pc c (.give i) }
  | give {i} : s.pc c = .give i →
    Move s c { s with
      activeWriter := wsub 16 s.activeWriter 1
      writers := s.writers.erase c
      pc := update s.pc c .idle
      interrupts := update s.interrupts c i }
  | leave {i} : s.pc c = .leave i →
    Move s c { s with
      activeReaders := wsub 16 s.activeReaders 1
      readers := s.readers.erase c
      pc := update s.pc c .idle
      interrupts := update s.interrupts c i }

lemma move_of_run (h : s.run c = .ok s') : Move s c s' := by
  unfold RwSpinlock.run at h
  split at h
  · cases h
  · next hc =>
    cases h
    exact .announce hc
  · next hc =>
    rw [interlockedCompareExchange_zero] at h
    by_cases hz : s.activeWriter = 0 ∧ s.activeReaders = 0
    · simp only [if_pos hz] at h
      cases h
      have hm := Move.claim hc hz.1 hz.2
      rwa [hz.2] at hm
    · simp only [if_neg hz] at h
      rw [if_pos (by omega)] at h
      cases h
      exact .spin
  · next hc => exact Except.ok.inj h ▸ .withdraw hc
  · next hc =>
    rw [interlockedCompareExchange_zero] at h
    by_cases hz : s.waitingWriters = 0 ∧ s.activeWriter = 0
    · simp [hz, RwSpinlock.goto] at h
      subst h
      have hm := Move.pretend hc hz.2
      rwa [hz.1] at hm
    · simp only [if_neg hz] at h
      rw [if_pos (by omega)] at h
      cases h
      exact .spin
  · next hc =>
    cases h
    exact .join hc
  · next hc =>
    obtain ⟨_, -, h⟩ := bind_ok.mp h
    cases h
    exact .joined hc
  · next hc => exact Except.ok.inj h ▸ .confess hc
  · next hc =>
    obtain ⟨_, -, h⟩ := bind_ok.mp h
    cases h
    exact .release hc
  · next hc => exact Except.ok.inj h ▸ .give hc
  · next hc => exact Except.ok.inj h ▸ .leave hc

/-- What the three WORDs say about the CPUs: `waiters` are the writers on their way in, `active` is the
    CPU that has set `ActiveWriter`. -/
structure Counted (waiters : Finset C) (active : Option C) (s : RwSpinlock C) : Prop where
  mem_waiters : ∀ {c}, c ∈ waiters ↔ (s.pc c).waits = true
  waitingWriters : s.waitingWriters = waiters.card % 2 ^ 16
  activeReaders : s.activeReaders = s.readers.length
  room : s.readers.length < 2 ^ 16
  activeWriter : s.activeWriter = if active = none then 0 else 1
  set_by : ∀ {c}, active = some c → (s.pc c).pretends = true ∨ c ∈ s.writers
  pretends : ∀ {c}, (s.pc c).pretends = true → active = some c ∧ s.writers = []
  writers : ∀ {c}, c ∈ s.writers → active = some c ∧ s.writers = [c] ∧ s.readers = []
  owns : ∀ {c}, (s.pc c).owns = true → c ∈ s.writers
  shares : ∀ {c}, (s.pc c).shares = true → c ∈ s.readers

/-- `ActiveReaders` has room for the reader about to join. -/
def Roomy (s : RwSpinlock C) : Action C → Prop
  | .run c => s.pc c = .join → s.readers.length + 1 < 2 ^ 16
  | _ => True

instance (s : RwSpinlock C) : (a : Action C) → Decidable (Roomy s a)
  | .run c => inferInstanceAs (Decidable (s.pc c = .join → s.readers.length + 1 < 2 ^ 16))
  | .acquire .. | .release .. => .isTrue trivial

lemma wadd_mod (n : Nat) : wadd 16 (n % 2 ^ 16) 1 = (n + 1) % 2 ^ 16 := by
  simp [wadd]

lemma wsub_mod {n : Nat} (h : 0 < n) : wsub 16 (n % 2 ^ 16) 1 = (n - 1) % 2 ^ 16 := by
  unfold wsub
  omega

omit [DecidableEq C] in
lemma Counted.writers_eq_nil
    (h : Counted waiters active s) (h0 : s.activeWriter = 0) : s.writers = [] := by
  refine List.eq_nil_iff_forall_not_mem.mpr fun c hc => ?_
  have ha := h.activeWriter
  simp [(h.writers hc).1, h0] at ha

attribute [local grind] Pc.waits Pc.pretends Pc.owns Pc.shares
attribute [local grind =] update_apply

lemma Counted.move
    (h : Counted waiters active s) (hm : Move s c s') (hroom : Roomy s (.run c)) :
    ∃ waiters active, Counted waiters active s' := by
  have hempty := h.writers_eq_nil
  obtain ⟨hw, hn, hr, hl, ha, hactive, hpretends, hwriters, howns, hshares⟩ := h
  cases hm with
  | spin => exact ⟨waiters, active, hw, hn, hr, hl, ha, hactive, hpretends, hwriters, howns, hshares⟩
  | announce hc =>
    have hnot : c ∉ waiters := by simp [hw, hc, Pc.waits]
    have hcard : wadd 16 s.waitingWriters 1 = (insert c waiters).card % 2 ^ 16 := by
      rw [Finset.card_insert_of_notMem hnot, ← wadd_mod, hn]
    refine ⟨insert c waiters, active, ?_, hcard, hr, hl, ha, ?_, ?_, ?_, ?_, ?_⟩
    all_goals clear hn hr hl hcard hroom; grind -linarith
  | claim hc h0 hz =>
    have hreaders : s.readers = [] := List.length_eq_zero_iff.mp (hr ▸ hz)
    have hnone : active = none := by grind -linarith
    refine ⟨waiters, some c, ?_, hn, hr, hl, ?_, ?_, ?_, ?_, ?_, ?_⟩
    all_goals clear hn hr hl hz hroom; grind -linarith
  | withdraw hc =>
    have hmem : c ∈ waiters := by simp [hw, hc, Pc.waits]
    have hcard : wsub 16 s.waitingWriters 1 = (waiters.erase c).card % 2 ^ 16 := by
      rw [Finset.card_erase_of_mem hmem, ← wsub_mod (Finset.card_pos.mpr ⟨c, hmem⟩), hn]
    refine ⟨waiters.erase c, active, ?_, hcard, hr, hl, ha, ?_, ?_, ?_, ?_, ?_⟩
    all_goals clear hn hr hl hcard hroom; grind -linarith
  | pretend hc h0 =>
    have hnone : active = none := by grind -linarith
    refine ⟨waiters, some c, ?_, hn, hr, hl, ?_, ?_, ?_, ?_, ?_, ?_⟩
    all_goals clear hn hr hl hroom; grind -linarith
  | join hc =>
    have hlt := hroom hc
    have hadd : wadd 16 s.activeReaders 1 = s.readers.length + 1 := by rw [hr, wadd_eq hlt]
    refine ⟨waiters, active, ?_, hn, hadd, hlt, ha, ?_, ?_, ?_, ?_, ?_⟩
    all_goals clear hn hr hl hlt hadd hroom; grind -linarith
  | joined hc | release hc =>
    refine ⟨waiters, active, ?_, hn, hr, hl, ha, ?_, ?_, ?_, ?_, ?_⟩
    all_goals clear hn hr hl hroom; grind -linarith
  | confess hc =>
    have hone : s.activeWriter = 1 := by grind -linarith
    refine ⟨waiters, none, ?_, hn, hr, hl, ?_, ?_, ?_, ?_, ?_, ?_⟩
    · grind -linarith
    · simp only [hone]; rfl
    all_goals clear hn hr hl hroom; grind -linarith
  | give hc =>
    have hone : s.activeWriter = 1 := by grind -linarith
    have herase : s.writers.erase c = [] := by grind -linarith
    refine ⟨waiters, none, ?_, hn, hr, hl, ?_, ?_, ?_, ?_, ?_, ?_⟩
    · grind -linarith
    · simp only [hone]; rfl
    all_goals clear hn hr hl hroom; grind -linarith
  | leave hc =>
    have hmem : c ∈ s.readers := hshares (by rw [hc]; rfl)
    have hsub : wsub 16 s.activeReaders 1 = (s.readers.erase c).length := by
      rw [hr, wsub_eq hl (List.length_pos_of_mem hmem), List.length_erase_of_mem hmem]
    have hlt := lt_of_le_of_lt (List.length_erase_le (a := c)) hl
    refine ⟨waiters, active, ?_, hn, hsub, hlt, ha, ?_, ?_, ?_, ?_, ?_⟩
    all_goals clear hn hr hl hsub hlt hroom; grind -linarith

lemma Counted.acquire
    (h : Counted waiters active s) (hc : s.pc c = .idle) (e : Bool) :
    Counted waiters active (s.acquire c e) := by
  obtain ⟨hw, hn, hr, hl, ha, hactive, hpretends, hwriters, howns, hshares⟩ := h
  cases e <;> unfold RwSpinlock.acquire RwSpinlock.goto <;>
    refine ⟨?_, hn, hr, hl, ha, ?_, ?_, ?_, ?_, ?_⟩ <;> grind -linarith

lemma Counted.release
    (h : Counted waiters active s) (hc : s.pc c = .idle) {e : Bool} (i : Bool)
    (he : if e then c ∈ s.writers else c ∈ s.readers) :
    Counted waiters active (s.release c i e) := by
  obtain ⟨hw, hn, hr, hl, ha, hactive, hpretends, hwriters, howns, hshares⟩ := h
  cases e <;> unfold RwSpinlock.release RwSpinlock.goto <;>
    refine ⟨?_, hn, hr, hl, ha, ?_, ?_, ?_, ?_, ?_⟩ <;> grind -linarith

omit [DecidableEq C] in
lemma Initial.counted (h : Initial s) : Counted ∅ none s := by
  constructor <;> simp [h.waitingWriters, h.activeWriter, h.activeReaders, h.pc, h.writers, h.readers,
    Pc.waits, Pc.pretends, Pc.owns, Pc.shares]

lemma Counted.run_ne
    (h : Counted waiters active s) (c : C) : s.run c ≠ .error .check := by
  have hone {c} (hc : (s.pc c).pretends = true ∨ (s.pc c).owns = true) : 1 = s.activeWriter := by
    have ha : active = some c := by
      rcases hc with hc | hc
      · exact (h.pretends hc).1
      · exact (h.writers (h.owns hc)).1
    simp [h.activeWriter, ha]
  cases hc : s.pc c with
  | joined => simp [RwSpinlock.run, hc, ensure_pos (hone (.inl (by rw [hc]; rfl)))]
  | release i => simp [RwSpinlock.run, hc, ensure_pos (hone (.inr (by rw [hc]; rfl)))]
  | claim | pretend =>
    simp only [RwSpinlock.run, hc]
    split <;> simp
  | _ => simp [RwSpinlock.run, hc]

/-- A CPU has the lock shared at most once, and not when it is about to get it. -/
structure Single (s : RwSpinlock C) : Prop where
  nodup : s.readers.Nodup
  fresh : ∀ {c}, s.pc c = .pretend ∨ s.pc c = .join → c ∉ s.readers

lemma Single.move (h : Single s) (hm : Move s c s') : Single s' := by
  obtain ⟨hn, hf⟩ := h
  cases hm with
  | join hc => exact ⟨List.nodup_cons.mpr ⟨hf (.inr hc), hn⟩, by grind -linarith⟩
  | leave hc => exact ⟨hn.erase c, by grind -linarith⟩
  | _ => exact ⟨hn, by grind -linarith⟩

omit [DecidableEq C] in
lemma Single.roomy [Fintype C] (hcard : Fintype.card C < 2 ^ 16) (h : Single s) (a : Action C) : Roomy s a := by
  cases a with
  | run c =>
    intro hc
    have hnodup : (c :: s.readers).Nodup := List.nodup_cons.mpr ⟨h.fresh (.inr hc), h.nodup⟩
    have hle := hnodup.length_le_card
    exact lt_of_le_of_lt hle hcard
  | _ => trivial

lemma Counted.step (h : Counted waiters active s) (hm : Matched s a) (hroom : Roomy s a) (hst : Step s a s') :
    ∃ waiters active, Counted waiters active s' := by
  cases a with simp only [Step, RwSpinlock.next] at hst
  | acquire c e =>
    split at hst <;> cases hst
    exact ⟨waiters, active, h.acquire ‹_› e⟩
  | release c i e =>
    split at hst <;> cases hst
    exact ⟨waiters, active, h.release ‹_› i hm⟩
  | run c => exact h.move (move_of_run hst) hroom

lemma Single.step (h : Single s) (hm : Matched s a) (hst : Step s a s') : Single s' := by
  cases a with simp only [Step, RwSpinlock.next] at hst
  | acquire c e =>
    split at hst <;> cases hst
    refine ⟨h.nodup, ?_⟩
    have hfresh := @h.fresh
    simp only [Matched, RwSpinlock.acquire, RwSpinlock.goto] at hm ⊢
    grind -linarith
  | release c i e =>
    split at hst <;> cases hst
    refine ⟨h.nodup, ?_⟩
    have hfresh := @h.fresh
    simp only [RwSpinlock.release, RwSpinlock.goto]
    grind -linarith
  | run c => exact h.move (move_of_run hst)

/-- With fewer than 65536 CPUs, an exclusive owner is the only owner, no assertion fails, and the
    counters are back to zero when there is no owner and no acquisition in progress. -/
theorem exclusive_alone [Fintype C] (hcard : Fintype.card C < 65536) (hr : Reach Initial Step Matched s) :
    (∀ c ∈ s.writers, s.writers = [c] ∧ s.readers = []) ∧
    (∀ c, s.run c ≠ .error .check) ∧
    (s.writers = [] → s.readers = [] → (∀ c, (s.pc c).acquiring = false) →
      s.waitingWriters = 0 ∧ s.activeWriter = 0 ∧ s.activeReaders = 0) := by
  have hinv := hr.invariant (I := fun s => (∃ waiters active, Counted waiters active s) ∧ Single s)
    (fun s hi => ⟨⟨∅, none, hi.counted⟩, by simp [hi.readers], by simp [hi.readers]⟩)
    fun s a s' ⟨⟨_, _, h⟩, h1⟩ hm hst => ⟨h.step hm (h1.roomy hcard a) hst, h1.step hm hst⟩
  obtain ⟨⟨waiters, active, h⟩, -⟩ := hinv
  refine ⟨fun c hc => (h.writers hc).2, h.run_ne, fun hw hr hacq => ?_⟩
  have hnone : active = none := by
    cases ha : active with
    | none => rfl
    | some c =>
      have hs := h.set_by ha
      have := hacq c
      rw [hw] at hs
      cases hc : s.pc c <;> simp_all [Pc.pretends, Pc.acquiring]
  have hwait : waiters = ∅ := Finset.eq_empty_of_forall_notMem fun c hc => by
    have hs := h.mem_waiters.mp hc
    have := hacq c
    cases hc : s.pc c <;> simp_all [Pc.waits, Pc.acquiring]
  exact ⟨by simp [h.waitingWriters, hwait], by simp [h.activeWriter, hnone],
    by simp [h.activeReaders, hr]⟩

def unusedLock (C : Type) : RwSpinlock C where
  waitingWriters := 0
  activeWriter := 0
  activeReaders := 0
  interrupts _ := true
  pc _ := .idle
  writers := []
  readers := []

omit [DecidableEq C] in
lemma initial_unusedLock : Initial (unusedLock C) := ⟨rfl, rfl, rfl, fun _ => rfl, rfl, rfl⟩

def handoverRun (c d : C) : List (Action C) :=
  [.acquire c false, .run c, .run c, .run c, .run c, .acquire d true, .run d, .run d,
    .release c true false, .run c, .run d, .run d]

theorem exclusive_alone_handover :
    ∃ s : RwSpinlock (Fin 2), Reach Initial Step Matched s ∧ s.writers = [1] ∧ s.readers = [] ∧
      ∀ c, s.run c ≠ .error .check := by
  obtain ⟨s, hr, hw⟩ : ∃ s : RwSpinlock (Fin 2), Reach Initial Step Matched s ∧ s.writers = [1] :=
    exists_reach initial_unusedLock (handoverRun 0 1) (by decide)
  obtain ⟨halone, hok, -⟩ := exclusive_alone (by decide) hr
  exact ⟨s, hr, hw, (halone 1 (by simp [hw])).2, hok⟩

end HAL9000.RwSpin
