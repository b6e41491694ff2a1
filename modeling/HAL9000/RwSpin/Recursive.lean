import HAL9000.RwSpin.Exclusion

/-!
# Recursive RW spinlocks: ownership

`Owned s` ties `Holder` and `CurrentRecursivityDepth` to the acquisitions of the CPUs and to the lock
below. `Holder` is read by CPUs that do not have the lock, but it only equals the CPU that reads it if
that CPU has written it. A shared release writes `NULL` to it, which it is already: the CPU still has
the lock shared, so nobody has it exclusively.
-/

namespace HAL9000.RwSpin
open Lib Function

def RecPc.pending : RecPc → Nat
  | .release _ e => if e then 1 else 0
  | .checkOwner _ | .lessen _ | .lessened .. => 1
  | _ => 0

def RecPc.holds : RecPc → Bool
  | .testDepth _ e | .clearHolder _ e => e
  | _ => false

def RecPc.between : RecPc → Pc → Bool
  | .locking _ e, pc => e && pc.owns
  | .unlocking, pc => pc.owns
  | .checkHolder _ e, _ | .checkDepth _ e, _ => e
  | .setDepth _, _ | .setHolder _, _ => true
  | _, _ => false

def RecPc.first : RecPc → Pc → Bool
  | .locking _ e, _ | .clearHolder _ e, _ => e
  | pc, p => pc.between p

def RecPc.shares : RecPc → Pc → Nat
  | .locking _ e, pc => if !e && pc.shares then 1 else 0
  | .unlocking, pc => if pc.shares then 1 else 0
  | .checkHolder _ e, _ | .checkDepth _ e, _ | .release _ e, _ | .testDepth _ e, _
  | .clearHolder _ e, _ => if e then 0 else 1
  | _, _ => 0

def Pc.acquires : Pc → Bool → Bool
  | .announce, e | .claim, e | .withdraw, e => e
  | .pretend, e | .join, e | .joined, e | .confess, e => !e
  | _, _ => false

def Pc.releases : Pc → Bool
  | .release _ | .give _ | .leave _ => true
  | _ => false

def RecPc.covers : RecPc → Pc → Bool
  | .locking _ e, pc => pc.acquires e
  | .unlocking, pc => pc.releases
  | _, pc => pc = .idle

def RecPc.nests : RecPc → Bool
  | .nest _ | .deepen _ | .deepened .. => true
  | _ => false

def RecPc.deepens : RecPc → Bool
  | .deepen _ | .deepened .. => true
  | _ => false

def RecPc.depth : RecPc → Pc → Option Nat
  | .deepened _ d, _ | .lessened _ d, _ => some d
  | .setHolder _, _ => some 1
  | .clearHolder _ e, _ => if e then some 0 else none
  | pc, p => if pc.between p then some 0 else none

def exclusives : List (Bool × Bool) → Nat
  | [] => 0
  | (_, e) :: held => exclusives held + if e then 1 else 0

def shareds : List (Bool × Bool) → Nat
  | [] => 0
  | (_, e) :: held => shareds held + if e then 0 else 1

/-- What a CPU at `pc` and `low` with the acquisitions `held` knows: whether it has the lock below
    exclusively (`w`) and is the holder (`h`), how often it has the lock below shared (`r`), and the
    depth (`n`). -/
structure Knows (pc : RecPc) (low : Pc) (held : List (Bool × Bool)) (w h : Prop) (r n : Nat) :
    Prop where
  covers : pc.covers low = true
  writer : w ↔ 0 < exclusives held + pc.pending ∨ pc.holds = true ∨ pc.between low = true
  readers : r = shareds held + pc.shares low
  holder : h ↔ 0 < exclusives held + pc.pending ∨ pc.holds = true
  depth : h → n = exclusives held + pc.pending
  first : pc.first low = true → exclusives held + pc.pending = 0
  nests : pc.nests = true → h
  deepens : pc.deepens = true → n < 255
  known : pc.depth low = none ∨ pc.depth low = some n

attribute [local grind cases] Knows

attribute [local grind] RecPc.pending RecPc.holds RecPc.between RecPc.first RecPc.shares RecPc.covers
  RecPc.nests RecPc.deepens RecPc.depth exclusives shareds
  Pc.owns Pc.shares Pc.acquires Pc.releases

lemma Knows.any_depth {pc : RecPc} {low : Pc} {held : List (Bool × Bool)} {w h : Prop} {r n : Nat}
    (hk : Knows pc low held w h r n) (hw : ¬ w) (n' : Nat) : Knows pc low held w h r n' := by
  cases pc <;> constructor <;> grind -linarith

variable {C : Type} [DecidableEq C] {s s' : RecRwSpinlock C} {c d : C} {a : Action C} {cs : List C}

inductive RecMove (s : RecRwSpinlock C) (c : C) : RecRwSpinlock C → Prop where
  | again {i} : s.pc c = .test i → s.holder = some c → RecMove s c { s with pc := update s.pc c (.nest i) }
  | lock {i} : s.pc c = .test i → s.holder ≠ some c →
    RecMove s c { s with rwSpinlock := s.rwSpinlock.acquire c true, pc := update s.pc c (.locking i true) }
  | nest {i} : s.pc c = .nest i → s.currentRecursivityDepth < s.maxRecursivityDepth →
    RecMove s c { s with pc := update s.pc c (.deepen i) }
  | deepen {i} : s.pc c = .deepen i →
    RecMove s c { s with pc := update s.pc c (.deepened i s.currentRecursivityDepth) }
  | deepened {i d} : s.pc c = .deepened i d →
    RecMove s c { s with
      currentRecursivityDepth := wadd 8 d 1
      held := update s.held c ((i, true) :: s.held c)
      pc := update s.pc c .idle }
  | locking {i e lock} : s.pc c = .locking i e → Move s.rwSpinlock c lock → lock.pc c ≠ .idle →
    RecMove s c { s with rwSpinlock := lock }
  | locked {i e lock} : s.pc c = .locking i e → Move s.rwSpinlock c lock → lock.pc c = .idle →
    RecMove s c { s with rwSpinlock := lock, pc := update s.pc c (.checkHolder i e) }
  | checkHolder {i e} : s.pc c = .checkHolder i e → RecMove s c { s with pc := update s.pc c (.checkDepth i e) }
  | checkDepth {i} : s.pc c = .checkDepth i true → RecMove s c { s with pc := update s.pc c (.setDepth i) }
  | shared {i} : s.pc c = .checkDepth i false →
    RecMove s c { s with held := update s.held c ((i, false) :: s.held c), pc := update s.pc c .idle }
  | setDepth {i} : s.pc c = .setDepth i →
    RecMove s c { s with currentRecursivityDepth := 1, pc := update s.pc c (.setHolder i) }
  | setHolder {i} : s.pc c = .setHolder i →
    RecMove s c { s with
      holder := some c
      held := update s.held c ((i, true) :: s.held c)
      pc := update s.pc c .idle }
  | releaseExclusive {i} : s.pc c = .release i true → RecMove s c { s with pc := update s.pc c (.checkOwner i) }
  | releaseShared {i} : s.pc c = .release i false →
    RecMove s c { s with pc := update s.pc c (.testDepth i false) }
  | checkOwner {i} : s.pc c = .checkOwner i → RecMove s c { s with pc := update s.pc c (.lessen i) }
  | lessen {i} : s.pc c = .lessen i →
    RecMove s c { s with pc := update s.pc c (.lessened i s.currentRecursivityDepth) }
  | lessened {i d} : s.pc c = .lessened i d →
    RecMove s c { s with currentRecursivityDepth := wsub 8 d 1, pc := update s.pc c (.testDepth i true) }
  | last {i e} : s.pc c = .testDepth i e → s.currentRecursivityDepth = 0 ∨ e = false →
    RecMove s c { s with pc := update s.pc c (.clearHolder i e) }
  | notLast {i} : s.pc c = .testDepth i true → s.currentRecursivityDepth ≠ 0 →
    RecMove s c { s with pc := update s.pc c .idle }
  | clearHolder {i e} : s.pc c = .clearHolder i e →
    RecMove s c { s with
      holder := none
      rwSpinlock := s.rwSpinlock.release c i e
      pc := update s.pc c .unlocking }
  | unlocking {lock} : s.pc c = .unlocking → Move s.rwSpinlock c lock → lock.pc c ≠ .idle →
    RecMove s c { s with rwSpinlock := lock }
  | unlocked {lock} : s.pc c = .unlocking → Move s.rwSpinlock c lock → lock.pc c = .idle →
    RecMove s c { s with rwSpinlock := lock, pc := update s.pc c .idle }

lemma recMove_of_run (h : s.run c = .ok s') : RecMove s c s' := by
  unfold RecRwSpinlock.run at h
  split at h
  · cases h
  · next i hc =>
    split at h <;> cases h
    · exact .again hc ‹_›
    · exact .lock hc ‹_›
  · next i hc =>
    obtain ⟨_, hd, h⟩ := bind_ok.mp h
    cases h
    exact .nest hc (ensure_ok.mp hd)
  · next i hc =>
    cases h
    exact .deepen hc
  · next i d hc =>
    cases h
    exact .deepened hc
  · next i e hc =>
    obtain ⟨lock, hl, h⟩ := bind_ok.mp h
    cases h
    split
    · exact .locked hc (move_of_run hl) ‹_›
    · exact .locking hc (move_of_run hl) ‹_›
  · next i e hc =>
    obtain ⟨_, -, h⟩ := bind_ok.mp h
    cases h
    exact .checkHolder hc
  · next i e hc =>
    obtain ⟨_, -, h⟩ := bind_ok.mp h
    cases e <;> cases h
    · exact .shared hc
    · exact .checkDepth hc
  · next i hc =>
    cases h
    exact .setDepth hc
  · next i hc =>
    cases h
    exact .setHolder hc
  · next i e hc =>
    obtain ⟨_, -, h⟩ := bind_ok.mp h
    cases e <;> cases h
    · exact .releaseShared hc
    · exact .releaseExclusive hc
  · next i hc =>
    obtain ⟨_, -, h⟩ := bind_ok.mp h
    cases h
    exact .checkOwner hc
  · next i hc =>
    cases h
    exact .lessen hc
  · next i d hc =>
    cases h
    exact .lessened hc
  · next i e hc =>
    cases h
    split
    · exact .last hc ‹_›
    · next hd =>
      obtain ⟨h0, he⟩ := not_or.mp hd
      obtain rfl : e = true := by simpa using he
      exact .notLast hc h0
  · next i e hc =>
    cases h
    exact .clearHolder hc
  · next hc =>
    obtain ⟨lock, hl, h⟩ := bind_ok.mp h
    cases h
    split
    · exact .unlocked hc (move_of_run hl) ‹_›
    · exact .unlocking hc (move_of_run hl) ‹_›

/-- Who owns the lock below, who is the holder and what the depth counts. -/
structure Owned (s : RecRwSpinlock C) : Prop where
  counted : ∃ waiters active, Counted waiters active s.rwSpinlock
  knows : ∀ c, Knows (s.pc c) (s.rwSpinlock.pc c) (s.held c) (c ∈ s.rwSpinlock.writers)
    (s.holder = some c) (s.rwSpinlock.readers.count c) s.currentRecursivityDepth
  free : s.rwSpinlock.writers = [] → s.currentRecursivityDepth = 0
  byte : s.currentRecursivityDepth < 2 ^ 8
  max : s.maxRecursivityDepth < 2 ^ 8

lemma Owned.alone (h : Owned s) (hc : c ∈ s.rwSpinlock.writers) (hd : d ∈ s.rwSpinlock.writers) : d = c := by
  obtain ⟨waiters, active, hcount⟩ := h.counted
  rw [(hcount.writers hc).2.1] at hd
  exact List.mem_singleton.mp hd

lemma Owned.holder_mem (h : Owned s) (hc : s.holder = some c) : c ∈ s.rwSpinlock.writers := by
  rw [(h.knows c).writer]
  rcases (h.knows c).holder.mp hc with he | hh
  · exact .inl he
  · exact .inr (.inl hh)

lemma Owned.writers_eq_nil (h : Owned s) (hc : c ∈ s.rwSpinlock.readers) : s.rwSpinlock.writers = [] := by
  obtain ⟨waiters, active, hcount⟩ := h.counted
  refine List.eq_nil_iff_forall_not_mem.mpr fun d hd => ?_
  rw [(hcount.writers hd).2.2] at hc
  cases hc

lemma Move.frame {s s' : RwSpinlock C} (hm : Move s c s') (hd : d ≠ c) :
    s'.pc d = s.pc d ∧ (d ∈ s'.writers ↔ d ∈ s.writers) ∧
      s'.readers.count d = s.readers.count d := by
  have hcd : c ≠ d := Ne.symm hd
  cases hm <;>
    simp [hd, hcd, List.mem_erase_of_ne, List.count_erase_of_ne, List.count_cons_of_ne]

lemma Owned.keep (h : Owned s) (c : C) (hcount : ∃ waiters active, Counted waiters active s'.rwSpinlock)
    (hpc : ∀ d, d ≠ c → s'.pc d = s.pc d ∧ s'.held d = s.held d)
    (hlow : ∀ d, d ≠ c → s'.rwSpinlock.pc d = s.rwSpinlock.pc d ∧
      (d ∈ s'.rwSpinlock.writers ↔ d ∈ s.rwSpinlock.writers) ∧
      s'.rwSpinlock.readers.count d = s.rwSpinlock.readers.count d)
    (hh : ∀ d, d ≠ c → (s'.holder = some d ↔ s.holder = some d))
    (hd : s'.currentRecursivityDepth = s.currentRecursivityDepth ∨ c ∈ s.rwSpinlock.writers)
    (hknows : Knows (s'.pc c) (s'.rwSpinlock.pc c) (s'.held c) (c ∈ s'.rwSpinlock.writers)
      (s'.holder = some c) (s'.rwSpinlock.readers.count c) s'.currentRecursivityDepth)
    (hfree : s'.rwSpinlock.writers = [] → s'.currentRecursivityDepth = 0)
    (hbyte : s'.currentRecursivityDepth < 2 ^ 8)
    (hmax : s'.maxRecursivityDepth = s.maxRecursivityDepth) : Owned s' := by
  refine ⟨hcount, fun d => ?_, hfree, hbyte, hmax ▸ h.max⟩
  by_cases hdc : d = c
  · exact hdc ▸ hknows
  · have hk := h.knows d
    obtain ⟨hl, hw, hr⟩ := hlow d hdc
    rw [(hpc d hdc).1, (hpc d hdc).2, hl, hr, propext hw, propext (hh d hdc)]
    rcases hd with hd | hc
    · rwa [hd]
    · exact hk.any_depth (fun hd => hdc (h.alone hc hd)) _

lemma Owned.goto (h : Owned s) {pc : RecPc}
    (hk : Knows pc (s.rwSpinlock.pc c) (s.held c) (c ∈ s.rwSpinlock.writers) (s.holder = some c)
      (s.rwSpinlock.readers.count c) s.currentRecursivityDepth) :
    Owned { s with pc := update s.pc c pc } :=
  h.keep c h.counted (fun d hd => by simp [hd]) (fun _ _ => ⟨rfl, .rfl, rfl⟩) (fun _ _ => .rfl)
    (.inl rfl) (by simpa using hk) h.free h.byte rfl

lemma Knows.locking {s s' : RwSpinlock C} {i e : Bool} {held : List (Bool × Bool)} {h : Prop}
    {n : Nat} (hm : Move s c s') (h0 : s.activeWriter = 0 → s.writers = [])
    (hfree : s.writers = [] → n = 0)
    (hk : Knows (.locking i e) (s.pc c) held (c ∈ s.writers) h (s.readers.count c) n) :
    Knows (if s'.pc c = .idle then .checkHolder i e else .locking i e) (s'.pc c) held
      (c ∈ s'.writers) h (s'.readers.count c) n ∧ (s'.writers = [] → n = 0) := by
  have hcov : (s.pc c).acquires e = true := hk.covers
  cases hm with
  | spin =>
    rw [if_neg (by rintro hidle; rw [hidle] at hcov; cases hcov)]
    exact ⟨hk, hfree⟩
  | release hp | give hp | leave hp =>
    rw [hp] at hcov
    cases hcov
  | claim hp hz _ =>
    obtain rfl : e = true := by simpa [hp, Pc.acquires] using hcov
    rw [hp] at hk
    simp only [update_self, h0 hz] at hk hfree ⊢
    refine ⟨?_, by simp⟩
    constructor <;> grind -linarith
  | announce hp | withdraw hp =>
    obtain rfl : e = true := by simpa [hp, Pc.acquires] using hcov
    rw [hp] at hk
    simp only [update_self]
    refine ⟨?_, hfree⟩
    constructor <;> grind -linarith
  | pretend hp | join hp | joined hp | confess hp =>
    obtain rfl : e = false := by simpa [hp, Pc.acquires] using hcov
    rw [hp] at hk
    simp only [update_self]
    refine ⟨?_, hfree⟩
    constructor <;> grind -linarith

lemma Knows.unlocking {s s' : RwSpinlock C} {held : List (Bool × Bool)} {h : Prop} {n : Nat}
    (hm : Move s c s') (h1 : c ∈ s.writers → s.writers = [c]) (hfree : s.writers = [] → n = 0)
    (hk : Knows .unlocking (s.pc c) held (c ∈ s.writers) h (s.readers.count c) n) :
    Knows (if s'.pc c = .idle then .idle else .unlocking) (s'.pc c) held
      (c ∈ s'.writers) h (s'.readers.count c) n ∧ (s'.writers = [] → n = 0) := by
  have hcov : (s.pc c).releases = true := hk.covers
  cases hm with
  | spin =>
    rw [if_neg (by rintro hidle; rw [hidle] at hcov; cases hcov)]
    exact ⟨hk, hfree⟩
  | release hp =>
    rw [hp] at hk
    simp only [update_self]
    refine ⟨?_, hfree⟩
    constructor <;> grind -linarith
  | give hp =>
    rw [hp] at hk
    have hw := h1 (hk.writer.mpr (.inr (.inr rfl)))
    simp only [update_self, hw, List.erase_cons_head, List.mem_singleton] at hk ⊢
    refine ⟨?_, by grind -linarith⟩
    constructor <;> grind -linarith
  | leave hp =>
    rw [hp] at hk
    simp only [update_self, List.count_erase_self]
    refine ⟨?_, hfree⟩
    constructor <;> grind -linarith
  | _ hp =>
    rw [hp] at hcov
    cases hcov

lemma Owned.move (h : Owned s) (hm : RecMove s c s') (hroom : Roomy s.rwSpinlock (.run c)) : Owned s' := by
  have hk := h.knows c
  have hmax := h.max
  cases hm with
  | again hc | nest hc | checkHolder hc | checkDepth hc | releaseExclusive hc | releaseShared hc
  | checkOwner hc | deepen hc | lessen hc | notLast hc | last hc =>
    refine h.goto ?_
    rw [hc] at hk
    clear h hroom
    constructor <;> grind -linarith
  | @deepened i d hc =>
    rw [hc] at hk
    have hcw := h.holder_mem (hk.nests rfl)
    have hd : d = s.currentRecursivityDepth := by simpa [RecPc.depth] using hk.known
    have hadd : wadd 8 d 1 = d + 1 := wadd_eq (by have := hk.deepens rfl; omega)
    refine h.keep c h.counted (fun d hd => by simp [hd]) (fun _ _ => ⟨rfl, .rfl, rfl⟩)
      (fun _ _ => .rfl) (.inr hcw) ?_ (fun hw => by simp_all) (wadd_lt ..) rfl
    simp only [update_self, hadd]
    constructor <;> grind -linarith
  | shared hc =>
    rw [hc] at hk
    refine h.keep c h.counted (fun d hd => by simp [hd]) (fun _ _ => ⟨rfl, .rfl, rfl⟩)
      (fun _ _ => .rfl) (.inl rfl) ?_ h.free h.byte rfl
    simp only [update_self]
    constructor <;> grind -linarith
  | setDepth hc =>
    rw [hc] at hk
    have hcw := hk.writer.mpr (.inr (.inr rfl))
    refine h.keep c h.counted (fun d hd => by simp [hd]) (fun _ _ => ⟨rfl, .rfl, rfl⟩)
      (fun _ _ => .rfl) (.inr hcw) ?_ (fun hw => by simp_all) (by simp) rfl
    simp only [update_self]
    constructor <;> grind -linarith
  | setHolder hc =>
    rw [hc] at hk
    have hcw := hk.writer.mpr (.inr (.inr rfl))
    have hother : ∀ d, d ≠ c → (some c = some d ↔ s.holder = some d) := fun d hd =>
      ⟨fun he => absurd (Option.some.inj he).symm hd, fun he => absurd (h.alone hcw (h.holder_mem he)) hd⟩
    refine h.keep c h.counted (fun d hd => by simp [hd]) (fun _ _ => ⟨rfl, .rfl, rfl⟩)
      hother (.inl rfl) ?_ h.free h.byte rfl
    simp only [update_self]
    constructor <;> grind -linarith
  | @lessened i d hc =>
    rw [hc] at hk
    have hcw := hk.writer.mpr (.inl (by simp [RecPc.pending]))
    have hn : d = s.currentRecursivityDepth := by simpa [RecPc.depth] using hk.known
    have hh := hk.holder.mpr (.inl (by simp [RecPc.pending]))
    have hsub : wsub 8 d 1 = exclusives (s.held c) := by
      have hd := hk.depth hh
      have hbyte := h.byte
      simp only [RecPc.pending] at hd
      rw [wsub_eq (by omega) (by omega)]
      omega
    refine h.keep c h.counted (fun d hd => by simp [hd]) (fun _ _ => ⟨rfl, .rfl, rfl⟩)
      (fun _ _ => .rfl) (.inr hcw) ?_ (fun hw => by simp_all) (wsub_lt ..) rfl
    simp only [update_self, hsub]
    constructor <;> grind -linarith
  | lock hc hs =>
    rw [hc] at hk
    have hidle : s.rwSpinlock.pc c = .idle := by simpa [RecPc.covers] using hk.covers
    obtain ⟨waiters, active, hcount⟩ := h.counted
    refine h.keep c ⟨waiters, active, hcount.acquire hidle true⟩ (fun d hd => by simp [hd])
      (fun d hd => by simp [RwSpinlock.acquire, RwSpinlock.goto, hd]) (fun _ _ => .rfl) (.inl rfl) ?_
      h.free h.byte rfl
    rw [hidle] at hk
    simp only [RwSpinlock.acquire, RwSpinlock.goto, update_self, if_true]
    constructor <;> grind -linarith
  | @clearHolder i e hc =>
    rw [hc] at hk
    have hidle : s.rwSpinlock.pc c = .idle := by simpa [RecPc.covers] using hk.covers
    have hhas : if e then c ∈ s.rwSpinlock.writers else c ∈ s.rwSpinlock.readers := by
      cases e with
      | true => exact hk.writer.mpr (.inr (.inl rfl))
      | false => exact List.count_pos_iff.mp (by simp [hk.readers, RecPc.shares])
    have hother : ∀ d, d ≠ c → (none = some d ↔ s.holder = some d) := by
      refine fun d hd => ⟨fun he => (by cases he), fun he => ?_⟩
      have hdw := h.holder_mem he
      cases e with
      | true => exact absurd (h.alone hhas hdw) hd
      | false => simp [h.writers_eq_nil hhas] at hdw
    obtain ⟨waiters, active, hcount⟩ := h.counted
    refine h.keep c ⟨waiters, active, hcount.release hidle i hhas⟩ (fun d hd => by simp [hd])
      (fun d hd => by simp [RwSpinlock.release, RwSpinlock.goto, hd]) hother (.inl rfl) ?_ h.free h.byte rfl
    rw [hidle] at hk
    have hnil : c ∈ s.rwSpinlock.readers → s.rwSpinlock.writers = [] := fun hc => h.writers_eq_nil hc
    clear h hroom hother
    simp only [RwSpinlock.release, RwSpinlock.goto, update_self]
    constructor <;> grind -linarith
  | @locking i e _ hc hm hp | @locked i e _ hc hm hp =>
    obtain ⟨waiters, active, hcount⟩ := h.counted
    rw [hc] at hk
    obtain ⟨hk, hfree⟩ := hk.locking hm hcount.writers_eq_nil h.free
    refine h.keep c (hcount.move hm hroom) (fun d hd => by simp [hd]) (fun d hd => hm.frame hd)
      (fun _ _ => .rfl) (.inl rfl) ?_ hfree h.byte rfl
    simpa [hp, hc] using hk
  | unlocking hc hm hp | unlocked hc hm hp =>
    obtain ⟨waiters, active, hcount⟩ := h.counted
    rw [hc] at hk
    obtain ⟨hk, hfree⟩ := hk.unlocking hm (fun hw => (hcount.writers hw).2.1) h.free
    refine h.keep c (hcount.move hm hroom) (fun d hd => by simp [hd]) (fun d hd => hm.frame hd)
      (fun _ _ => .rfl) (.inl rfl) ?_ hfree h.byte rfl
    simpa [hp, hc] using hk

lemma Owned.acquire (h : Owned s) (hc : s.pc c = .idle) (e : Bool) : Owned (s.acquire c e) := by
  have hk := h.knows c
  rw [hc] at hk
  have hidle : s.rwSpinlock.pc c = .idle := by simpa [RecPc.covers] using hk.covers
  obtain ⟨waiters, active, hcount⟩ := h.counted
  rw [hidle] at hk
  cases e with
  | true =>
    obtain ⟨h1, h2, h3, h4, h5, h6, h7, h8, h9, h10⟩ := hcount
    refine h.keep c ⟨waiters, active, h1, h2, h3, h4, h5, h6, h7, h8, h9, h10⟩
      (fun d hd => by simp [RecRwSpinlock.acquire, hd]) (fun _ _ => ⟨rfl, .rfl, rfl⟩)
      (fun _ _ => .rfl) (.inl rfl) ?_ h.free h.byte rfl
    simp only [RecRwSpinlock.acquire, if_true, update_self, hidle]
    constructor <;> grind -linarith
  | false =>
    refine h.keep c ⟨waiters, active, hcount.acquire hidle false⟩
      (fun d hd => by simp [RecRwSpinlock.acquire, hd])
      (fun d hd => by simp [RecRwSpinlock.acquire, RwSpinlock.acquire, RwSpinlock.goto, hd])
      (fun _ _ => .rfl) (.inl rfl) ?_ h.free h.byte rfl
    simp only [RecRwSpinlock.acquire, RwSpinlock.acquire, RwSpinlock.goto, Bool.false_eq_true,
      if_false, update_self]
    constructor <;> grind -linarith

lemma Owned.release (h : Owned s) (hc : s.pc c = .idle) {i e : Bool}
    (hhead : (s.held c).head? = some (i, e)) : Owned (s.release c i e) := by
  have hk := h.knows c
  rw [hc] at hk
  obtain ⟨held, hheld⟩ : ∃ held, s.held c = (i, e) :: held := List.head?_eq_some_iff.mp hhead
  refine h.keep c h.counted (fun d hd => by simp [RecRwSpinlock.release, hd])
    (fun _ _ => ⟨rfl, .rfl, rfl⟩) (fun _ _ => .rfl) (.inl rfl) ?_ h.free h.byte rfl
  simp only [RecRwSpinlock.release, update_self, hheld, List.tail_cons] at hk ⊢
  cases e <;> constructor <;> grind -linarith

lemma Owned.step (h : Owned s) (hn : Nested s a) (hroom : Roomy s.rwSpinlock a) (hst : RecStep s a s') :
    Owned s' := by
  cases a with simp only [RecStep, RecRwSpinlock.next] at hst
  | acquire c e =>
    split at hst <;> cases hst
    exact h.acquire ‹_› e
  | release c i e =>
    split at hst <;> cases hst
    exact h.release ‹_› hn
  | run c => exact h.move (recMove_of_run hst) hroom

lemma RecInitial.owned (h : RecInitial s) : Owned s := by
  refine ⟨⟨∅, none, h.rwSpinlock.counted⟩, fun c => ?_, fun _ => h.currentRecursivityDepth, ?_,
    h.maxRecursivityDepth.2⟩
  · rw [h.pc, h.rwSpinlock.pc, h.held, h.rwSpinlock.writers, h.rwSpinlock.readers, h.holder]
    constructor <;> simp [RecPc.covers, exclusives, shareds, RecPc.pending, RecPc.holds, RecPc.between,
      RecPc.shares, RecPc.first, RecPc.nests, RecPc.deepens, RecPc.depth]
  · simp [h.currentRecursivityDepth]

/-- `Holder` and `CurrentRecursivityDepth` record who owns the lock exclusively and how often. -/
structure Recorded (s : RecRwSpinlock C) : Prop where
  /-- A CPU in no call is the holder if it has exclusive acquisitions. -/
  holder : ∀ {c}, s.pc c = .idle → (s.holder = some c ↔ 0 < exclusives (s.held c))
  /-- The depth is their number. -/
  depth : ∀ {c}, s.pc c = .idle → s.holder = some c →
    s.currentRecursivityDepth = exclusives (s.held c)
  /-- The holder has the lock below. -/
  owner : ∀ {c}, s.holder = some c → s.rwSpinlock.writers = [c]
  /-- Nothing is recorded while nobody has the lock below exclusively. -/
  free : s.rwSpinlock.writers = [] → s.holder = none ∧ s.currentRecursivityDepth = 0
  /-- The lock below is only released when the depth is zero. -/
  last : ∀ {a s' c}, RecStep s a s' → c ∈ s.rwSpinlock.writers → c ∉ s'.rwSpinlock.writers →
    s.currentRecursivityDepth = 0
  /-- The call that brings the depth to zero does not return before it is. -/
  released : ∀ {c}, s.pc c = .idle → s.currentRecursivityDepth = 0 → c ∉ s.rwSpinlock.writers
  /-- An exclusive owner of the lock below is its only owner. -/
  exclusion : ∀ {c}, c ∈ s.rwSpinlock.writers → s.rwSpinlock.writers = [c] ∧
    s.rwSpinlock.readers = []
  /-- Nobody else has an acquisition while a CPU has an exclusive one. -/
  alone : ∀ {c d}, 0 < exclusives (s.held c) →
    shareds (s.held d) = 0 ∧ (0 < exclusives (s.held d) → d = c)

lemma Move.give_of_mem {s s' : RwSpinlock C} (hm : Move s d s') (hc : c ∈ s.writers)
    (hc' : c ∉ s'.writers) : ∃ i, s.pc c = .give i := by
  cases hm with
  | give hp =>
    by_cases hcd : c = d
    · exact ⟨_, hcd ▸ hp⟩
    · exact absurd ((List.mem_erase_of_ne hcd).mpr hc) hc'
  | claim => exact absurd (List.mem_cons_of_mem d hc) hc'
  | _ => exact absurd hc hc'

lemma give_of_step (hst : RecStep s a s') (hc : c ∈ s.rwSpinlock.writers) (hc' : c ∉ s'.rwSpinlock.writers) :
    ∃ i, s.rwSpinlock.pc c = .give i := by
  cases a with simp only [RecStep, RecRwSpinlock.next] at hst
  | acquire d e =>
    split at hst <;> cases hst
    cases e <;> exact absurd hc hc'
  | release d i e =>
    split at hst <;> cases hst
    exact absurd hc hc'
  | run d =>
    cases recMove_of_run hst with
    | locking _ hm _ | locked _ hm _ | unlocking _ hm _ | unlocked _ hm _ => exact hm.give_of_mem hc hc'
    | @clearHolder i e _ => cases e <;> exact absurd hc hc'
    | _ => exact absurd hc hc'

/-- While no more than 65535 CPUs share the lock, the holder and the depth describe its exclusive owner. -/
theorem recursive_recorded
    (hr : Reach RecInitial RecStep (fun s a => Nested s a ∧ Roomy s.rwSpinlock a) s) :
    Recorded s := by
  have h : Owned s := hr.invariant (fun s hi => hi.owned)
    fun s a s' h ⟨hn, hroom⟩ hst => h.step hn hroom hst
  have hexcl {c} (hc : 0 < exclusives (s.held c)) : c ∈ s.rwSpinlock.writers :=
    (h.knows c).writer.mpr (.inl (by omega))
  obtain ⟨waiters, active, hcount⟩ := h.counted
  constructor
  case holder =>
    intro c hc
    simpa [hc, RecPc.pending, RecPc.holds] using (h.knows c).holder
  case depth =>
    intro c hc hh
    simpa [hc, RecPc.pending] using (h.knows c).depth hh
  case owner => exact fun hh => (hcount.writers (h.holder_mem hh)).2.1
  case free =>
    intro hw
    refine ⟨Option.eq_none_iff_forall_ne_some.mpr fun c hc => ?_, h.free hw⟩
    simpa [hw] using h.holder_mem hc
  case last =>
    intro a s' c hst hc hc'
    obtain ⟨i, hi⟩ := give_of_step hst hc hc'
    have hk := h.knows c
    rw [hi] at hk
    have hknown := hk.known
    cases hp : s.pc c <;> have hcov := hk.covers <;> rw [hp] at hcov hknown <;>
      simp_all [RecPc.covers, Pc.acquires, RecPc.depth, RecPc.between, Pc.owns]
  case released =>
    intro c hc h0 hw
    have hk := h.knows c
    rw [hc] at hk
    have hh : s.holder = some c := hk.holder.mpr (by simpa [RecPc.between] using hk.writer.mp hw)
    have hpos := hk.holder.mp hh
    have hd := hk.depth hh
    simp only [RecPc.holds, Bool.false_eq_true, or_false] at hpos
    omega
  case exclusion => exact fun hc => (hcount.writers hc).2
  case alone =>
    intro c d hc
    have hw := hexcl hc
    refine ⟨?_, fun hd => h.alone hw (hexcl hd)⟩
    have hk := (h.knows d).readers
    rw [(hcount.writers hw).2.2] at hk
    simp at hk
    omega

instance (s : RecRwSpinlock C) : (a : Action C) → Decidable (Nested s a)
  | .acquire .. => .isTrue trivial
  | .release c i e => inferInstanceAs (Decidable ((s.held c).head? = some (i, e)))
  | .run _ => .isTrue trivial

def sharedBy (cs : List C) : RecRwSpinlock C where
  rwSpinlock :=
    { waitingWriters := 0
      activeWriter := 0
      activeReaders := cs.length % 2 ^ 16
      interrupts := fun c => decide (c ∉ cs)
      pc := fun _ => .idle
      writers := []
      readers := cs }
  currentRecursivityDepth := 0
  maxRecursivityDepth := 2
  holder := none
  pc _ := .idle
  held c := if c ∈ cs then [(true, false)] else []

def sharedRun (c : C) : List (Action C) := .acquire c false :: List.replicate 6 (.run c)

def exclusiveRun (c : C) : List (Action C) := .acquire c true :: List.replicate 8 (.run c)

lemma sharedRun_sharedBy (hc : c ∉ cs) :
    (sharedRun c).foldlM (fun s a => do ensure (Nested s a); s.next a) (sharedBy cs) =
      .ok (sharedBy (c :: cs)) := by
  simp [sharedRun, sharedBy, List.replicate, Nested, ensure, RecRwSpinlock.next,
    RecRwSpinlock.acquire, RecRwSpinlock.run, RecRwSpinlock.goto, RecRwSpinlock.acquired,
    RwSpinlock.acquire, RwSpinlock.run, RwSpinlock.goto, interlockedCompareExchange, hc]
  refine ⟨⟨by decide, wadd_mod _, ?_⟩, ?_⟩
  all_goals
    funext d
    by_cases hd : d = c <;> simp [hd]

lemma exclusiveRun_sharedBy (hc : c ∉ cs) (hcs : cs.length % 65536 = 0) :
    ∃ s, (exclusiveRun c).foldlM (fun s a => do ensure (Nested s a); s.next a) (sharedBy cs) = .ok s ∧
      s.rwSpinlock.writers = [c] ∧ s.rwSpinlock.readers = cs := by
  simp [exclusiveRun, sharedBy, List.replicate, Nested, ensure, RecRwSpinlock.next,
    RecRwSpinlock.acquire, RecRwSpinlock.run, RecRwSpinlock.goto, RecRwSpinlock.acquired,
    RwSpinlock.acquire, RwSpinlock.run, RwSpinlock.goto, interlockedCompareExchange, hc, hcs]

lemma recInitial_sharedBy : RecInitial (sharedBy ([] : List C)) := by
  constructor <;> first | exact ⟨rfl, rfl, rfl, fun _ => rfl, rfl, rfl⟩ | simp [sharedBy]

lemma reach_sharedBy (cs : List C) (hcs : cs.Nodup) : Reach RecInitial RecStep Nested (sharedBy cs) := by
  induction cs with
  | nil => exact .start recInitial_sharedBy
  | cons c cs ih =>
    obtain ⟨hc, hcs⟩ := List.nodup_cons.mp hcs
    exact (ih hcs).run (sharedRun_sharedBy hc)

/-- A writer gets the lock that 65536 CPUs share. -/
theorem shared_by_65536 : ∃ s : RecRwSpinlock (Fin 65537), Reach RecInitial RecStep Nested s ∧ ¬ Recorded s := by
  have hmem : Fin.last 65536 ∉ (List.finRange 65536).map Fin.castSucc := fun h => by
    obtain ⟨x, -, hx⟩ := List.mem_map.mp h
    exact Fin.castSucc_ne_last x hx
  have hnodup := (List.nodup_finRange 65536).map (Fin.castSucc_injective 65536)
  obtain ⟨s, hs, hw, hr⟩ := exclusiveRun_sharedBy hmem (by simp)
  refine ⟨s, (reach_sharedBy _ hnodup).run hs, fun h => ?_⟩
  have hnil := (h.exclusion (c := Fin.last 65536) (by simp [hw])).2
  rw [hr] at hnil
  have hlen := congrArg List.length hnil
  simp at hlen

def nestedRun (c d : C) : List (Action C) := exclusiveRun c ++ [.acquire d true, .run d, .run d, .run d] ++
    (.acquire c true :: List.replicate 4 (.run c)) ++
    (.release c false true :: List.replicate 5 (.run c))

theorem recursive_recorded_nested : ∃ s : RecRwSpinlock (Fin 2),
      Reach RecInitial RecStep (fun s a => Nested s a ∧ Roomy s.rwSpinlock a) s ∧
        s.holder = some 0 ∧ s.currentRecursivityDepth = 1 ∧ s.held 0 = [(true, true)] ∧ Recorded s := by
  obtain ⟨s, hr, hh, hd, hheld⟩ : ∃ s : RecRwSpinlock (Fin 2),
      Reach RecInitial RecStep (fun s a => Nested s a ∧ Roomy s.rwSpinlock a) s ∧ s.holder = some 0 ∧
        s.currentRecursivityDepth = 1 ∧ s.held 0 = [(true, true)] :=
    exists_reach recInitial_sharedBy (nestedRun 0 1) (by decide)
  exact ⟨s, hr, hh, hd, hheld, recursive_recorded hr⟩

end HAL9000.RwSpin
