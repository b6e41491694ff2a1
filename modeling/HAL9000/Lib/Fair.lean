import HAL9000.Lib.Reach

/-!
# Fair runs

`Run step` is an infinite run, in which at each time one step is taken or nothing happens. In a fair
run (`Fair`), an action that stays possible is taken at some time; in a strongly fair one (`StrongFair`), an
action that is possible again and again is. `LeadsTo P Q` says that whenever `P` holds, `Q` holds then or
later. There are two ways to prove it: by one action (`leadsTo_of_fair`, `leadsTo_of_strongFair`), or by a
number that gets smaller (`leadsTo_of_rank`).
-/

namespace Lib

variable {σ α : Type*} {step : σ → α → σ → Prop}

structure Run (step : σ → α → σ → Prop) where
  state : Nat → σ
  action : Nat → Option α
  next : ∀ t,
    match action t with
    | some a => step (state t) a (state (t + 1))
    | none => state (t + 1) = state t

def Enabled (step : σ → α → σ → Prop) (s : σ) (a : α) : Prop := ∃ s', step s a s'

def Run.Fair (r : Run step) : Prop := ∀ a t, ∃ t' ≥ t, r.action t' = some a ∨ ¬ Enabled step (r.state t') a

def Run.StrongFair (r : Run step) : Prop :=
  ∀ a t, (∀ t' ≥ t, ∃ u ≥ t', Enabled step (r.state u) a) → ∃ t' ≥ t, r.action t' = some a

def Run.FairTo (r : Run step) (a : α) : Prop := ∀ t, ∃ t' ≥ t, r.action t' = some a ∨ ¬ Enabled step (r.state t') a

def Run.StrongFairTo (r : Run step) (a : α) : Prop :=
  ∀ t, (∀ t' ≥ t, ∃ u ≥ t', Enabled step (r.state u) a) → ∃ t' ≥ t, r.action t' = some a

/-- Whenever `P` holds, `Q` holds then or later. -/
def Run.LeadsTo (r : Run step) (P Q : σ → Prop) : Prop := ∀ t, P (r.state t) → ∃ t' ≥ t, Q (r.state t')

variable {r : Run step} {P Q R : σ → Prop} {t u n : Nat} {a : α} {last : σ} {loop : Option α}

lemma Run.reach {init : σ → Prop} {ok : σ → α → Prop} (h0 : init (r.state 0))
    (hok : ∀ t a, r.action t = some a → ok (r.state t) a) (t : Nat) :
    Reach init step ok (r.state t) := by
  induction t with
  | zero => exact .start h0
  | succ t ih =>
    have hnext := r.next t
    cases ha : r.action t with rw [ha] at hnext
    | none =>
      rw [hnext]
      exact ih
    | some a => exact .step ih (hok t a ha) hnext

lemma Run.keep (P : σ → Prop)
    (hkeep : ∀ t a, P (r.state t) → step (r.state t) a (r.state (t + 1)) → P (r.state (t + 1))) (t : Nat)
    (h : P (r.state t)) : P (r.state (t + 1)) := by
  have hnext := r.next t
  cases ha : r.action t with rw [ha] at hnext
  | none =>
    rw [hnext]
    exact h
  | some a => exact hkeep t a h hnext

lemma Run.stable (P : σ → Prop) (hkeep : ∀ t, P (r.state t) → P (r.state (t + 1))) {t' : Nat} (hle : t ≤ t')
    (h : P (r.state t)) : P (r.state t') := by
  induction hle with
  | refl => exact h
  | step _ ih => exact hkeep _ ih

lemma Run.forever (hP : P (r.state t))
    (hkeep : ∀ u b, r.action u = some b → P (r.state u) → step (r.state u) b (r.state (u + 1)) →
      P (r.state (u + 1)) ∨ Q (r.state (u + 1)))
    (hno : ∀ u ≥ t, ¬ Q (r.state u)) (hu : t ≤ u) : P (r.state u) := by
  induction hu with
  | refl => exact hP
  | @step u hu ih =>
    have hnext := r.next u
    cases hb : r.action u with rw [hb] at hnext
    | none =>
      rw [hnext]
      exact ih
    | some b => exact (hkeep u b hb ih hnext).resolve_right (hno (u + 1) (Nat.le_succ_of_le hu))

/-- From `P` the action `a` leads to `Q`, and the others lead nowhere else. -/
structure Run.Helps (r : Run step) (a : α) (P Q : σ → Prop) : Prop where
  keep : ∀ t b, r.action t = some b → b ≠ a → P (r.state t) → step (r.state t) b (r.state (t + 1)) →
    P (r.state (t + 1)) ∨ Q (r.state (t + 1))
  act : ∀ t, r.action t = some a → P (r.state t) → step (r.state t) a (r.state (t + 1)) → Q (r.state (t + 1))

lemma Run.Helps.forever (h : r.Helps a P Q) (hP : P (r.state t)) (hno : ∀ u ≥ t, ¬ Q (r.state u)) (hu : t ≤ u) :
    P (r.state u) := by
  refine Run.forever hP (fun t b hb hP hs => ?_) hno hu
  by_cases ha : b = a
  · subst ha
    exact .inr (h.act t hb hP hs)
  · exact h.keep t b hb ha hP hs

/-- The rule for an action that stays enabled. -/
lemma Run.leadsTo_of_fair (hfair : r.FairTo a) (henabled : ∀ t, P (r.state t) → Enabled step (r.state t) a)
    (h : r.Helps a P Q) : r.LeadsTo P Q := by
  intro t hP
  by_contra hno
  have hno : ∀ u ≥ t, ¬ Q (r.state u) := fun u hu hQ => hno ⟨u, hu, hQ⟩
  obtain ⟨u, hu, hor⟩ := hfair t
  have hPu := h.forever hP hno hu
  obtain ha | hdis := hor
  · have hnext := r.next u
    rw [ha] at hnext
    exact hno (u + 1) (Nat.le_succ_of_le hu) (h.act u ha hPu hnext)
  · exact hdis (henabled u hPu)

/-- The rule for an action that is enabled again and again. -/
lemma Run.leadsTo_of_strongFair (hfair : r.StrongFairTo a)
    (henabled : r.LeadsTo P (fun s => Q s ∨ Enabled step s a)) (h : r.Helps a P Q) : r.LeadsTo P Q := by
  intro t hP
  by_contra hno
  have hno : ∀ u ≥ t, ¬ Q (r.state u) := fun u hu hQ => hno ⟨u, hu, hQ⟩
  have hall : ∀ u ≥ t, P (r.state u) := fun u hu => h.forever hP hno hu
  have hagain : ∀ t' ≥ t, ∃ u ≥ t', Enabled step (r.state u) a := by
    intro t' ht'
    obtain ⟨u, hu, hQ | he⟩ := henabled t' (hall t' ht')
    · exact absurd hQ (hno u (Nat.le_trans ht' hu))
    · exact ⟨u, hu, he⟩
  obtain ⟨u, hu, ha⟩ := hfair t hagain
  have hnext := r.next u
  rw [ha] at hnext
  exact hno (u + 1) (Nat.le_succ_of_le hu) (h.act u ha (hall u hu) hnext)

lemma Run.StrongFairTo.fairTo (h : r.StrongFairTo a) : r.FairTo a := by
  intro t
  by_cases hdis : ∃ t' ≥ t, ¬ Enabled step (r.state t') a
  · obtain ⟨t', ht', hd⟩ := hdis
    exact ⟨t', ht', .inr hd⟩
  · push Not at hdis
    obtain ⟨t', ht', ha⟩ := h t fun t' ht' => ⟨t', Nat.le_refl t', hdis t' ht'⟩
    exact ⟨t', ht', .inl ha⟩

lemma Run.StrongFair.fair (h : r.StrongFair) : r.Fair := fun a => StrongFairTo.fairTo (h a)

lemma Run.LeadsTo.trans (h : r.LeadsTo P Q) (h' : r.LeadsTo Q R) : r.LeadsTo P R := by
  intro t hP
  obtain ⟨u, hu, hQ⟩ := h t hP
  obtain ⟨v, hv, hR⟩ := h' u hQ
  exact ⟨v, by omega, hR⟩

lemma Run.LeadsTo.cancel (h : r.LeadsTo P (fun s => R s ∨ Q s)) (h' : r.LeadsTo R Q) : r.LeadsTo P Q := by
  intro t hP
  obtain ⟨u, hu, hR | hQ⟩ := h t hP
  · obtain ⟨v, hv, hQ⟩ := h' u hR
    exact ⟨v, by omega, hQ⟩
  · exact ⟨u, hu, hQ⟩

/-- A rank that gets smaller until the goal is reached. -/
lemma Run.leadsTo_of_rank (f : σ → Nat)
    (h : ∀ n, r.LeadsTo (fun s => P s ∧ f s = n) (fun s => Q s ∨ P s ∧ f s < n)) : r.LeadsTo P Q := by
  suffices gen : ∀ n t, P (r.state t) → f (r.state t) = n → ∃ t' ≥ t, Q (r.state t') from
    fun t hP => gen _ t hP rfl
  intro n
  induction n using Nat.strongRecOn with
  | ind n ih =>
    intro t hP hn
    obtain ⟨u, hu, hQ | ⟨hPu, hlt⟩⟩ := h n t ⟨hP, hn⟩
    · exact ⟨u, hu, hQ⟩
    · obtain ⟨v, hv, hQ⟩ := ih _ hlt u hPu rfl
      exact ⟨v, by omega, hQ⟩

/-- Goals that stay are all reached if each of them is. -/
lemma Run.leadsTo_forall {β : Type*} {Q : β → σ → Prop} {xs : List β} (h : ∀ x ∈ xs, r.LeadsTo P (Q x))
    (hstable : ∀ x t, Q x (r.state t) → Q x (r.state (t + 1))) :
    r.LeadsTo P (fun s => ∀ x ∈ xs, Q x s) := by
  intro t hP
  induction xs with
  | nil => exact ⟨t, Nat.le_refl t, fun x hx => absurd hx List.not_mem_nil⟩
  | cons x xs ih =>
    obtain ⟨u, hu, hall⟩ := ih fun y hy => h y (List.mem_cons_of_mem x hy)
    obtain ⟨v, hv, hx⟩ := h x List.mem_cons_self t hP
    refine ⟨max u v, by omega, fun y hy => ?_⟩
    obtain rfl | hy := List.mem_cons.mp hy
    · exact Run.stable (Q y) (hstable y) (Nat.le_max_right u v) hx
    · exact Run.stable (Q y) (hstable y) (Nat.le_max_left u v) (hall y hy)

section Lists

variable {σ α : Type} {f : σ → α → Exec σ} {ok : σ → α → Prop} [∀ s a, Decidable (ok s a)]

lemma Run.exists_of_foldlM {s last : σ} {as : List α}
    (h : as.foldlM (fun s a => do ensure (ok s a); f s a) s = .ok last) (loop : Option α)
    (hloop : ∀ a, loop = some a → ok last a ∧ f last a = .ok last) :
    ∃ r : Run (fun s a s' => f s a = .ok s'),
      (∀ t, (as.take t).foldlM (fun s a => do ensure (ok s a); f s a) s = .ok (r.state t)) ∧
      (∀ t a, r.action t = some a → ok (r.state t) a) ∧
      ∀ t ≥ as.length, r.state t = last ∧ r.action t = loop := by
  induction as generalizing s with
  | nil =>
    obtain rfl := Except.ok.inj h
    refine ⟨⟨fun _ => s, fun _ => loop, fun t => ?_⟩, fun t => by rw [List.take_nil]; rfl,
      fun t a ha => (hloop a ha).1, fun t _ => ⟨rfl, rfl⟩⟩
    cases loop with
    | none => rfl
    | some a => exact (hloop a rfl).2
  | cons b as ih =>
    rw [List.foldlM_cons, bind_ok] at h
    obtain ⟨s', hb, h⟩ := h
    obtain ⟨_, hok, hs'⟩ := bind_ok.mp hb
    obtain ⟨r, hstate, hr, hend⟩ := ih h
    refine ⟨⟨fun t => t.casesOn s r.state, fun t => t.casesOn (some b) r.action, fun t => ?_⟩, ?_, ?_, ?_⟩
    · cases t with
      | zero =>
        show f s b = .ok (r.state 0)
        rw [hs']
        exact hstate 0
      | succ t => exact r.next t
    · intro t
      cases t with
      | zero => rfl
      | succ t =>
        rw [List.take_succ_cons, List.foldlM_cons, hb, bind_okay]
        exact hstate t
    · intro t a ha
      cases t with
      | zero =>
        obtain rfl := Option.some.inj ha
        exact ensure_ok.mp hok
      | succ t => exact hr t a ha
    · intro t ht
      cases t with
      | zero => cases ht
      | succ t => exact hend t (Nat.le_of_succ_le_succ ht)

end Lists

lemma Run.strongFairTo_of_end (hend : ∀ t ≥ n, r.state t = last ∧ r.action t = loop)
    (hdis : loop = some a ∨ ¬ Enabled step last a) : r.StrongFairTo a := by
  intro t hagain
  obtain ha | hd := hdis
  · exact ⟨max t n, Nat.le_max_left t n, (hend _ (Nat.le_max_right t n)).2.trans ha⟩
  · obtain ⟨u, hu, he⟩ := hagain (max t n) (Nat.le_max_left t n)
    rw [(hend u (Nat.le_trans (Nat.le_max_right t n) hu)).1] at he
    exact absurd he hd

lemma Run.strongFair_of_end (hend : ∀ t ≥ n, r.state t = last ∧ r.action t = loop)
    (hdis : ∀ a, loop = some a ∨ ¬ Enabled step last a) : r.StrongFair :=
  fun a => Run.strongFairTo_of_end hend (hdis a)

lemma Run.fair_of_end (hend : ∀ t ≥ n, r.state t = last ∧ r.action t = loop)
    (hdis : ∀ a, loop = some a ∨ ¬ Enabled step last a) : r.Fair :=
  (Run.strongFair_of_end hend hdis).fair

end Lib
