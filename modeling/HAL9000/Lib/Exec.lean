import Mathlib.Tactic.Common

/-!
# Fallible execution

Code that can stop in the middle of a call returns `Exec α`: either a value, or the `Fault` that
stopped it. The lemmas here are the ones that take a successful run apart, `bind_ok` for `do` blocks,
`ensure_ok` for checks and `foldlM_range` for counting loops, and those for what makes a run succeed (`Returns`).
-/

namespace Lib

inductive Fault where
  /-- A checked condition does not hold. -/
  | check
  /-- The caller asked to be stopped if the call fails. -/
  | demanded
  /-- A pointer that leads to no object was followed. -/
  | wild
  /-- A division by zero. -/
  | divide
  /-- A loop did not finish within its fuel. -/
  | fuel
  /-- The step has to wait for another thread. -/
  | disabled
deriving DecidableEq, Repr

abbrev Exec (α : Type) := Except Fault α

/-- Stop the call unless `p` holds. -/
def ensure (p : Prop) [Decidable p] : Exec Unit :=
  if p then .ok () else .error .check

variable {α β σ : Type} {x : Exec α} {f : α → Exec β} {e : Fault} {p : Prop} {I : Nat → σ → Prop} {n : Nat}

lemma bind_ok {b : β} : x >>= f = .ok b ↔ ∃ a, x = .ok a ∧ f a = .ok b := by
  cases x with
  | error e | ok a => simp [bind, Except.bind]

lemma bind_fault : x >>= f = .error e ↔ x = .error e ∨ ∃ a, x = .ok a ∧ f a = .error e := by
  cases x with
  | error e' | ok a => simp [bind, Except.bind]

@[simp] lemma ensure_ok [Decidable p] {u : Unit} : ensure p = .ok u ↔ p := by
  unfold ensure
  split <;> simp_all

@[simp] lemma ensure_fault [Decidable p] : ensure p = .error e ↔ ¬ p ∧ e = .check := by
  unfold ensure
  split <;> simp_all [eq_comm]

lemma ensure_pos [Decidable p] (h : p) : ensure p = .ok () := if_pos h

lemma ensure_neg [Decidable p] (h : ¬ p) : ensure p = .error .check := if_neg h

@[simp] lemma bind_okay (a : α) (f : α → Exec β) : (Except.ok a : Exec α) >>= f = f a := rfl

@[simp] lemma bind_error (e : Fault) (f : α → Exec β) : (Except.error e : Exec α) >>= f = .error e := rfl

@[simp] lemma throw_error (e : Fault) : (throw e : Exec α) = .error e := rfl

@[simp] lemma pure_okay (a : α) : (pure a : Exec α) = .ok a := rfl

def returns (x : Exec α) (test : α → Bool) : Bool :=
  match x with
  | .ok a => test a
  | .error _ => false

lemma returns_iff {test : α → Bool} : returns x test = true ↔ ∃ a, x = .ok a ∧ test a = true := by
  cases x with
  | error e | ok a => simp [returns]

instance (priority := low) (x : Exec α) (e : Fault) : Decidable (x = .error e) :=
  match x with
  | .error e' => decidable_of_iff (e' = e) (by simp)
  | .ok _ => .isFalse nofun

/-- A call that can be computed: it returns, and what can be tested of the result holds. -/
lemma exists_ok {P : α → Prop} [DecidablePred P] (h : returns x (fun a => decide (P a)) = true) :
    ∃ a, x = .ok a ∧ P a := by
  obtain ⟨a, ha, ht⟩ := returns_iff.mp h
  exact ⟨a, ha, of_decide_eq_true ht⟩

lemma exists_ok_pair {x : Exec (α × β)} {P : α → β → Prop} [∀ a b, Decidable (P a b)]
    (h : returns x (fun r => decide (P r.1 r.2)) = true) : ∃ a b, x = .ok (a, b) ∧ P a b := by
  obtain ⟨⟨a, b⟩, hx, hP⟩ := exists_ok h
  exact ⟨a, b, hx, hP⟩

/-- The call returns, with a result that satisfies `Q`. -/
def Returns (x : Exec α) (Q : α → Prop) : Prop := ∃ a, x = .ok a ∧ Q a

section Returns

variable {Q : α → Prop}

/-- Nothing is asked of the result. -/
lemma returns_true : Returns x (fun _ => True) ↔ ∃ a, x = .ok a := by simp [Returns]

/-- The result is there already. -/
lemma returns_pure {a : α} : Returns (pure a) Q ↔ Q a := by simp [Returns]

/-- A sequence returns if its first part does, and the second one with the result. -/
lemma returns_bind {R : β → Prop} : Returns (x >>= f) R ↔ Returns x fun a => Returns (f a) R := by
  cases x with
  | error e | ok a => simp [Returns]

/-- A choice returns if the branch that is taken does. -/
lemma returns_ite {c : Prop} [Decidable c] {y : Exec α} :
    Returns (if c then x else y) Q ↔ (c → Returns x Q) ∧ (¬ c → Returns y Q) := by
  split <;> simp [*]

end Returns

lemma foldlM_range {f : σ → Nat → Exec σ} {s s' : σ}
    (step : ∀ i t t', i < n → I i t → f t i = .ok t' → I (i + 1) t') (h0 : I 0 s)
    (h : (List.range n).foldlM f s = .ok s') : I n s' := by
  induction n generalizing s' with
  | zero =>
    cases h
    exact h0
  | succ n ih =>
    rw [List.range_succ, List.foldlM_append, bind_ok] at h
    obtain ⟨t, ht, h⟩ := h
    have hI := ih (fun i t t' hi => step i t t' (by omega)) ht
    rw [List.foldlM_cons, bind_ok] at h
    obtain ⟨t', ht', h⟩ := h
    cases h
    exact step n t _ (by omega) hI ht'

lemma foldlM_range_ok {f : σ → Nat → Exec σ} {s : σ}
    (step : ∀ i t, i < n → I i t → ∃ t', f t i = .ok t' ∧ I (i + 1) t') (h0 : I 0 s) :
    ∃ s', (List.range n).foldlM f s = .ok s' ∧ I n s' := by
  induction n with
  | zero => exact ⟨s, rfl, h0⟩
  | succ n ih =>
    obtain ⟨t, ht, hI⟩ := ih (fun i t hi => step i t (by omega))
    obtain ⟨t', ht', hI'⟩ := step n t (by omega) hI
    refine ⟨t', ?_, hI'⟩
    rw [List.range_succ, List.foldlM_append, ht]
    simp [ht']

end Lib
