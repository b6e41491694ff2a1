import HAL9000.Lib.Exec

/-!
# Programs with a state and a status

`Prog σ ε α` is code that works on a state and returns a value or fails with a status; either way the
state is the one it has left behind. It may also be stopped by a `Fault`, and then nothing is left.

`Runs bad x s Q` is the program logic: started in `s`, the program is not stopped by a fault that is
`bad`, and if it returns, what it returns and the state satisfy `Q`. With all faults bad this is total
correctness, with none partial correctness; with a single one it says that this one does not happen.
-/

namespace Lib

variable {σ ε α β : Type}

/-- Code that works on a state of type `σ`, and returns a value or fails with a status. -/
def Prog (σ ε α : Type) : Type := σ → Exec (Except ε α × σ)

namespace Prog

instance : Monad (Prog σ ε) where
  pure a := fun s => .ok (.ok a, s)
  bind x f := fun s =>
    match x s with
    | .error e => .error e
    | .ok (.error st, s') => .ok (.error st, s')
    | .ok (.ok a, s') => f a s'

def fail (st : ε) : Prog σ ε α := fun s => .ok (.error st, s)

def fault (e : Fault) : Prog σ ε α := fun _ => .error e

/-- Stop unless `p` holds. -/
def assert (p : Prop) [Decidable p] : Prog σ ε Unit := fun s => (ensure p).map fun _ => (.ok (), s)

def get : Prog σ ε σ := fun s => .ok (.ok s, s)

def modify (f : σ → σ) : Prog σ ε Unit := fun s => .ok (.ok (), f s)

def ofExcept (x : Except ε α) : Prog σ ε α := fun s => .ok (x, s)

def ofExec (x : Exec α) : Prog σ ε α := fun s => x.map fun a => (.ok a, s)

def when (b : Bool) (x : Prog σ ε Unit) : Prog σ ε Unit := if b then x else pure ()

def attempt (x : Prog σ ε α) : Prog σ ε (Except ε α) := fun s => (x s).map fun p => (.ok p.1, p.2)

section Eval

variable {x : Prog σ ε α} {f : α → Prog σ ε β} {s s' : σ} {a : α} {b : β} {st : ε} {e : Fault} {p : Prop}

lemma bind_of_ok (h : x s = .ok (.ok a, s')) : (x >>= f) s = f a s' := by
  simp only [bind, h]

lemma bind_of_fail (h : x s = .ok (.error st, s')) : (x >>= f) s = .ok (.error st, s') := by
  simp only [bind, h]

lemma bind_of_fault (h : x s = .error e) : (x >>= f) s = .error e := by
  simp only [bind, h]

@[simp] lemma pure_apply : (pure a : Prog σ ε α) s = .ok (.ok a, s) := rfl

@[simp] lemma fail_apply : (fail st : Prog σ ε α) s = .ok (.error st, s) := rfl

@[simp] lemma get_apply : (get : Prog σ ε σ) s = .ok (.ok s, s) := rfl

@[simp] lemma modify_apply {g : σ → σ} : (modify g : Prog σ ε Unit) s = .ok (.ok (), g s) := rfl

@[simp] lemma pure_bind : ((pure a : Prog σ ε α) >>= f) = f a := rfl

@[simp] lemma ofExcept_ok_bind : ((ofExcept (.ok a) : Prog σ ε α) >>= f) = f a := rfl

@[simp] lemma fault_bind : ((fault e : Prog σ ε α) >>= f) = fault e := rfl

lemma attempt_of_ok {r : Except ε α} (h : x s = .ok (r, s')) : attempt x s = .ok (.ok r, s') := by
  rw [attempt, h]
  rfl

lemma attempt_of_fault (h : x s = .error e) : attempt x s = .error e := by
  rw [attempt, h]
  rfl

lemma assert_pos [Decidable p] (h : p) : (assert p : Prog σ ε Unit) = pure () := by
  funext s
  rw [assert, ensure_pos h]
  rfl

lemma assert_neg [Decidable p] (h : ¬ p) : (assert p : Prog σ ε Unit) = fault .check := by
  funext s
  rw [assert, ensure_neg h]
  rfl

lemma bind_eq_ok : (x >>= f) s = .ok (.ok b, s') ↔ ∃ a s1, x s = .ok (.ok a, s1) ∧ f a s1 = .ok (.ok b, s') := by
  simp only [bind]
  split
  · next h => simp [h]
  · next h => simp [h]
  · next a s1 h =>
    rw [h]
    constructor
    · exact fun hf => ⟨a, s1, rfl, hf⟩
    · rintro ⟨a', s1', heq, hf⟩
      cases heq
      exact hf

/-- A sequence is stopped in its first or in its second part. -/
lemma bind_eq_fault : (x >>= f) s = .error e ↔ x s = .error e ∨ ∃ a s1, x s = .ok (.ok a, s1) ∧
    f a s1 = .error e := by
  simp only [bind]
  split
  · next h => simp [h]
  · next h => simp [h]
  · next a s1 h => simp [h]

/-- A computation without a state is stopped by its own fault. -/
lemma ofExec_eq_fault {y : Exec α} : (ofExec y : Prog σ ε α) s = .error e ↔ y = .error e := by
  cases y with
  | error e' | ok a => simp [ofExec, Except.map]

/-- A run that can be computed. -/
lemma exists_of_any {p : α → σ → Bool} (h : returns (x s) (fun r => r.1.toOption.any (p · r.2)) = true) :
    ∃ a s', x s = .ok (.ok a, s') ∧ p a s' = true := by
  obtain ⟨⟨r, s'⟩, hrun, htest⟩ := returns_iff.mp h
  cases r with
  | error st => cases htest
  | ok a => exact ⟨a, s', hrun, htest⟩

lemma exists_of_returns [DecidableEq α] {P : σ → Prop} [DecidablePred P]
    (h : returns (x s) (fun r => r.1.toOption.any fun b => decide (b = a ∧ P r.2)) = true) :
    ∃ s', x s = .ok (.ok a, s') ∧ P s' := by
  obtain ⟨_, s', hrun, htest⟩ := exists_of_any (p := fun b s => decide (b = a ∧ P s)) h
  obtain ⟨rfl, hP⟩ := of_decide_eq_true htest
  exact ⟨s', hrun, hP⟩

lemma bind_pure (x : Prog σ ε α) : (x >>= pure) = x := by
  funext s
  simp only [bind]
  obtain e | ⟨st | a, s'⟩ := x s
  · rfl
  · rfl
  · rfl

end Eval

/-- Started in `s`, the program is not stopped by a bad fault, and what it returns satisfies `Q`. -/
def Runs (bad : Fault → Prop) (x : Prog σ ε α) (s : σ) (Q : Except ε α → σ → Prop) : Prop :=
  match x s with
  | .error e => ¬ bad e
  | .ok (r, s') => Q r s'

section Rules

variable {bad : Fault → Prop} {x : Prog σ ε α} {f : α → Prog σ ε β} {s s' : σ} {Q R : Except ε α → σ → Prop}
  {P : Except ε β → σ → Prop} {a : α} {st : ε} {e : Fault} {r : Except ε α} {p : Prop} {y : Exec α}

lemma Runs.of_eq (h : x s = .ok (r, s')) (hQ : Q r s') : Runs bad x s Q := by
  rw [Runs, h]
  exact hQ

/-- A run that is known to be stopped. -/
lemma Runs.of_fault (h : x s = .error e) (hb : ¬ bad e) : Runs bad x s Q := by
  rw [Runs, h]
  exact hb

lemma Runs.apply (h : Runs bad x s Q) (hr : x s = .ok (r, s')) : Q r s' := by
  rw [Runs, hr] at h
  exact h

lemma Runs.ne {r : Fault} (h : Runs bad x s Q) (hb : bad r) : x s ≠ .error r := by
  intro hr
  rw [Runs, hr] at h
  exact h hb

lemma Runs.returns (h : Runs (fun _ => True) x s Q) : ∃ r s', x s = .ok (r, s') ∧ Q r s' := by
  rw [Runs] at h
  split at h
  · exact absurd trivial h
  · next r s' hr => exact ⟨r, s', hr, h⟩

lemma Runs.mono (h : Runs bad x s Q) (hQ : ∀ r s', Q r s' → R r s') : Runs bad x s R := by
  rw [Runs] at h ⊢
  split
  · next he =>
    rw [he] at h
    exact h
  · next r s' he =>
    rw [he] at h
    exact hQ r s' h

/-- What is known of the result without looking at the faults can be added. -/
lemma Runs.and (h : Runs bad x s Q) (h' : Runs (fun _ => False) x s R) :
    Runs bad x s fun r s' => Q r s' ∧ R r s' := by
  rw [Runs] at *
  split
  · next he =>
    rw [he] at h
    exact h
  · next he =>
    rw [he] at h h'
    exact ⟨h, h'⟩

lemma Runs.pure (h : Q (.ok a) s) : Runs bad (pure a : Prog σ ε α) s Q := h

lemma Runs.fail (h : Q (.error st) s) : Runs bad (fail st : Prog σ ε α) s Q := h

lemma Runs.fault (h : ¬ bad e) : Runs bad (fault e : Prog σ ε α) s Q := h

lemma Runs.assert [Decidable p] {Q : Except ε Unit → σ → Prop} (hbad : bad .check → p) (h : p → Q (.ok ()) s) :
    Runs bad (assert p) s Q := by
  by_cases hp : p
  · rw [assert_pos hp]
    exact .pure (h hp)
  · rw [assert_neg hp]
    exact .fault fun hb => hp (hbad hb)

lemma Runs.bind (h : Runs bad x s fun r s' =>
      match r with
      | .ok a => Runs bad (f a) s' P
      | .error st => P (.error st) s') : Runs bad (x >>= f) s P := by
  rw [Runs] at h ⊢
  simp only [Bind.bind]
  split at h
  · next he =>
    rw [he]
    exact h
  · next r s' he =>
    rw [he]
    cases r with
    | error st => exact h
    | ok a => exact h

/-- A bind, from what its first part does. -/
lemma Runs.seq (h : Runs bad x s Q) (hok : ∀ a s', Q (.ok a) s' → Runs bad (f a) s' P)
    (hfail : ∀ st s', Q (.error st) s' → P (.error st) s') : Runs bad (x >>= f) s P := by
  refine .bind (h.mono ?_)
  rintro (st | a) s' hQ
  · exact hfail st s' hQ
  · exact hok a s' hQ

lemma Runs.bind_of_ok (h : x s = .ok (.ok a, s')) (hf : Runs bad (f a) s' P) : Runs bad (x >>= f) s P := by
  rw [Runs, Prog.bind_of_ok h]
  exact hf

lemma Runs.assert_bind [Decidable p] {f : Unit → Prog σ ε β} (hbad : bad .check → p) (h : p → Runs bad (f ()) s P) :
    Runs bad (Prog.assert p >>= f) s P :=
  .bind (.assert hbad h)

lemma Runs.ite [Decidable p] {y : Prog σ ε α} (hx : p → Runs bad x s Q) (hy : ¬ p → Runs bad y s Q) :
    Runs bad (if p then x else y) s Q := by
  split
  · next h => exact hx h
  · next h => exact hy h

lemma Runs.ofExcept {y : Except ε α} (h : Q y s) : Runs bad (ofExcept y) s Q := h

lemma Runs.ofExec (herr : ∀ e, y = .error e → ¬ bad e) (hok : ∀ a, y = .ok a → Q (.ok a) s) :
    Runs bad (ofExec y) s Q := by
  cases y with
  | error e => exact herr e rfl
  | ok a => exact hok a rfl

lemma Runs.ofExec_bind (herr : ∀ e, y = .error e → ¬ bad e) (hok : ∀ a, y = .ok a → Runs bad (f a) s P) :
    Runs bad (Prog.ofExec y >>= f) s P :=
  .bind (.ofExec herr hok)

lemma Runs.attempt {Q : Except ε (Except ε α) → σ → Prop} (h : Runs bad x s fun r s' => Q (.ok r) s') :
    Runs bad (attempt x) s Q := by
  rw [Runs] at h ⊢
  rw [Prog.attempt]
  split at h
  · next he =>
    rw [he]
    exact h
  · next r s' he =>
    rw [he]
    exact h

end Rules

/-- The program does not look at the state and leaves it as it is. -/
def Steady (x : Prog σ ε α) : Prop := ∃ r : Exec (Except ε α), ∀ s, x s = r.map (·, s)

section Steady

variable {x : Prog σ ε α} {f : α → Prog σ ε β}

/-- A value does not depend on the state. -/
lemma Steady.pure (a : α) : Steady (pure a : Prog σ ε α) := ⟨.ok (.ok a), fun _ => rfl⟩

/-- A failure does not depend on the state. -/
lemma Steady.fail (st : ε) : Steady (fail st : Prog σ ε α) := ⟨.ok (.error st), fun _ => rfl⟩

/-- A fault does not depend on the state. -/
lemma Steady.fault (e : Fault) : Steady (fault e : Prog σ ε α) := ⟨.error e, fun _ => rfl⟩

/-- A computation without a state does not depend on it. -/
lemma Steady.ofExcept (y : Except ε α) : Steady (ofExcept y : Prog σ ε α) := ⟨.ok y, fun _ => rfl⟩

/-- A computation that can be stopped does not depend on the state. -/
lemma Steady.ofExec (y : Exec α) : Steady (ofExec y : Prog σ ε α) := by
  cases y with
  | error e => exact .fault e
  | ok a => exact .pure a

/-- An assertion does not depend on the state. -/
lemma Steady.assert (p : Prop) [Decidable p] : Steady (assert p : Prog σ ε Unit) := by
  by_cases hp : p
  · rw [assert_pos hp]
    exact .pure ()
  · rw [assert_neg hp]
    exact .fault .check

/-- Programs that do not look at the state can be put together. -/
lemma Steady.bind (hx : Steady x) (hf : ∀ a, Steady (f a)) : Steady (x >>= f) := by
  obtain ⟨r, hr⟩ := hx
  rcases r with e | st | a
  · exact ⟨.error e, fun s => bind_of_fault (hr s)⟩
  · exact ⟨.ok (.error st), fun s => bind_of_fail (hr s)⟩
  · obtain ⟨r', hr'⟩ := hf a
    exact ⟨r', fun s => (bind_of_ok (hr s)).trans (hr' s)⟩

/-- A choice between programs that do not look at the state is one. -/
lemma Steady.ite {p : Prop} [Decidable p] {y : Prog σ ε α} (hx : Steady x) (hy : Steady y) :
    Steady (if p then x else y) := by
  split
  · exact hx
  · exact hy

end Steady

end Prog

end Lib
