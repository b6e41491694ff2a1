import HAL9000.Lib.Exec

/-!
# Runs of a transition system

`Reach init step ok` holds of the states at the end of a finite run that starts in `init` and whose
steps all meet `ok` in the state they start from. With `ok` always true these are the reachable
states.
-/

namespace Lib

variable {σ ε : Type*}

/-- The states reached from `init` by steps that all meet `ok`. -/
inductive Reach (init : σ → Prop) (step : σ → ε → σ → Prop) (ok : σ → ε → Prop) : σ → Prop where
  | start {s} : init s → Reach init step ok s
  | step {s e s'} : Reach init step ok s → ok s e → step s e s' → Reach init step ok s'

variable {init I : σ → Prop} {step : σ → ε → σ → Prop} {ok : σ → ε → Prop} {s : σ}

/-- What holds at the start and is kept by every step that meets `ok` holds in every state reached. -/
theorem Reach.invariant (hr : Reach init step ok s) (h0 : ∀ s, init s → I s)
    (h1 : ∀ s e s', I s → ok s e → step s e s' → I s') : I s := by
  induction hr with
  | start hi => exact h0 _ hi
  | step _ hok hst ih => exact h1 _ _ _ ih hok hst

lemma Reach.mono {step' : σ → ε → σ → Prop} {ok' : σ → ε → Prop} (hr : Reach init step ok s)
    (hok : ∀ s e, ok s e → ok' s e) (hle : ∀ s e s', step s e s' → step' s e s') : Reach init step' ok' s := by
  induction hr with
  | start hi => exact .start hi
  | step _ hok' hst ih => exact .step ih (hok _ _ hok') (hle _ _ _ hst)

lemma Reach.start_mono (hr : Reach init step ok s) (init' : σ → Prop) (hinit : ∀ s, init s → init' s) :
    Reach init' step ok s := by
  induction hr with
  | start hi => exact .start (hinit _ hi)
  | step _ hok hst ih => exact .step ih hok hst

lemma Reach.run {σ ε : Type} {init : σ → Prop} {ok : σ → ε → Prop} [∀ s e, Decidable (ok s e)]
    {f : σ → ε → Exec σ} {s s' : σ} {es : List ε}
    (hs : Reach init (fun s e s' => f s e = .ok s') ok s)
    (h : es.foldlM (fun s e => do ensure (ok s e); f s e) s = .ok s') :
    Reach init (fun s e s' => f s e = .ok s') ok s' := by
  induction es generalizing s with
  | nil =>
    cases h
    exact hs
  | cons e es ih =>
    rw [List.foldlM_cons, bind_ok] at h
    obtain ⟨u, hu, h⟩ := h
    obtain ⟨_, hok, hu⟩ := bind_ok.mp hu
    exact ih (hs.step (ensure_ok.mp hok) hu) h

lemma Reach.foldlM {σ ε : Type} {init : σ → Prop} {ok : σ → ε → Prop} [∀ s e, Decidable (ok s e)]
    {f : σ → ε → Exec σ} {s s' : σ} {es : List ε} (hs : init s)
    (h : es.foldlM (fun s e => do ensure (ok s e); f s e) s = .ok s') :
    Reach init (fun s e s' => f s e = .ok s') ok s' :=
  (Reach.start hs).run h

/-- A run that can be computed: a state is reached at its end, and what can be tested of it holds. -/
lemma exists_reach_of {σ ε : Type} {init : σ → Prop} {step : σ → ε → σ → Prop} {ok : σ → ε → Prop}
    [∀ s e, Decidable (ok s e)] {f : σ → ε → Exec σ} {P : σ → Prop} [DecidablePred P] {s : σ}
    (hf : ∀ s e s', f s e = .ok s' → step s e s') (hs : init s) (es : List ε)
    (h : returns (es.foldlM (fun s e => do ensure (ok s e); f s e) s) (fun s => decide (P s)) = true) :
    ∃ s, Reach init step ok s ∧ P s := by
  obtain ⟨s', hs', hP⟩ := exists_ok h
  exact ⟨s', (Reach.foldlM hs hs').mono (fun _ _ h => h) hf, hP⟩

lemma exists_reach {σ ε : Type} {init : σ → Prop} {ok : σ → ε → Prop} [∀ s e, Decidable (ok s e)]
    {f : σ → ε → Exec σ} {P : σ → Prop} [DecidablePred P] {s : σ} (hs : init s) (es : List ε)
    (h : returns (es.foldlM (fun s e => do ensure (ok s e); f s e) s) (fun s => decide (P s)) = true) :
    ∃ s, Reach init (fun s e s' => f s e = .ok s') ok s ∧ P s :=
  exists_reach_of (fun _ _ _ h => h) hs es h

/-- `P` holds of every step of a run that cannot be stopped. -/
def Along (f : σ → ε → σ) (P : σ → ε → Prop) : σ → List ε → Prop
  | _, [] => True
  | s, e :: es => P s e ∧ Along f P (f s e) es

/-- While an invariant holds, what a step does and when it does so may be exchanged. -/
theorem along_iff {f : σ → ε → σ} {P Q : σ → ε → Prop} {es : List ε} (hs : I s)
    (hPQ : ∀ s e, I s → (P s e ↔ Q s e)) (hI : ∀ s e, I s → Q s e → I (f s e)) :
    Along f P s es ↔ Along f Q s es := by
  induction es generalizing s with
  | nil => rfl
  | cons e es ih =>
    rw [Along, Along, hPQ s e hs]
    exact and_congr_right fun hQ => ih (hI s e hs hQ)

end Lib
