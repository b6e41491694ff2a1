import HAL9000.Lib.Prog

/-!
# Programs with fuel

A loop that need not come to an end is modelled with fuel. `Approx x y` says that `y` does what `x` does unless `x`
runs out of fuel, and a program is `Fueled` if more fuel only helps. `Halts x s` says that some fuel is enough;
for a sequence this is so just if its first part halts, and the second part wherever the first one leads to
(`halts_bind`).
-/

namespace Lib
namespace Prog

variable {σ ε α β : Type} {x y : Prog σ ε α} {f g : α → Prog σ ε β} {s : σ} {m n : Nat}

/-- What `x` does without running out of fuel, `y` does too. -/
def Approx (x y : Prog σ ε α) : Prop := ∀ s, x s ≠ .error .fuel → y s = x s

/-- More fuel does not change the outcome. -/
def Fueled (x : Nat → Prog σ ε α) : Prop := ∀ n, Approx (x n) (x (n + 1))

/-- Some fuel is enough. -/
def Halts (x : Nat → Prog σ ε α) (s : σ) : Prop := ∃ n, x n s ≠ .error .fuel

/-- A program does what it does. -/
lemma Approx.refl (x : Prog σ ε α) : Approx x x := fun _ _ => rfl

/-- Both parts of a sequence can be replaced. -/
lemma Approx.bind (hx : Approx x y) (hf : ∀ a, Approx (f a) (g a)) : Approx (x >>= f) (y >>= g) := by
  intro s h
  rcases hxs : x s with e | ⟨st | a, s'⟩
  · rw [bind_of_fault hxs] at h ⊢
    refine bind_of_fault ((hx s fun he => h ?_).trans hxs)
    cases hxs.symm.trans he
    rfl
  · rw [bind_of_fail hxs]
    exact bind_of_fail ((hx s (by rw [hxs]; simp)).trans hxs)
  · rw [bind_of_ok hxs] at h ⊢
    rw [bind_of_ok ((hx s (by rw [hxs]; simp)).trans hxs)]
    exact hf a s' h

/-- A caught program can be replaced. -/
lemma Approx.attempt (hx : Approx x y) : Approx (attempt x) (attempt y) := by
  intro s h
  have hne : x s ≠ .error .fuel := fun he => h (attempt_of_fault he)
  rw [Prog.attempt, Prog.attempt, hx s hne]

/-- Both branches of a choice can be replaced. -/
lemma Approx.ite {p : Prop} [Decidable p] {x' y' : Prog σ ε α} (hx : Approx x y) (hx' : Approx x' y') :
    Approx (if p then x else x') (if p then y else y') := by
  split
  · exact hx
  · exact hx'

section Halts

variable {x : Nat → Prog σ ε α} {f : Nat → α → Prog σ ε β}

/-- The outcome with some fuel is the one with any larger amount. -/
lemma Fueled.eq (hx : Fueled x) (h : x n s ≠ .error .fuel) (hnm : n ≤ m) : x m s = x n s := by
  induction hnm with
  | refl => rfl
  | step _ ih => rw [hx _ s (by rwa [ih]), ih]

/-- A program that does not use the fuel halts. -/
lemma halts_const {y : Prog σ ε α} (h : y s ≠ .error .fuel) : Halts (fun _ => y) s := ⟨0, h⟩

/-- A caught program halts just if it does. -/
lemma halts_attempt : Halts (fun n => attempt (x n)) s ↔ Halts x s := by
  refine exists_congr fun n => not_congr ?_
  dsimp only [attempt]
  cases x n s with
  | error e => simp [Except.map]
  | ok r => simp [Except.map]

/-- A sequence halts just if its first part does, and the second one behind it. -/
theorem halts_bind (hx : Fueled x) (hf : ∀ a, Fueled (f · a)) :
    Halts (fun n => x n >>= f n) s ↔ Halts x s ∧ ∀ n a s', x n s = .ok (.ok a, s') → Halts (f · a) s' := by
  constructor
  · rintro ⟨n, h⟩
    dsimp only at h
    have hne : x n s ≠ .error .fuel := fun he => h (bind_of_fault he)
    refine ⟨⟨n, hne⟩, fun m a s' hm => ⟨n, ?_⟩⟩
    have hn : x n s = .ok (.ok a, s') := by
      rw [← hx.eq hne (Nat.le_max_left n m), hx.eq (by rw [hm]; simp) (Nat.le_max_right n m), hm]
    rwa [bind_of_ok hn] at h
  · rintro ⟨⟨n, hn⟩, h⟩
    rcases hxn : x n s with e | ⟨st | a, s'⟩
    · refine ⟨n, fun he => hn ?_⟩
      cases (bind_of_fault hxn).symm.trans he
      exact hxn
    · exact ⟨n, fun he => by cases (bind_of_fail hxn).symm.trans he⟩
    · obtain ⟨m, hm⟩ := h n a s' hxn
      refine ⟨max n m, ?_⟩
      dsimp only
      rw [bind_of_ok ((hx.eq hn (Nat.le_max_left n m)).trans hxn), (hf a).eq hm (Nat.le_max_right n m)]
      exact hm

end Halts

end Prog
end Lib
