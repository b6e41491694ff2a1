import Mathlib.Data.Fintype.Basic
import Mathlib.Data.Finset.Card
import Mathlib.Order.Basic

/-!
# Inherited levels

Agents have a level, in any linear order. `D u t` says that `u` lends its level to `t`. The levels are
settled if everyone has the largest of its own base level and the levels it is lent. When a new lender
comes, levels are raised one after the other, from the agent it lends to along the chain of agents
that lend to each other. `Raising D b p d r` describes the middle of this: all levels are settled but that of `r`,
to which `d` lends a higher level.

If everyone lends to one agent at most, `OnChain next p m r` are the agents that a level `m` lent to `r`
raises. Raising the first one takes it out of the chain, so a chain that comes back to itself is
followed no further.
-/

namespace Lib
open Function

variable {A N : Type} [LinearOrder N]

/-- `m` is the largest of `base` and the levels of the agents in `D`. -/
def IsLargest (m base : N) (p : A → N) (D : A → Prop) : Prop :=
  base ≤ m ∧ (∀ u, D u → p u ≤ m) ∧ (m = base ∨ ∃ u, D u ∧ p u = m)

instance {m base : N} {p : A → N} {D : A → Prop} [Fintype A] [DecidablePred D] : Decidable (IsLargest m base p D) :=
  inferInstanceAs (Decidable (_ ∧ (∀ u, D u → p u ≤ m) ∧ (_ ∨ ∃ u, D u ∧ p u = m)))

/-- The level of `t` is the largest of its base level and of what it is lent. -/
def Level (D : A → A → Prop) (b p : A → N) (t : A) : Prop := IsLargest (p t) (b t) p (D · t)

/-- `d` lends `r` more than its level; all others are settled. -/
structure Raising (D : A → A → Prop) (b p : A → N) (d r : A) : Prop where
  lends : D d r
  lt : p r < p d
  base : b r ≤ p r
  lenders : ∀ u, D u r → p u ≤ p d
  others : ∀ v, v ≠ r → Level D b p v

variable {D D' : A → A → Prop} {b p p' : A → N} {d r t u w : A}

lemma IsLargest.congr {m base : N} {D D' : A → Prop} (h : IsLargest m base p D)
    (hD : ∀ u, D' u ↔ D u) (hp : ∀ u, D u → p' u = p u) : IsLargest m base p' D' := by
  obtain ⟨h1, h2, h3⟩ := h
  refine ⟨h1, ?_, h3.imp_right ?_⟩
  · intro u hu
    rw [hp u ((hD u).mp hu)]
    exact h2 u ((hD u).mp hu)
  · rintro ⟨u, hu, e⟩
    exact ⟨u, (hD u).mpr hu, (hp u hu).trans e⟩

lemma IsLargest.union {m base : N} {D E : A → Prop} (h : IsLargest m base p D)
    (hle : ∀ u, E u → p u ≤ m) : IsLargest m base p (fun u => D u ∨ E u) := by
  obtain ⟨h1, h2, h3⟩ := h
  refine ⟨h1, ?_, h3.imp_right ?_⟩
  · rintro u (hu | hu)
    · exact h2 u hu
    · exact hle u hu
  · rintro ⟨u, hu, e⟩
    exact ⟨u, .inl hu, e⟩

lemma Level.insert (hall : ∀ v, Level D b p v) (hle : p d ≤ p r)
    (hD : ∀ u v, D' u v ↔ D u v ∨ (u = d ∧ v = r)) (v : A) : Level D' b p v := by
  refine IsLargest.congr (IsLargest.union (E := fun u => u = d ∧ v = r) (hall v) ?_)
    (fun u => hD u v) (fun _ _ => rfl)
  rintro _ ⟨rfl, rfl⟩
  exact hle

lemma Raising.start (hall : ∀ v, Level D b p v) (hlt : p r < p d)
    (hD : ∀ u v, D' u v ↔ D u v ∨ (u = d ∧ v = r)) : Raising D' b p d r where
  lends := (hD d r).mpr (.inr ⟨rfl, rfl⟩)
  lt := hlt
  base := (hall r).1
  lenders := by
    intro u hu
    rcases (hD u r).mp hu with hu | ⟨rfl, _⟩
    · exact ((hall r).2.1 u hu).trans hlt.le
    · exact le_rfl
  others := by
    intro v hv
    refine IsLargest.congr (hall v) (fun u => ?_) (fun _ _ => rfl)
    rw [hD]
    simp [hv]

variable [DecidableEq A]

section

variable (h : Raising D b p d r)
include h

lemma Raising.receiver : Level D b (update p r (p d)) r := by
  have hdr : d ≠ r := by
    rintro rfl
    exact absurd h.lt (lt_irrefl _)
  rw [Level, update_self]
  refine ⟨h.base.trans h.lt.le, ?_, .inr ⟨d, h.lends, update_of_ne hdr ..⟩⟩
  intro u hu
  by_cases e : u = r
  · rw [e, update_self]
  · rw [update_of_ne e]
    exact h.lenders u hu

lemma Raising.other {v : A} (hv : v ≠ r) (hr : D r v → p d ≤ p v) : Level D b (update p r (p d)) v := by
  obtain ⟨h1, h2, h3⟩ := h.others v hv
  rw [Level, update_of_ne hv]
  refine ⟨h1, ?_, h3.imp_right ?_⟩
  · intro u hu
    by_cases e : u = r
    · subst e
      rw [update_self]
      exact hr hu
    · rw [update_of_ne e]
      exact h2 u hu
  · rintro ⟨u, hu, e⟩
    refine ⟨u, hu, ?_⟩
    have hur : u ≠ r := by
      rintro rfl
      exact absurd (hr hu) (not_le.mpr (e ▸ h.lt))
    rw [update_of_ne hur, e]

lemma Raising.stop (hstop : ∀ v, D r v → p d ≤ update p r (p d) v) (v : A) : Level D b (update p r (p d)) v := by
  by_cases e : v = r
  · subst e
    exact h.receiver
  · refine h.other e fun hv => ?_
    have := hstop v hv
    rwa [update_of_ne e] at this

lemma Raising.pass (hw : D r w) (huniq : ∀ v, D r v → v = w) (hlt : update p r (p d) w < p d) :
    Raising D b (update p r (p d)) r w := by
  have hwr : w ≠ r := by
    rintro rfl
    rw [update_self] at hlt
    exact absurd hlt (lt_irrefl _)
  have hpw : update p r (p d) w = p w := update_of_ne hwr ..
  refine ⟨hw, by rwa [update_self], ?_, ?_, ?_⟩
  · rw [hpw]
    exact (h.others w hwr).1
  · intro u hu
    rw [update_self]
    by_cases e : u = r
    · rw [e, update_self]
    · rw [update_of_ne e]
      rw [hpw] at hlt
      exact ((h.others w hwr).2.1 u hu).trans hlt.le
  · intro v hv
    by_cases e : v = r
    · subst e
      exact h.receiver
    · exact h.other e fun hd => absurd (huniq v hd) hv

end

section Chain

omit [DecidableEq A]

variable {next : A → Option A} {m : N}

/-- The agents on the chain from `r` on, up to the first whose level is not below `m`. -/
inductive OnChain (next : A → Option A) (p : A → N) (m : N) (r : A) : A → Prop where
  | start : p r < m → OnChain next p m r r
  | pass {t u : A} : OnChain next p m r t → next t = some u → p u < m → OnChain next p m r u

lemma OnChain.lt (h : OnChain next p m r t) : p t < m := by
  cases h with
  | start hlt | pass _ _ hlt => exact hlt

lemma onChain_iff_of_none (hr : p r < m) (hn : next r = none) : OnChain next p m r t ↔ t = r := by
  constructor
  · intro h
    induction h with
    | start => rfl
    | pass _ hnext _ ih =>
      rw [ih, hn] at hnext
      cases hnext
  · rintro rfl
    exact .start hr

variable [DecidableEq A]

lemma onChain_iff_of_next (hr : p r < m) (hn : next r = some u) :
    OnChain next p m r t ↔ t = r ∨ OnChain next (update p r m) m u t := by
  constructor
  · intro h
    induction h with
    | start => exact .inl rfl
    | @pass t w _ hnext hlt ih =>
      by_cases e : w = r
      · exact .inl e
      · have hlt' : update p r m w < m := by rwa [update_of_ne e]
        rcases ih with rfl | ih
        · rw [hn] at hnext
          cases hnext
          exact .inr (.start hlt')
        · exact .inr (ih.pass hnext hlt')
  · have hne : ∀ {w}, update p r m w < m → p w < m := by
      intro w hw
      by_cases e : w = r
      · rwa [e]
      · rwa [update_of_ne e] at hw
    rintro (rfl | h)
    · exact .start hr
    · induction h with
      | start hlt => exact (OnChain.start hr).pass hn (hne hlt)
      | pass _ hnext hlt ih => exact ih.pass hnext (hne hlt)

lemma onChain_iff_of_le (hr : p r < m) (hn : next r = some u) (hle : m ≤ update p r m u) :
    OnChain next p m r t ↔ t = r := by
  rw [onChain_iff_of_next hr hn, or_iff_left]
  intro h
  have hlt : update p r m u < m := by
    clear hle
    induction h with
    | start hlt => exact hlt
    | pass _ _ _ ih => exact ih
  exact absurd hle (not_le.mpr hlt)

lemma card_below_lt [Fintype A] (hr : p r < m) :
    (Finset.univ.filter (update p r m · < m)).card < (Finset.univ.filter (p · < m)).card := by
  refine Finset.card_lt_card ((Finset.ssubset_iff_of_subset ?_).mpr ⟨r, ?_, ?_⟩)
  · intro w hw
    simp only [Finset.mem_filter, Finset.mem_univ, true_and] at hw ⊢
    by_cases e : w = r
    · rwa [e]
    · rwa [update_of_ne e] at hw
  · simpa using hr
  · simp

end Chain

end Lib
