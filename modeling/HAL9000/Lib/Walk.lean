import Mathlib.Data.Finset.Card
import Mathlib.Data.Nat.Find
import Mathlib.Tactic.Common

/-!
# Walks along a partial successor function

`follow next n a` is where one is after `n` steps from `a`, if there is a next place every time. A walk
`Ends` if there is some time no next place. In a finite set of places this is so just if no place is
met twice (`ends_iff_noRepeat`), and then it ends in as many steps as there are places.
-/

namespace Lib

variable {σ : Type*} {next : σ → Option σ} {a b x : σ} {m n : Nat} {S : Finset σ}

/-- The place after `n` steps. -/
def follow (next : σ → Option σ) : Nat → σ → Option σ
  | 0, a => some a
  | n + 1, a => (next a).bind (follow next n)

def Ends (next : σ → Option σ) (a : σ) : Prop := ∃ n, follow next n a = none

def NoRepeat (next : σ → Option σ) (a : σ) : Prop :=
  ∀ i j x, i < j → follow next i a = some x → follow next j a ≠ some x

lemma follow_succ (h : next a = some b) : follow next (n + 1) a = follow next n b := by
  rw [follow, h]
  rfl

lemma follow_add : follow next (m + n) a = (follow next m a).bind (follow next n) := by
  induction m generalizing a with
  | zero =>
    rw [Nat.zero_add]
    rfl
  | succ m ih =>
    rw [Nat.add_right_comm, follow, follow]
    cases next a with
    | none => rfl
    | some b => exact ih

lemma follow_none_mono (h : follow next m a = none) (hmn : m ≤ n) : follow next n a = none := by
  obtain ⟨k, rfl⟩ := Nat.exists_eq_add_of_le hmn
  rw [follow_add, h]
  rfl

lemma follow_some_of_le (h : follow next n a = some x) (hmn : m ≤ n) : ∃ y, follow next m a = some y := by
  cases hm : follow next m a with
  | none =>
    rw [follow_none_mono hm hmn] at h
    cases h
  | some y => exact ⟨y, rfl⟩

lemma follow_congr {next' : σ → Option σ} (h : ∀ k x, follow next k a = some x → next' x = next x) (n : Nat) :
    follow next' n a = follow next n a := by
  induction n generalizing a with
  | zero => rfl
  | succ n ih =>
    rw [follow, follow, h 0 a rfl]
    cases hb : next a with
    | none => rfl
    | some b => exact ih fun k x hx => h (k + 1) x (by rw [follow_succ hb, hx])

/-- What a step keeps holds all along a walk. -/
lemma follow_invariant {P : σ → Prop} (step : ∀ a b, P a → next a = some b → P b) (ha : P a)
    (h : follow next n a = some x) : P x := by
  induction n generalizing a with
  | zero =>
    cases h
    exact ha
  | succ n ih =>
    rw [follow] at h
    obtain ⟨b, hb, h⟩ := Option.bind_eq_some_iff.mp h
    exact ih (step a b ha hb) h

/-- What can be tested at the places of a walk that ends holds at all of them. -/
lemma forall_follow {P : σ → Prop} [DecidablePred P] (n : Nat) (hn : (follow next n a).isNone = true)
    (h : ∀ k < n, (follow next k a).all (P ·) = true) : ∀ k x, follow next k a = some x → P x := by
  intro k x hx
  rcases Nat.lt_or_ge k n with hk | hk
  · have hP := h k hk
    rw [hx] at hP
    exact of_decide_eq_true hP
  · rw [follow_none_mono (Option.isNone_iff_eq_none.mp hn) hk] at hx
    cases hx

lemma ends_of_none (h : next a = none) : Ends next a := ⟨1, by rw [follow, h]; rfl⟩

lemma ends_succ_iff (h : next a = some b) : Ends next a ↔ Ends next b := by
  constructor
  · rintro ⟨n, hn⟩
    refine ⟨n, ?_⟩
    rw [← follow_succ h]
    exact follow_none_mono hn (Nat.le_succ n)
  · rintro ⟨n, hn⟩
    exact ⟨n + 1, by rw [follow_succ h, hn]⟩

/-- A walk that ends visits nothing twice. -/
lemma Ends.noRepeat (he : Ends next a) : NoRepeat next a := by
  classical
  intro i j x hij hi hj
  have hn := Nat.find_spec he
  -- take the time the walk ends back by one round
  have hlt : j < Nat.find he := by
    by_contra hle
    rw [follow_none_mono hn (Nat.le_of_not_lt hle)] at hj
    cases hj
  obtain ⟨k, hk⟩ := Nat.exists_eq_add_of_lt hlt
  refine Nat.find_min he (m := i + (k + 1)) (by omega) ?_
  rw [follow_add, hi]
  rw [hk, Nat.add_assoc, follow_add, hj] at hn
  exact hn

/-- A walk in a finite set that visits nothing twice ends. -/
lemma NoRepeat.follow_eq_none (hf : NoRepeat next a) (hS : ∀ n x, follow next n a = some x → x ∈ S) :
    follow next S.card a = none := by
  cases h : follow next S.card a with
  | none => rfl
  | some y =>
    exfalso
    have hsome : ∀ i ∈ Finset.range (S.card + 1), ∃ x, follow next i a = some x := by
      intro i hi
      exact follow_some_of_le h (by rw [Finset.mem_range] at hi; omega)
    have : Nonempty σ := ⟨y⟩
    choose! place hplace using hsome
    obtain ⟨i, hi, j, hj, hne, heq⟩ := Finset.exists_ne_map_eq_of_card_lt_of_maps_to
      (s := Finset.range (S.card + 1)) (t := S) (f := place) (by simp)
      (fun i hi => hS i _ (hplace i hi))
    have hwi := hplace i hi
    have hwj := hplace j hj
    rw [← heq] at hwj
    rcases Nat.lt_or_gt_of_ne hne with hlt | hlt
    · exact hf i j _ hlt hwi hwj
    · exact hf j i _ hlt hwj hwi

/-- Among finitely many places a walk ends just if it meets none twice. -/
theorem ends_iff_noRepeat (hS : ∀ n x, follow next n a = some x → x ∈ S) : Ends next a ↔ NoRepeat next a :=
  ⟨Ends.noRepeat, fun hf => ⟨S.card, hf.follow_eq_none hS⟩⟩

end Lib
