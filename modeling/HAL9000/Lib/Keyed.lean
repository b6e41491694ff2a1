import Mathlib.Data.Finmap

/-!
# Sets of things with keys, as finite maps

`Keyed key S m` says that the finite map `m` takes the keys of the things in `S` to these things. So
no two things in `S` have the same key. Adding a thing, with whatever had its key before going away,
is an insertion into the map, and taking a key out is an erasure.
-/

namespace Lib

variable {K E : Type} [DecidableEq K] {key : E → K} {S S' : E → Prop} {m : Finmap fun _ : K => E} {e x : E} {k : K}

/-- The map takes the keys of the things in `S` to these things. -/
def Keyed (key : E → K) (S : E → Prop) (m : Finmap fun _ : K => E) : Prop :=
  ∀ k e, m.lookup k = some e ↔ S e ∧ key e = k

lemma Keyed.empty (hS : ∀ e, ¬ S e) : Keyed key S ∅ := by
  intro k e
  rw [Finmap.lookup_empty]
  exact iff_of_false (by simp) fun h => hS e h.1

lemma Keyed.insert (hm : Keyed key S m) (hS : ∀ x, S' x ↔ x = e ∨ S x ∧ key x ≠ key e) :
    Keyed key S' (m.insert (key e) e) := by
  intro k x
  rw [hS]
  by_cases hk : k = key e
  · subst hk
    rw [Finmap.lookup_insert, Option.some_inj]
    constructor
    · rintro rfl
      exact ⟨.inl rfl, rfl⟩
    · rintro ⟨rfl | ⟨_, hne⟩, hk⟩
      · rfl
      · exact absurd hk hne
  · rw [Finmap.lookup_insert_of_ne _ hk, hm]
    constructor
    · rintro ⟨hx, rfl⟩
      exact ⟨.inr ⟨hx, hk⟩, rfl⟩
    · rintro ⟨rfl | ⟨hx, _⟩, hk'⟩
      · exact absurd hk'.symm hk
      · exact ⟨hx, hk'⟩

lemma Keyed.erase (hm : Keyed key S m) (hS : ∀ x, S' x ↔ S x ∧ key x ≠ k) : Keyed key S' (m.erase k) := by
  intro k' x
  rw [hS]
  by_cases hk : k' = k
  · subst hk
    rw [Finmap.lookup_erase]
    refine iff_of_false (by simp) ?_
    rintro ⟨⟨_, hne⟩, hk⟩
    exact hne hk
  · rw [Finmap.lookup_erase_ne hk, hm]
    constructor
    · rintro ⟨hx, rfl⟩
      exact ⟨⟨hx, hk⟩, rfl⟩
    · rintro ⟨⟨hx, _⟩, hk'⟩
      exact ⟨hx, hk'⟩

lemma Keyed.lookup_none (hm : Keyed key S m) (hk : ∀ x, S x → key x ≠ k) : m.lookup k = none := by
  cases h : m.lookup k with
  | none => rfl
  | some x =>
    obtain ⟨hx, hxk⟩ := (hm k x).mp h
    exact absurd hxk (hk x hx)

lemma Keyed.eq_empty (hm : Keyed key S m) (hS : ∀ e, ¬ S e) : m = ∅ := by
  refine Finmap.ext_lookup fun k => ?_
  rw [Finmap.lookup_empty]
  exact hm.lookup_none fun x hx => absurd hx (hS x)

lemma card_keys_insert (h : m.lookup k = none) : (m.insert k e).keys.card = m.keys.card + 1 := by
  have hk : k ∉ m.keys := by
    rw [Finmap.mem_keys]
    exact Finmap.lookup_eq_none.mp h
  have e' : (m.insert k e).keys = Insert.insert k m.keys := by
    ext x
    rw [Finmap.mem_keys, Finmap.mem_insert, Finset.mem_insert, Finmap.mem_keys]
  rw [e', Finset.card_insert_of_notMem hk]

lemma card_keys_replace (h : m.lookup k = some x) : (m.insert k e).keys.card = m.keys.card := by
  have hk : k ∈ m := Finmap.mem_of_lookup_eq_some h
  congr 1
  ext x
  rw [Finmap.mem_keys, Finmap.mem_insert, Finmap.mem_keys]
  constructor
  · rintro (rfl | hx)
    · exact hk
    · exact hx
  · exact .inr

lemma card_keys_erase (h : m.lookup k = some x) : (m.erase k).keys.card + 1 = m.keys.card := by
  have hk : k ∈ m.keys := Finmap.mem_keys.mpr (Finmap.mem_of_lookup_eq_some h)
  rw [Finmap.keys_erase, Finset.card_erase_add_one hk]

end Lib
