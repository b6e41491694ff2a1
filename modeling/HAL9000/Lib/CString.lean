import HAL9000.Lib.ByteMem
import HAL9000.Lib.Exec
import Mathlib.Data.Nat.Find

/-!
# Strings in memory

`peek` and `poke` access one byte of a memory, and stop the call if the byte is not one of the window `W` the
code may access. `Spells m a s` says that the characters `s` are in memory from address `a` on, with a zero
byte behind them.
-/

namespace Lib
open Function List

def peek (W : Nat → Prop) [DecidablePred W] (m : Mem) (a : Nat) : Exec UInt8 :=
  if W a then pure (m a) else throw .wild

def poke (W : Nat → Prop) [DecidablePred W] (m : Mem) (a : Nat) (b : UInt8) : Exec Mem :=
  if W a then pure (update m a b) else throw .wild

/-- Write the characters of a list at `a`, one after another. -/
def writeAt (m : Mem) (a : Nat) : List UInt8 → Mem
  | [] => m
  | c :: s => writeAt (update m a c) (a + 1) s

def pokeAll (W : Nat → Prop) [DecidablePred W] (m : Mem) (a : Nat) : List UInt8 → Exec Mem
  | [] => pure m
  | c :: s => do
    let m ← poke W m a c
    pokeAll W m (a + 1) s

/-- The characters of a list are at `a`. -/
def Holds (m : Mem) (a : Nat) (s : List UInt8) : Prop := ∀ i (h : i < s.length), m (a + i) = s[i]

/-- The characters at `a`, up to a zero byte. -/
def Spells (m : Mem) (a : Nat) : List UInt8 → Prop
  | [] => m a = 0
  | c :: s => m a = c ∧ c ≠ 0 ∧ Spells m (a + 1) s

instance Spells.decidable (m : Mem) : (a : Nat) → (s : List UInt8) → Decidable (Spells m a s)
  | a, [] => inferInstanceAs (Decidable (m a = 0))
  | a, c :: s =>
    have := Spells.decidable m (a + 1) s
    inferInstanceAs (Decidable (m a = c ∧ c ≠ 0 ∧ Spells m (a + 1) s))

instance (a n : Nat) : DecidablePred (Span a n) :=
  fun x => inferInstanceAs (Decidable (a ≤ x ∧ x < a + n))

section Access

variable {W : Nat → Prop} [DecidablePred W] {m m' : Mem} {a x : Nat} {b : UInt8}

lemma peek_pos (h : W a) : peek W m a = .ok (m a) := if_pos h

lemma peek_neg (h : ¬ W a) : peek W m a = .error .wild := if_neg h

lemma poke_pos (h : W a) : poke W m a b = .ok (update m a b) := if_pos h

end Access

section Strings

variable {m m' : Mem} {a i : Nat} {s t : List UInt8} {c : UInt8} {W : Nat → Prop}

lemma spells_nil : Spells m a [] ↔ m a = 0 := Iff.rfl

lemma Spells.head_ne (h : Spells m a (c :: s)) : m a ≠ 0 := fun h0 => h.2.1 (h.1.symm.trans h0)

lemma holds_cons : Holds m a (c :: s) ↔ m a = c ∧ Holds m (a + 1) s := by
  have hshift : ∀ i, a + 1 + i = a + (i + 1) := fun i => by omega
  constructor
  · refine fun h => ⟨h 0 (Nat.succ_pos _), fun i hi => ?_⟩
    rw [hshift]
    exact h (i + 1) (Nat.succ_lt_succ hi)
  · rintro ⟨h0, h⟩ (_ | i) hi
    · exact h0
    · rw [← hshift]
      exact h i (Nat.lt_of_succ_lt_succ hi)

lemma holds_append : Holds m a (s ++ t) ↔ Holds m a s ∧ Holds m (a + s.length) t := by
  induction s generalizing a with
  | nil => exact ⟨fun h => ⟨nofun, h⟩, fun h => h.2⟩
  | cons c s ih =>
    rw [cons_append, holds_cons, ih, holds_cons, and_assoc, length_cons,
      show a + 1 + s.length = a + (s.length + 1) by omega]

lemma spells_append : Spells m a (s ++ t) ↔ Holds m a s ∧ (∀ c ∈ s, c ≠ 0) ∧ Spells m (a + s.length) t := by
  induction s generalizing a with
  | nil => exact ⟨fun h => ⟨nofun, nofun, h⟩, fun h => h.2.2⟩
  | cons c s ih =>
    rw [cons_append, Spells, ih, holds_cons, forall_mem_cons, length_cons,
      show a + 1 + s.length = a + (s.length + 1) by omega]
    tauto

lemma spells_iff : Spells m a s ↔ Holds m a s ∧ (∀ c ∈ s, c ≠ 0) ∧ m (a + s.length) = 0 := by
  rw [← spells_nil, ← spells_append, append_nil]

lemma Spells.get (h : Spells m a s) (hi : i < s.length) : m (a + i) = s[i] := (spells_iff.mp h).1 i hi

lemma Spells.last (h : Spells m a s) : m (a + s.length) = 0 := (spells_iff.mp h).2.2

lemma Spells.drop (h : Spells m a s) (hi : i ≤ s.length) : Spells m (a + i) (s.drop i) := by
  rw [← take_append_drop i s, spells_append, length_take_of_le hi] at h
  exact h.2.2

lemma Spells.behind (h : Spells m a (s ++ c :: t)) : Spells m (a + s.length + 1) t :=
  (spells_append.mp h).2.2.2.2

lemma Spells.move {b : Nat} (h : Spells m a s) (heq : ∀ i ≤ s.length, m' (b + i) = m (a + i)) : Spells m' b s := by
  obtain ⟨hs, hne, hend⟩ := spells_iff.mp h
  exact spells_iff.mpr ⟨fun i hi => (heq i (Nat.le_of_lt hi)).trans (hs i hi), hne, (heq _ le_rfl).trans hend⟩

lemma Spells.congr (h : Spells m a s) (heq : ∀ x, Span a (s.length + 1) x → m' x = m x) : Spells m' a s :=
  h.move fun i hi => heq _ ⟨by omega, by omega⟩

lemma Spells.set {d : UInt8} (h : Spells m a (s ++ d :: t)) (hc : c ≠ 0) :
    Spells (update m (a + s.length) c) a (s ++ c :: t) := by
  obtain ⟨hs, hne, -, -, ht⟩ := spells_append.mp h
  refine spells_append.mpr ⟨fun i hi => ?_, hne, update_self .., hc, ht.move fun i _ => ?_⟩
  · rw [update_of_ne (by omega), hs i hi]
  · exact update_of_ne (by omega) ..

lemma Spells.cut (h : Spells m a s) (hi : i ≤ s.length) : Spells (update m (a + i) 0) a (s.take i) := by
  have hlen : (s.take i).length = i := length_take_of_le hi
  refine spells_iff.mpr ⟨fun j hj => ?_, fun c hc => ?_, ?_⟩
  · rw [hlen] at hj
    rw [update_of_ne (by omega), h.get (by omega), getElem_take]
  · exact (spells_iff.mp h).2.1 c (mem_of_mem_take hc)
  · rw [hlen, update_self]

lemma Spells.unique (h : Spells m a s) (h' : Spells m a t) : s = t := by
  induction s generalizing a t with
  | nil =>
    cases t with
    | nil => rfl
    | cons d t => exact absurd (h'.1.symm.trans h) h'.2.1
  | cons c s ih =>
    cases t with
    | nil => exact absurd (h.1.symm.trans h') h.2.1
    | cons d t => rw [← h.1, ← h'.1, ih h.2.2 h'.2.2]

lemma writeAt_within : Within (Span a s.length) m (writeAt m a s) := by
  induction s generalizing m a with
  | nil => exact Within.refl _ m
  | cons c s ih =>
    intro x hx
    rw [writeAt, ih x fun h => hx ⟨by have := h.1; omega, by have := h.2; rw [length_cons]; omega⟩]
    exact update_of_ne (fun hxa => hx ⟨by omega, by rw [length_cons]; omega⟩) ..

lemma holds_writeAt : Holds (writeAt m a s) a s := by
  induction s generalizing m a with
  | nil => exact nofun
  | cons c s ih =>
    refine holds_cons.mpr ⟨?_, ih⟩
    exact (writeAt_within (a := a + 1) a fun h => by have := h.1; omega).trans (update_self ..)

lemma pokeAll_pos [DecidablePred W] (h : ∀ x, Span a s.length x → W x) : pokeAll W m a s = .ok (writeAt m a s) := by
  induction s generalizing m a with
  | nil => rfl
  | cons c s ih =>
    rw [length_cons] at h
    rw [pokeAll, poke_pos (h a ⟨le_rfl, by omega⟩), bind_okay, writeAt]
    exact ih fun x hx => h x (hx.mono (by omega) (by omega))

lemma pokeAll_neg [DecidablePred W] (h : ∃ x, Span a s.length x ∧ ¬ W x) : pokeAll W m a s = .error .wild := by
  induction s generalizing m a with
  | nil =>
    obtain ⟨x, hx, -⟩ := h
    have := hx.1
    have := hx.2
    rw [length_nil] at this
    omega
  | cons c s ih =>
    rw [pokeAll]
    by_cases hW : W a
    · rw [poke_pos hW, bind_okay]
      obtain ⟨x, hx, hn⟩ := h
      have hxa : x ≠ a := fun hxa => hn (hxa ▸ hW)
      have h1 := hx.1
      have h2 := hx.2
      rw [length_cons] at h2
      exact ih ⟨x, ⟨by omega, by omega⟩, hn⟩
    · rw [poke, if_neg hW]
      rfl

lemma writeAt_append : writeAt m a (s ++ t) = writeAt (writeAt m a s) (a + s.length) t := by
  induction s generalizing m a with
  | nil => rfl
  | cons c s ih =>
    rw [cons_append, writeAt, ih, writeAt, length_cons, show a + 1 + s.length = a + (s.length + 1) by omega]

/-- A zero byte ends the string after `n` others. -/
def HasLength (m : Mem) (a n : Nat) : Prop := (∀ k < n, m (a + k) ≠ 0) ∧ m (a + n) = 0

lemma HasLength.spells {n : Nat} (h : HasLength m a n) : ∃ s, Spells m a s ∧ s.length = n := by
  refine ⟨(List.range n).map fun k => m (a + k), spells_iff.mpr ⟨fun k hk => ?_, fun c hc => ?_, ?_⟩, by simp⟩
  · rw [getElem_map, getElem_range]
  · obtain ⟨k, hk, rfl⟩ := List.mem_map.mp hc
    exact h.1 k (List.mem_range.mp hk)
  · rw [length_map, length_range]
    exact h.2

lemma Spells.hasLength (h : Spells m a s) : HasLength m a s.length :=
  ⟨fun _ hk => h.get hk ▸ (spells_iff.mp h).2.1 _ (getElem_mem hk), h.last⟩

lemma exists_hasLength {k : Nat} (h : m (a + k) = 0) : ∃ n ≤ k, HasLength m a n := by
  have hex : ∃ n, m (a + n) = 0 := ⟨k, h⟩
  exact ⟨Nat.find hex, Nat.find_min' hex h, fun j hj => Nat.find_min hex hj, Nat.find_spec hex⟩

lemma spells_of_holds (h : Holds m a s) (hne : ∀ c ∈ s, c ≠ 0) (hend : m (a + s.length) = 0) : Spells m a s :=
  spells_iff.mpr ⟨h, hne, hend⟩

end Strings

end Lib
