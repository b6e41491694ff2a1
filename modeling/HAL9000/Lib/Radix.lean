import Mathlib.Data.List.Induction
import Mathlib.Logic.Function.Basic
import Mathlib.Tactic.Common

/-!
# Radix trees laid out in a memory

A memory of tables is a partial map `m : N → K → Option N` from a table and a slot to what the slot
points at. `walk m n ks` follows the slots `ks` from `n`. `Tree m root d path` says that the tables
form a tree of depth `d` without sharing: `path n = some p` marks `n` as the table reached from the
root along `p`, no two tables have the same path, and a slot of an inner table points at the table
one level down. Slots of the tables at depth `d - 1` may hold anything.

The two updates are `Tree.setLeaf`, which changes one key of the map `walk m root`, and
`Tree.setFresh`, which hangs a new empty table under an empty slot and changes no key.
-/

namespace Lib
open Function

variable {N K : Type}

/-- Follow the slots `ks` from the table `n`. -/
def walk (m : N → K → Option N) : N → List K → Option N
  | n, [] => some n
  | n, k :: ks => (m n k).bind fun c => walk m c ks

/-- The tables marked by `path` form a tree of depth `d` under `root`. -/
structure Tree (m : N → K → Option N) (root : N) (d : Nat) (path : N → Option (List K)) : Prop where
  root : path root = some []
  depth : ∀ {n p}, path n = some p → p.length < d
  inj : ∀ {n n' p}, path n = some p → path n' = some p → n = n'
  child : ∀ {n p k c}, path n = some p → p.length + 1 < d → m n k = some c →
    path c = some (p ++ [k])
  parent : ∀ {n p k}, path n = some (p ++ [k]) → ∃ n', path n' = some p ∧ m n' k = some n

variable {m m' : N → K → Option N} {root n : N} {d : Nat} {path : N → Option (List K)}

lemma walk_append (n : N) (ks ls : List K) : walk m n (ks ++ ls) = (walk m n ks).bind fun c => walk m c ls := by
  induction ks generalizing n with
  | nil => rfl
  | cons k ks ih =>
    simp only [List.cons_append, walk, Option.bind_assoc]
    congr 1
    funext c
    exact ih c

lemma Tree.single [DecidableEq N] (hempty : ∀ k, m root k = none) (hd : 0 < d) :
    Tree m root d (fun n => if n = root then some [] else none) where
  root := if_pos rfl
  depth := by
    intro n p hp
    split at hp
    · cases hp
      exact hd
    · cases hp
  inj := by
    intro n n' p hp hp'
    split at hp <;> split at hp' <;> simp_all
  child := by
    intro n p k c hp _ hm
    split at hp
    · next e =>
      rw [e, hempty k] at hm
      cases hm
    · cases hp
  parent := by
    intro n p k hp
    split at hp <;> simp at hp

lemma Tree.walk_of_path (tr : Tree m root d path) {p : List K} (hn : path n = some p) : walk m root p = some n := by
  induction p using List.reverseRecOn generalizing n with
  | nil => rw [tr.inj hn tr.root]; rfl
  | append_singleton p k ih =>
    obtain ⟨n', hn', hm⟩ := tr.parent hn
    rw [walk_append, ih hn']
    simp [walk, hm]

lemma Tree.walk_congr (tr : Tree m root d path) {p ks : List K} (hn : path n = some p)
    (hd : p.length + ks.length ≤ d) (h : ∀ n' q k, path n' = some q → q ++ [k] <+: p ++ ks → m' n' k = m n' k) :
    walk m' n ks = walk m n ks := by
  induction ks generalizing n p with
  | nil => rfl
  | cons k ks ih =>
    simp only [List.length_cons] at hd
    have hk : m' n k = m n k := by
      apply h n p k hn
      exact ⟨ks, by simp⟩
    simp only [walk, hk]
    cases hc : m n k with
    | none => rfl
    | some c =>
      simp only [Option.bind_some]
      cases ks with
      | nil => rfl
      | cons k' ks =>
        simp only [List.length_cons] at hd
        refine ih (tr.child hn (by omega) hc) ?_ ?_
        · simp only [List.length_append, List.length_cons, List.length_nil]
          omega
        · intro n' q l hq hpre
          exact h n' q l hq (by simpa using hpre)

section Update

variable {n : N} {p : List K} {k : K}

section

variable (tr : Tree m root d path) (hn : path n = some p) (hp : p.length + 1 = d)
  (hsame : ∀ n' q k', path n' = some q → ¬ (n' = n ∧ k' = k) → m' n' k' = m n' k')
include tr hn hp hsame

/-- Writing a slot of a lowest table keeps the tree. -/
theorem Tree.setLeaf :
    Tree m' root d path where
  root := tr.root
  depth := tr.depth
  inj := tr.inj
  child := by
    intro n' q k' c hq hd hm
    have hne : ¬ (n' = n ∧ k' = k) := by
      rintro ⟨rfl, rfl⟩
      rw [hn] at hq
      cases hq
      omega
    rw [hsame n' q k' hq hne] at hm
    exact tr.child hq hd hm
  parent := by
    intro n' q k' hq
    obtain ⟨t, ht, hm⟩ := tr.parent hq
    refine ⟨t, ht, ?_⟩
    have hl := tr.depth hq
    rw [hsame t q k' ht, hm]
    rintro ⟨rfl, rfl⟩
    rw [hn] at ht
    cases ht
    simp only [List.length_append, List.length_singleton] at hl
    omega

/-- Writing a slot of a lowest table changes exactly the key that ends in this slot. -/
theorem Tree.walk_setLeaf [DecidableEq K] {ks : List K} (hks : ks.length = d) :
    walk m' root ks = if ks = p ++ [k] then m' n k else walk m root ks := by
  have tr' := tr.setLeaf hn hp hsame
  split
  case isTrue e =>
    subst e
    rw [walk_append, tr'.walk_of_path hn]
    simp [walk]
  case isFalse hne =>
    refine tr.walk_congr tr.root (by simp [hks]) ?_
    intro n' q k' hq hpre
    apply hsame n' q k' hq
    rintro ⟨rfl, rfl⟩
    rw [hn] at hq
    cases hq
    apply hne
    have := hpre.eq_of_length (by simp; omega)
    simpa using this.symm

end

variable {c : N}

variable (tr : Tree m root d path) (hn : path n = some p) (hp : p.length + 1 < d) (hnone : m n k = none)
include tr hn hp hnone

/-- Hanging a fresh table under an empty slot keeps the tree; the new table has the new path. -/
theorem Tree.setFresh [DecidableEq N] (hc : path c = none) (hset : m' n k = some c)
    (hsame : ∀ n' q k', path n' = some q → ¬ (n' = n ∧ k' = k) → m' n' k' = m n' k')
    (hempty : ∀ k', m' c k' = none) : Tree m' root d (update path c (some (p ++ [k]))) := by
  have hne : ∀ {n' q}, path n' = some q → n' ≠ c := by
    rintro n' q h rfl
    simp [hc] at h
  -- no table has the new path yet: its parent slot would not be empty
  have hfresh : ∀ n', path n' ≠ some (p ++ [k]) := by
    intro n' h
    obtain ⟨t, ht, hm⟩ := tr.parent h
    rw [tr.inj ht hn, hnone] at hm
    cases hm
  refine ⟨?_, ?_, ?_, ?_, ?_⟩
  · rw [update_of_ne (hne tr.root)]
    exact tr.root
  · intro n' q h
    by_cases e : n' = c
    · subst e
      simp only [update_self, Option.some.injEq] at h
      subst h
      simpa using hp
    · rw [update_of_ne e] at h
      exact tr.depth h
  · intro a b q ha hb
    by_cases ea : a = c <;> by_cases eb : b = c
    · rw [ea, eb]
    · subst ea
      rw [update_of_ne eb] at hb
      simp only [update_self, Option.some.injEq] at ha
      subst ha
      exact absurd hb (hfresh b)
    · subst eb
      rw [update_of_ne ea] at ha
      simp only [update_self, Option.some.injEq] at hb
      subst hb
      exact absurd ha (hfresh a)
    · rw [update_of_ne ea] at ha
      rw [update_of_ne eb] at hb
      exact tr.inj ha hb
  · intro n' q k' t hq hd hm
    by_cases e : n' = c
    · subst e
      simp [hempty] at hm
    · rw [update_of_ne e] at hq
      by_cases es : n' = n ∧ k' = k
      · obtain ⟨rfl, rfl⟩ := es
        rw [hset] at hm
        cases hm
        rw [hn] at hq
        cases hq
        simp
      · rw [hsame n' q k' hq es] at hm
        have ht := tr.child hq hd hm
        rwa [update_of_ne (hne ht)]
  · intro n' q k' h
    by_cases e : n' = c
    · subst e
      simp only [update_self, Option.some.injEq] at h
      obtain ⟨rfl, ek⟩ := List.append_inj' h rfl
      simp only [List.cons.injEq, and_true] at ek
      subst ek
      exact ⟨n, by rwa [update_of_ne (hne hn)], hset⟩
    · rw [update_of_ne e] at h
      obtain ⟨t, ht, hm⟩ := tr.parent h
      refine ⟨t, by rwa [update_of_ne (hne ht)], ?_⟩
      rw [hsame t q k' ht, hm]
      rintro ⟨rfl, rfl⟩
      rw [hnone] at hm
      cases hm

/-- Hanging a fresh table under an empty slot changes no key of full depth. -/
theorem Tree.walk_setFresh [DecidableEq K] (hset : m' n k = some c)
    (hsame : ∀ n' q k', path n' = some q → ¬ (n' = n ∧ k' = k) → m' n' k' = m n' k')
    (hempty : ∀ k', m' c k' = none) {ks : List K} (hks : ks.length = d) : walk m' root ks = walk m root ks := by
  by_cases hpre : p ++ [k] <+: ks
  · -- both walks reach `n` along `p` and die in the slot `k` or right behind it
    obtain ⟨ls, rfl⟩ := hpre
    have hroot : walk m' root p = some n := by
      rw [← tr.walk_of_path hn]
      refine tr.walk_congr tr.root (by simp; omega) ?_
      intro n' q k' hq hqp
      apply hsame n' q k' hq
      rintro ⟨rfl, rfl⟩
      rw [hn] at hq
      cases hq
      have := hqp.length_le
      simp only [List.length_append, List.length_cons, List.length_nil] at this
      omega
    have hls : ls ≠ [] := by
      rintro rfl
      simp at hks
      omega
    obtain ⟨l, ls', rfl⟩ := List.exists_cons_of_ne_nil hls
    rw [List.append_assoc, walk_append, walk_append, hroot, tr.walk_of_path hn]
    simp [walk, hset, hnone, hempty]
  · refine tr.walk_congr tr.root (by simp [hks]) ?_
    intro n' q k' hq hqp
    apply hsame n' q k' hq
    rintro ⟨rfl, rfl⟩
    rw [hn] at hq
    cases hq
    exact hpre (by simpa using hqp)

end Update

end Lib
