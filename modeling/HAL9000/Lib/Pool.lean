import Mathlib.Algebra.Order.Group.Multiset
import HAL9000.Lib.Exec

/-!
# Blocks of memory

A `Pool O` holds blocks of memory, each with an object of type `O` in it. Addresses are given out in
order and never a second time, so a pointer to a block that has been freed leads nowhere: to read it,
to write to it or to free it again stops the call.

`Extends old p cs` says that the blocks of `p` are those of `old` and the new ones `cs`, each at an address of its
own. Allocating, writing and freeing each add, change or remove one of `cs`.
-/

namespace Lib

/-- Blocks of memory; `next` is the address that is given out next. -/
structure Pool (O : Type) where
  next : Nat
  block : Nat → Option O
  unused : ∀ a, next ≤ a → block a = none

namespace Pool

variable {O : Type} {p q old p' : Pool O} {a b : Nat} {o o' : O} {L : List Nat}

def alloc (p : Pool O) (o : O) : Pool O where
  next := p.next + 1
  block b := if b = p.next then some o else p.block b
  unused b hb := (if_neg (Nat.ne_of_gt hb)).trans (p.unused b (Nat.le_of_succ_le hb))

def erase (p : Pool O) (L : List Nat) : Pool O where
  next := p.next
  block b := if b ∈ L then none else p.block b
  unused b hb := ite_eq_left_iff.mpr fun _ => p.unused b hb

def set (p : Pool O) (a : Nat) (o : O) : Pool O where
  next := p.next
  block b := if b = a then (p.block b).map (fun _ => o) else p.block b
  unused b hb := by rw [p.unused b hb, Option.map_none, ite_self]

def read (p : Pool O) (a : Nat) : Exec O :=
  match p.block a with
  | some o => pure o
  | none => throw .wild

def write (p : Pool O) (a : Nat) (o : O) : Exec (Pool O) :=
  if (p.block a).isSome then pure (p.set a o) else throw .wild

def free (p : Pool O) (a : Nat) : Exec (Pool O) :=
  if (p.block a).isSome then pure (p.erase [a]) else throw .wild

lemma ext' (hn : p.next = q.next) (hb : ∀ a, p.block a = q.block a) : p = q := by
  cases p with
  | mk n f hf =>
    cases q with
    | mk n' f' hf' =>
      obtain rfl : n = n' := hn
      obtain rfl : f = f' := funext hb
      rfl

@[simp] lemma alloc_next : (p.alloc o).next = p.next + 1 := rfl

lemma alloc_block : (p.alloc o).block b = if b = p.next then some o else p.block b := rfl

lemma erase_block : (p.erase L).block b = if b ∈ L then none else p.block b := rfl

lemma set_block : (p.set a o).block b = if b = a then (p.block b).map (fun _ => o) else p.block b := rfl

lemma erase_block_of_notMem (h : b ∉ L) : (p.erase L).block b = p.block b := if_neg h

lemma set_self (h : p.block a = some o) : p.set a o = p := by
  refine ext' rfl fun b => ?_
  by_cases hb : b = a
  · rw [set_block, if_pos hb, hb, h, Option.map_some]
  · rw [set_block, if_neg hb]

lemma read_live (h : p.block a = some o) : p.read a = .ok o := by
  rw [read, h]
  rfl

lemma read_dead (h : p.block a = none) : p.read a = .error .wild := by
  rw [read, h]
  rfl

lemma write_live (h : p.block a = some o) : p.write a o' = .ok (p.set a o') := by
  rw [write, h]
  rfl

lemma free_live (h : p.block a = some o) : p.free a = .ok (p.erase [a]) := by
  rw [free, h]
  rfl

lemma write_dead (h : p.write a o = .ok p') (hb : p.block b = none) : p'.block b = none := by
  unfold write at h
  split at h
  · cases h
    rw [set_block, hb, Option.map_none, ite_self]
  · cases h

lemma free_dead (h : p.free a = .ok p') : p'.block a = none ∧
    ∀ b, p.block b = none → p'.block b = none := by
  unfold free at h
  split at h
  · cases h
    refine ⟨by simp [erase_block], fun b hb => ?_⟩
    rw [erase_block, hb, ite_self]
  · cases h

/-- There are new blocks `cs` at different addresses, and the old ones are as they were. -/
structure Extends (old p : Pool O) (cs : Multiset (Nat × O)) : Prop where
  next : old.next ≤ p.next
  nodup : (cs.map Prod.fst).Nodup
  cell : ∀ c ∈ cs, old.next ≤ c.1 ∧ p.block c.1 = some c.2
  same : ∀ a, a ∉ cs.map Prod.fst → p.block a = old.block a

namespace Extends

variable {cs : Multiset (Nat × O)}

lemma map_fst : ({(a, o)} + cs).map Prod.fst = a ::ₘ cs.map Prod.fst := Multiset.map_cons ..

lemma refl (p : Pool O) : Extends p p 0 := ⟨Nat.le_refl _, Multiset.nodup_zero, by simp, fun _ _ => rfl⟩

lemma same_of_lt (h : Extends old p cs) (ha : a < old.next) : p.block a = old.block a :=
  h.same a fun hm => by
    obtain ⟨c, hc, rfl⟩ := Multiset.mem_map.mp hm
    exact Nat.not_le_of_lt ha (h.cell c hc).1

lemma alloc (h : Extends old p cs) (o : O) : Extends old (p.alloc o) ({(p.next, o)} + cs) := by
  have hne : ∀ c ∈ cs, c.1 ≠ p.next := fun c hc e => by
    have hb := (h.cell c hc).2
    rw [p.unused c.1 e.ge] at hb
    cases hb
  refine ⟨Nat.le_succ_of_le h.next, ?_, ?_, fun a ha => ?_⟩
  · rw [map_fst]
    refine Multiset.nodup_cons.mpr ⟨fun hm => ?_, h.nodup⟩
    obtain ⟨c, hc, e⟩ := Multiset.mem_map.mp hm
    exact hne c hc e
  · intro c hc
    obtain rfl | hc := Multiset.mem_cons.mp hc
    · exact ⟨h.next, if_pos rfl⟩
    · exact ⟨(h.cell c hc).1, (if_neg (hne c hc)).trans (h.cell c hc).2⟩
  · rw [map_fst, Multiset.mem_cons, not_or] at ha
    exact (if_neg ha.1).trans (h.same a ha.2)

variable (h : Extends old p ({(a, o)} + cs))
include h

lemma block : p.block a = some o := (h.cell (a, o) (Multiset.mem_cons_self ..)).2

lemma notMem : ∀ c ∈ cs, c.1 ≠ a := fun c hc e => by
  have hn := h.nodup
  rw [map_fst] at hn
  exact (Multiset.nodup_cons.mp hn).1 (Multiset.mem_map.mpr ⟨c, hc, e⟩)

lemma same_of_ne (hb : b ≠ a) (hm : b ∉ cs.map Prod.fst) : p.block b = old.block b := by
  refine h.same b ?_
  rw [map_fst]
  exact Multiset.mem_cons.not.mpr (not_or.mpr ⟨hb, hm⟩)

lemma set (o' : O) : Extends old (p.set a o') ({(a, o')} + cs) := by
  refine ⟨h.next, ?_, ?_, fun b hb => ?_⟩
  · have hn := h.nodup
    rwa [map_fst] at hn ⊢
  · intro c hc
    obtain rfl | hc := Multiset.mem_cons.mp hc
    · refine ⟨(h.cell (a, o) (Multiset.mem_cons_self ..)).1, ?_⟩
      rw [set_block, if_pos rfl, h.block, Option.map_some]
    · have hold := h.cell c (Multiset.mem_cons_of_mem hc)
      exact ⟨hold.1, (if_neg (h.notMem c hc)).trans hold.2⟩
  · rw [map_fst, Multiset.mem_cons, not_or] at hb
    exact (if_neg hb.1).trans (h.same_of_ne hb.1 hb.2)

lemma erase : Extends old (p.erase [a]) cs := by
  have hn := h.nodup
  rw [map_fst] at hn
  refine ⟨h.next, (Multiset.nodup_cons.mp hn).2, fun c hc => ?_, fun b hb => ?_⟩
  · have hold := h.cell c (Multiset.mem_cons_of_mem hc)
    exact ⟨hold.1, (erase_block_of_notMem (by simpa using h.notMem c hc)).trans hold.2⟩
  · by_cases hba : b = a
    · rw [erase_block, if_pos (by simp [hba]), hba]
      exact (old.unused a (h.cell (a, o) (Multiset.mem_cons_self ..)).1).symm
    · rw [erase_block_of_notMem (by simpa using hba), h.same_of_ne hba hb]

end Extends

end Pool

end Lib
