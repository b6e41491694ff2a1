import Mathlib.Data.List.Nodup
import HAL9000.Lib.Reach

/-!
# Locks that are handed over

A lock belongs to one thread at most, which may take it several times, and has a queue of threads
that wait for it. Who lets go of it gives it to the first thread of the queue. A log counts the calls
and records who started to wait and who was handed the lock.

`Kept` is what such locks are for: the holder is the one thread that has taken the lock and not let go
of it, and the queue is what is left of those who started to wait.
-/

namespace Lib
open Function

@[ext]
structure LockLog (T X : Type*) where
  /-- How often a thread has asked for a lock. -/
  acquires : T → X → Nat
  /-- How often a thread has released a lock. -/
  releases : T → X → Nat
  /-- The threads that had to wait, in the order in which they started. -/
  started : X → List T
  /-- The threads that have been handed the lock, in this order. -/
  received : X → List T
  /-- How often a holder has let go of the lock altogether. -/
  vacated : X → Nat

def LockLog.empty {T X : Type*} : LockLog T X := ⟨fun _ _ => 0, fun _ _ => 0, fun _ => [], fun _ => [], fun _ => 0⟩

/-- Locks with their holders, how often the holder has them, and who waits. -/
@[ext]
structure Locks (T X : Type*) where
  holder : X → Option T
  depth : X → Nat
  queue : X → List T
  log : LockLog T X

section Log

variable {T X : Type*} [DecidableEq T] [DecidableEq X]

def LockLog.acquire (l : LockLog T X) (t : T) (x : X) : LockLog T X :=
  { l with acquires := fun v y => if v = t ∧ y = x then l.acquires v y + 1 else l.acquires v y }

def LockLog.release (l : LockLog T X) (t : T) (x : X) : LockLog T X :=
  { l with releases := fun v y => if v = t ∧ y = x then l.releases v y + 1 else l.releases v y }

def LockLog.start (l : LockLog T X) (t : T) (x : X) : LockLog T X :=
  { l with started := update l.started x (l.started x ++ [t]) }

def LockLog.vacate (l : LockLog T X) (next : Option T) (x : X) : LockLog T X := { l with
    received := update l.received x (l.received x ++ next.toList)
    vacated := update l.vacated x (l.vacated x + 1) }

end Log

namespace Locks

variable {T X : Type*}

/-- The holder and the queue agree with what has happened. -/
structure Kept (l : Locks T X) : Prop where
  free : ∀ {x}, l.holder x = none → l.queue x = []
  nodup : ∀ x, (l.queue x).Nodup
  not_mem : ∀ {t x}, l.holder x = some t → t ∉ l.queue x
  pos : ∀ {t x}, l.holder x = some t → 0 < l.depth x
  held : ∀ {t x}, l.holder x = some t → l.log.acquires t x = l.log.releases t x + l.depth x
  waiting : ∀ {t x}, t ∈ l.queue x → l.log.acquires t x = l.log.releases t x + 1
  outside : ∀ {t x}, l.holder x ≠ some t → t ∉ l.queue x →
    l.log.acquires t x = l.log.releases t x
  order : ∀ x, l.log.started x = l.log.received x ++ l.queue x

section Since

variable {l₀ l : Locks T X} {t : T} {x : X} {k : Nat}

/-- From `l₀` on, the thread in place `k` of the queue has received the lock, or each time the lock was
    let go of it was given to a thread further in front. -/
structure Since (l₀ : Locks T X) (x : X) (k : Nat) (l : Locks T X) : Prop where
  started : l₀.log.started x <+: l.log.started x
  passed : (l₀.log.received x).length + k < (l.log.received x).length ∨
    (l.log.received x).length + l₀.log.vacated x =
      (l₀.log.received x).length + l.log.vacated x

lemma Since.refl (l : Locks T X) (x : X) (k : Nat) : Since l x k l := ⟨List.prefix_rfl, .inr rfl⟩

lemma Since.queue_ne_nil (h : Since l₀ x k l) (h0 : Kept l₀) (hl : Kept l)
    (hk : k < (l₀.queue x).length) (hr : (l.log.received x).length ≤ (l₀.log.received x).length + k) :
    l.queue x ≠ [] := by
  intro hq
  have hle := h.started.length_le
  rw [h0.order x, hl.order x, hq, List.length_append, List.length_append, List.length_nil] at hle
  omega

lemma Since.received (h : Since l₀ x k l) (h0 : Kept l₀) (hl : Kept l)
    (hk : (l₀.queue x)[k]? = some t) (hv : l₀.log.vacated x + k < l.log.vacated x) :
    (l.log.received x)[(l₀.log.received x).length + k]? = some t := by
  have hlen : (l₀.log.received x).length + k < (l.log.received x).length := by
    rcases h.passed with hp | hp
    · exact hp
    · omega
  have hstarted : (l₀.log.started x)[(l₀.log.received x).length + k]? = some t := by
    rw [h0.order x, List.getElem?_append_right (Nat.le_add_right ..), Nat.add_sub_cancel_left, hk]
  calc (l.log.received x)[(l₀.log.received x).length + k]?
      = (l.log.started x)[(l₀.log.received x).length + k]? := by
        rw [hl.order x, List.getElem?_append_left hlen]
    _ = (l₀.log.started x)[(l₀.log.received x).length + k]? := by
        obtain ⟨later, he⟩ := h.started
        rw [← he, List.getElem?_append_left (List.getElem?_eq_some_iff.mp hstarted).1]
    _ = some t := hstarted

end Since

variable [DecidableEq T] [DecidableEq X]

inductive Step : Locks T X → Locks T X → Prop where
  | stay {l} : Step l l
  | deepen {l t x} : l.holder x = some t →
    Step l { l with depth := update l.depth x (l.depth x + 1), log := l.log.acquire t x }
  | take {l t x} : l.holder x = none →
    Step l { l with
      holder := update l.holder x (some t)
      depth := update l.depth x 1
      log := l.log.acquire t x }
  | wait {l t x} : l.holder x ≠ none → l.holder x ≠ some t → t ∉ l.queue x →
    Step l { l with queue := update l.queue x (l.queue x ++ [t]), log := (l.log.acquire t x).start t x }
  | lessen {l t x} : l.holder x = some t → 1 < l.depth x →
    Step l { l with depth := update l.depth x (l.depth x - 1), log := l.log.release t x }
  | free {l t x} : l.holder x = some t → l.depth x ≤ 1 → l.queue x = [] →
    Step l { l with holder := update l.holder x none, log := (l.log.release t x).vacate none x }
  | pass {l t x u us} : l.holder x = some t → l.depth x ≤ 1 → l.queue x = u :: us →
    Step l { l with
      holder := update l.holder x (some u)
      depth := update l.depth x 1
      queue := update l.queue x us
      log := (l.log.release t x).vacate (some u) x }

attribute [local grind =] update_apply List.nodup_append List.nodup_cons

variable {l₀ l l' : Locks T X} {x : X} {k : Nat}

lemma Kept.step (h : Kept l) (hs : Step l l') : Kept l' := by
  obtain ⟨hfree, hnodup, hnot, hpos, hheld, hwait, hout, horder⟩ := h
  cases hs with
  | stay => exact ⟨hfree, hnodup, hnot, hpos, hheld, hwait, hout, horder⟩
  | deepen hx | take hx =>
    simp only [LockLog.acquire]
    constructor <;> grind -linarith
  | wait hx hne hq =>
    simp only [LockLog.acquire, LockLog.start]
    constructor <;> grind -linarith
  | lessen hx hd =>
    simp only [LockLog.release]
    constructor <;> grind -linarith
  | free hx hd hq | pass hx hd hq =>
    simp only [LockLog.release, LockLog.vacate]
    constructor <;> grind -linarith

lemma Since.step (h : Since l₀ x k l) (h0 : Kept l₀) (hl : Kept l) (hk : k < (l₀.queue x).length)
    (hs : Step l l') : Since l₀ x k l' := by
  obtain ⟨hstart, hpass⟩ := h
  cases hs with
  | wait hx hne hq =>
    refine ⟨hstart.trans ?_, hpass⟩
    simp only [LockLog.acquire, LockLog.start]
    grind -linarith [List.prefix_append]
  | @free t y hx hd hq =>
    refine ⟨hstart, ?_⟩
    by_cases e : x = y
    · subst e
      -- nobody waits, so the thread has received the lock before
      by_contra hn
      refine Since.queue_ne_nil ⟨hstart, hpass⟩ h0 hl hk ?_ hq
      simp only [LockLog.release, LockLog.vacate, update_self, Option.toList_none, List.append_nil] at hn
      omega
    · simpa [LockLog.release, LockLog.vacate, update_of_ne e] using hpass
  | pass hx hd hq =>
    refine ⟨hstart, ?_⟩
    simp only [LockLog.release, LockLog.vacate]
    grind -linarith
  | _ => exact ⟨hstart, hpass⟩

end Locks

end Lib
