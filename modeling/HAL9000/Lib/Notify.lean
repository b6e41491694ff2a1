import Mathlib.Data.List.Nodup
import Mathlib.Tactic.Common

/-!
# Queues and their events

Consumers of a queue wait for an event, which producers signal after they have inserted an item. A producer
that is about to signal the event owes a signal. The queue is attended (`Attended`) if the event is signaled or
a signal is owed whenever there is an item. An item may be taken at any time, an item may be inserted
by somebody who then owes a signal, or into a queue that is not empty, and the event may be
cleared if the queue is empty or a signal is owed.

`Fifo` relates the items that have been inserted and taken so far to those in the queue.
-/

namespace Lib

variable {α P : Type*} {items inserted taken : List α} {signaled : Bool} {owes owes' : P → Prop} {x : α}

def Attended (items : List α) (signaled : Bool) (owes : P → Prop) : Prop :=
  items ≠ [] → signaled = true ∨ ∃ p, owes p

lemma Attended.mono (h : Attended items signaled owes) (hle : ∀ p, owes p → owes' p) :
    Attended items signaled owes' :=
  fun hne => (h hne).imp_right fun ⟨p, hp⟩ => ⟨p, hle p hp⟩

lemma attended_of_owes {p : P} (hp : owes p) : Attended items signaled owes := fun _ => .inr ⟨p, hp⟩

lemma attended_signaled : Attended items true owes := fun _ => .inl rfl

lemma attended_nil : Attended ([] : List α) signaled owes := fun h => absurd rfl h

lemma Attended.insert (h : Attended items signaled owes) (hne : items ≠ []) :
    Attended (items ++ [x]) signaled owes := fun _ => h hne

lemma Attended.take (h : Attended (x :: items) signaled owes) : Attended items signaled owes :=
  fun _ => h (List.cons_ne_nil x items)

/-- The items come out in the order they went in, and each of them went in once. -/
structure Fifo (inserted taken items : List α) : Prop where
  order : inserted = taken ++ items
  once : inserted.Nodup

lemma fifo_nil : Fifo ([] : List α) [] [] := ⟨rfl, List.nodup_nil⟩

lemma Fifo.insert (h : Fifo inserted taken items) (hx : x ∉ inserted) :
    Fifo (inserted ++ [x]) taken (items ++ [x]) where
  order := by rw [h.order, List.append_assoc]
  once := by
    rw [List.nodup_append]
    refine ⟨h.once, List.nodup_singleton x, fun y hy z hz => ?_⟩
    rw [List.mem_singleton.mp hz]
    exact fun heq => hx (heq ▸ hy)

lemma Fifo.take (h : Fifo inserted taken (x :: items)) : Fifo inserted (taken ++ [x]) items where
  order := by rw [h.order, List.append_assoc, List.singleton_append]
  once := h.once

end Lib
