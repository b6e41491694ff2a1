import HAL9000.Lib.Notify
import HAL9000.NetworkPort.Model

/-!
# Frames of a network port: order and wakeups

Whoever inserts a frame into an empty list signals the event after it has left the lock, and the event is
cleared under the lock by somebody who has found the list empty. So while there are frames, the event is signaled
or a signal is owed, and no consumer waits for it in vain. The two sides of a port share the argument: their
consumers differ, but each of their steps is one of the moves `Move`.
-/

namespace HAL9000.NetworkPort
open Lib Function

/-! ### Steps of producers and consumers -/

def ProducerPc.fresh : ProducerPc → Bool
  | .link | .enabled | .allocate | .acquire | .test | .insert _ => true
  | _ => false

def ProducerPc.inside : ProducerPc → Bool
  | .test | .insert _ | .release _ => true
  | _ => false

/-- The call has inserted its frame into an empty list and not signaled the event yet. -/
def ProducerPc.owes : ProducerPc → Bool
  | .release listWasEmpty => listWasEmpty
  | .signal => true
  | _ => false

/-- The call neither holds the lock nor owes a signal. -/
structure ProducerPc.Idle (pc : ProducerPc) : Prop where
  inside : pc.inside = false
  owes : pc.owes = false

instance (pc : ProducerPc) : Decidable pc.Idle :=
  decidable_of_iff (pc.inside = false ∧ pc.owes = false) ⟨fun h => ⟨h.1, h.2⟩, fun h => ⟨h.1, h.2⟩⟩

lemma SendFrame.allocate_idle (q : SendFrame) (bufferSize : Nat) : (q.allocate bufferSize).Idle := by
  unfold SendFrame.allocate
  split
  · decide
  · split <;> decide

lemma ReceiveBuffer.allocate_idle (q : ReceiveBuffer) (numberOfBuffers bufferSize : Nat) :
    (q.allocate numberOfBuffers bufferSize).Idle := by
  unfold ReceiveBuffer.allocate
  split
  · decide
  · split
    · decide
    · split <;> decide

/-- What there is to know about those who empty a list: what a signal does to them, whether they hold the lock,
    have found the list empty, are about to remove a frame, are blocked, and which frame they have. -/
class Consumer (E : outParam Type) (K : Type) where
  wake : K → K
  inside : K → Bool
  foundEmpty : K → Bool
  peeked : K → Option E
  blocked : K → Bool
  frame : K → Option E
  inside_wake : ∀ k, inside (wake k) = inside k
  foundEmpty_wake : ∀ k, foundEmpty (wake k) = foundEmpty k
  peeked_wake : ∀ k, peeked (wake k) = peeked k
  blocked_wake : ∀ k, blocked (wake k) = false
  frame_wake : ∀ k, frame (wake k) = frame k

open Consumer

section Moves

variable {E C K : Type} [Consumer E K] {s s' : PortBuffers E C K}

/-- A consumer is at a place where it neither holds the lock nor waits, unless the event is not signaled. -/
structure Outside (signaled : Bool) (k k' : K) : Prop where
  inside : inside k' = false
  foundEmpty : foundEmpty k' = false
  peeked : peeked k' = none
  blocked : blocked k' = true → signaled = false
  frame : ∀ e, frame k' = some e → frame k = some e

/-- A consumer is at a place where it holds the lock, and has looked at the list. -/
structure Inside (framesList : List E) (k k' : K) : Prop where
  inside : inside k' = true
  foundEmpty : foundEmpty k' = true → framesList = []
  peeked : ∀ e, peeked k' = some e → ∃ es, framesList = e :: es
  blocked : blocked k' = false
  frame : ∀ e, frame k' = some e → frame k = some e

lemma Outside.empty {k k' : K} {signaled : Bool} (hi : Consumer.inside k' = false)
    (he : Consumer.foundEmpty k' = false) (hp : Consumer.peeked k' = none)
    (hb : Consumer.blocked k' = true → signaled = false) (hf : Consumer.frame k' = none) :
    Outside signaled k k' :=
  ⟨hi, he, hp, hb, by simp [hf]⟩

lemma Inside.empty {k k' : K} {framesList : List E} (hi : Consumer.inside k' = true)
    (he : Consumer.foundEmpty k' = false) (hp : Consumer.peeked k' = none)
    (hb : Consumer.blocked k' = false) (hf : Consumer.frame k' = none) : Inside framesList k k' := by
  constructor <;> simp [hi, he, hp, hb, hf]

variable [DecidableEq E] [DecidableEq C]

inductive Move (s : PortBuffers E C K) : PortBuffers E C K → Prop where
  | count {n} : Move s { s with numberOfFramesTransferred := n }
  | prepare {e pc n} : (s.producer e).Idle → pc.Idle → (pc.fresh = true → (s.producer e).fresh = true) →
    Move s { s with producer := update s.producer e pc, numberOfFramesTransferred := n }
  | acquire {e} : s.producer e = .acquire → s.framesLock = none →
    Move s { s with framesLock := some (.inl e), producer := update s.producer e .test }
  | test {e} : s.producer e = .test →
    Move s { s with producer := update s.producer e (.insert s.framesList.isEmpty) }
  | insert {e b} : s.producer e = .insert b →
    Move s { s with
      framesList := s.framesList ++ [e]
      inserted := s.inserted ++ [e]
      producer := update s.producer e (.release b) }
  | releaseSignal {e} : s.producer e = .release true →
    Move s { s with framesLock := none, producer := update s.producer e .signal }
  | release {e pc} : s.producer e = .release false → pc.fresh = false → pc.Idle →
    Move s { s with framesLock := none, producer := update s.producer e pc }
  | signal {e pc} : s.producer e = .signal → pc.fresh = false → pc.Idle →
    Move s { s with
      framesListNotEmptyEvent := true
      consumer := fun c => wake (s.consumer c)
      producer := update s.producer e pc }
  | outside {c k n} : inside (s.consumer c) = false → Outside s.framesListNotEmptyEvent (s.consumer c) k →
    Move s { s with consumer := update s.consumer c k, numberOfFramesTransferred := n }
  | enter {c k} : s.framesLock = none → Inside s.framesList (s.consumer c) k →
    Move s { s with framesLock := some (.inr c), consumer := update s.consumer c k }
  | look {c k} : inside (s.consumer c) = true → Inside s.framesList (s.consumer c) k →
    Move s { s with consumer := update s.consumer c k }
  | take {c k e} : inside (s.consumer c) = true →
    (peeked (s.consumer c) = some e ∨ ∃ es, s.framesList = e :: es) → inside k = true → foundEmpty k = false →
    peeked k = none → blocked k = false → frame k = some e →
    Move s { s with
      framesList := s.framesList.erase e
      removed := s.removed ++ [e]
      consumer := update s.consumer c k }
  | clear {c k} : foundEmpty (s.consumer c) = true → inside (s.consumer c) = true →
    Inside s.framesList (s.consumer c) k →
    Move s { s with framesListNotEmptyEvent := false, consumer := update s.consumer c k }
  | leave {c k} : inside (s.consumer c) = true → Outside true (s.consumer c) k →
    Move s { s with framesLock := none, consumer := update s.consumer c k }

/-- The lock is held by those between its operations, who know whether the list is empty or what comes first in
    it; frames are inserted and removed in order and once, and given to one consumer each; and the list is
    attended. -/
structure Kept (s : PortBuffers E C K) : Prop where
  producers : ∀ e, (s.producer e).inside = true ↔ s.framesLock = some (.inl e)
  consumers : ∀ c, inside (s.consumer c) = true ↔ s.framesLock = some (.inr c)
  tested : ∀ {e b}, s.producer e = .insert b → b = s.framesList.isEmpty
  foundEmpty : ∀ {c}, foundEmpty (s.consumer c) = true → inside (s.consumer c) = true ∧ s.framesList = []
  peeked : ∀ {c e}, peeked (s.consumer c) = some e →
    inside (s.consumer c) = true ∧ ∃ es, s.framesList = e :: es
  blocked : ∀ {c}, blocked (s.consumer c) = true → s.framesListNotEmptyEvent = false
  fresh : ∀ {e}, (s.producer e).fresh = true → e ∉ s.inserted
  fifo : Fifo s.inserted s.removed s.framesList
  given : ∀ {c e}, frame (s.consumer c) = some e → e ∈ s.removed
  alone : ∀ {c d e}, frame (s.consumer c) = some e → frame (s.consumer d) = some e → c = d
  attended : Attended s.framesList s.framesListNotEmptyEvent (fun e => (s.producer e).owes = true)

attribute [local grind =] update_apply inside_wake foundEmpty_wake peeked_wake blocked_wake frame_wake
attribute [local grind →] Outside.inside Outside.foundEmpty Outside.peeked Outside.blocked Outside.frame
  Inside.inside Inside.foundEmpty Inside.peeked Inside.blocked Inside.frame
  ProducerPc.Idle.inside ProducerPc.Idle.owes
attribute [local grind] ProducerPc.fresh ProducerPc.inside ProducerPc.owes

omit [DecidableEq E] [DecidableEq C] in
lemma first_of_taken (h : Kept s) {c : C} {e : E}
    (he : peeked (s.consumer c) = some e ∨ ∃ es, s.framesList = e :: es) : ∃ es, s.framesList = e :: es :=
  he.elim (fun hp => (h.peeked hp).2) id

omit [DecidableEq E] [DecidableEq C] in
lemma Kept.not_removed (h : Kept s) {e : E} {es : List E} (he : s.framesList = e :: es) : e ∉ s.removed := by
  have hnodup := h.fifo.once
  rw [h.fifo.order, he, List.nodup_append] at hnodup
  exact fun hmem => hnodup.2.2 e hmem e List.mem_cons_self rfl

section

variable (h : Kept s) (hv : Move s s')
include h hv

lemma producers_move (e : E) : (s'.producer e).inside = true ↔ s'.framesLock = some (.inl e) := by
  have producers := h.producers
  have consumers := h.consumers
  clear h
  cases hv <;> grind -linarith

lemma consumers_move (c : C) : inside (s'.consumer c) = true ↔ s'.framesLock = some (.inr c) := by
  have producers := h.producers
  have consumers := h.consumers
  clear h
  cases hv <;> grind -linarith

lemma tested_move {e : E} {b : Bool} (he : s'.producer e = .insert b) : b = s'.framesList.isEmpty := by
  have producers := h.producers
  have consumers := h.consumers
  have tested := @h.tested
  clear h
  cases hv <;> grind -linarith

lemma foundEmpty_move {c : C} (hc : foundEmpty (s'.consumer c) = true) :
    inside (s'.consumer c) = true ∧ s'.framesList = [] := by
  have producers := h.producers
  have consumers := h.consumers
  have found := @h.foundEmpty
  clear h
  cases hv <;> grind -linarith

lemma peeked_move {c : C} {e : E} (hc : peeked (s'.consumer c) = some e) :
    inside (s'.consumer c) = true ∧ ∃ es, s'.framesList = e :: es := by
  have producers := h.producers
  have consumers := h.consumers
  have found := @h.peeked
  clear h
  cases hv <;> grind -linarith

lemma blocked_move {c : C} (hc : blocked (s'.consumer c) = true) : s'.framesListNotEmptyEvent = false := by
  have blocked := @h.blocked
  clear h
  cases hv <;> grind -linarith

lemma fresh_move {e : E} (he : (s'.producer e).fresh = true) : e ∉ s'.inserted := by
  have fresh := @h.fresh
  clear h
  cases hv <;> grind -linarith

lemma fifo_move : Fifo s'.inserted s'.removed s'.framesList := by
  cases hv with
  | insert hpc => exact h.fifo.insert (h.fresh (by rw [hpc]; rfl))
  | take _ he =>
    obtain ⟨es, hes⟩ := first_of_taken h he
    have hfifo := h.fifo
    rw [hes] at hfifo
    simp only [hes, List.erase_cons_head]
    exact hfifo.take
  | _ => exact h.fifo

lemma given_move {c : C} {e : E} (he : frame (s'.consumer c) = some e) : e ∈ s'.removed := by
  have given := @h.given
  clear h
  cases hv <;> grind -linarith

lemma alone_move {c d : C} {e : E} (hc : frame (s'.consumer c) = some e) (hd : frame (s'.consumer d) = some e) :
    c = d := by
  have given := @h.given
  have alone := @h.alone
  cases hv
  case take _ he _ _ _ _ _ =>
    obtain ⟨es, hes⟩ := first_of_taken h he
    have hnot := h.not_removed hes
    clear h
    grind -linarith
  all_goals
    clear h
    grind -linarith

lemma attended_move : Attended s'.framesList s'.framesListNotEmptyEvent (fun e => (s'.producer e).owes = true) := by
  cases hv with
  | @insert e b hpc =>
    cases b with
    | true => exact attended_of_owes (p := e) (by simp [ProducerPc.owes])
    | false =>
      have hne : s.framesList ≠ [] := List.isEmpty_eq_false_iff.mp (h.tested hpc).symm
      exact (h.attended.insert hne).mono fun e he => by grind -linarith
  | signal => exact attended_signaled
  | take _ he =>
    obtain ⟨es, hes⟩ := first_of_taken h he
    have hatt := h.attended
    rw [hes] at hatt
    simp only [hes, List.erase_cons_head]
    exact hatt.take
  | clear hempty =>
    simp only [(h.foundEmpty hempty).2]
    exact attended_nil
  | count | outside | enter | look | leave => exact h.attended
  | prepare | acquire | test | releaseSignal | release =>
    exact h.attended.mono fun e he => by grind -linarith

lemma Kept.move : Kept s' where
  producers := producers_move h hv
  consumers := consumers_move h hv
  tested := tested_move h hv
  foundEmpty := foundEmpty_move h hv
  peeked := peeked_move h hv
  blocked := blocked_move h hv
  fresh := fresh_move h hv
  fifo := fifo_move h hv
  given := given_move h hv
  alone := alone_move h hv
  attended := attended_move h hv

end

/-- Frames leave the list in the order they were inserted and each of them once, to one consumer each. While there
    are frames and no call is between its insertion and its signal, the event is signaled and no consumer is
    blocked. -/
structure Orderly (s : PortBuffers E C K) : Prop where
  order : s.inserted = s.removed ++ s.framesList
  once : s.inserted.Nodup
  given : ∀ c e, frame (s.consumer c) = some e → e ∈ s.removed
  alone : ∀ c d e, frame (s.consumer c) = some e → frame (s.consumer d) = some e → c = d
  awake : s.framesList ≠ [] → (∀ e, (s.producer e).owes = false) →
    s.framesListNotEmptyEvent = true ∧ ∀ c, blocked (s.consumer c) = false

omit [DecidableEq E] [DecidableEq C] in
lemma kept_initial {producer : ProducerPc} {consumer : K} (h : s.Initial producer consumer)
    (hp : producer.inside = false) (hk : Outside false consumer consumer) (hf : frame consumer = none) :
    Kept s where
  producers := by simp [h.producer, hp, h.framesLock]
  consumers := by simp [h.consumer, hk.inside, h.framesLock]
  tested := by
    intro e b he
    rw [h.producer e] at he
    rw [he] at hp
    cases hp
  foundEmpty := by simp [h.consumer, hk.foundEmpty]
  peeked := by simp [h.consumer, hk.peeked]
  blocked _ := h.framesListNotEmptyEvent
  fresh := by simp [h.inserted]
  fifo := by
    rw [h.inserted, h.removed, h.framesList]
    exact fifo_nil
  given := by simp [h.consumer, hf]
  alone := by simp [h.consumer, hf]
  attended := by
    rw [h.framesList]
    exact attended_nil

omit [DecidableEq E] [DecidableEq C] in
lemma Kept.orderly (h : Kept s) : Orderly s where
  order := h.fifo.order
  once := h.fifo.once
  given _ _ := h.given
  alone _ _ _ := h.alone
  awake := by
    intro hne howes
    have hsig : s.framesListNotEmptyEvent = true := by
      obtain hsig | ⟨e, he⟩ := h.attended hne
      · exact hsig
      · rw [howes e] at he
        cases he
    refine ⟨hsig, fun c => ?_⟩
    by_contra hb
    rw [h.blocked (Bool.eq_true_of_not_eq_false hb)] at hsig
    cases hsig

lemma move_of_insertFrame {after : ProducerPc} {e : E} (hfresh : after.fresh = false)
    (hidle : after.Idle) (h : s.insertFrame wake after e = .ok s') : Move s s' := by
  unfold PortBuffers.insertFrame at h
  cases hpc : s.producer e with simp only [hpc] at h
  | acquire =>
    split at h
    · next hl =>
      cases h
      exact .acquire hpc (Option.isNone_iff_eq_none.mp hl)
    · cases h
  | test =>
    cases h
    exact .test hpc
  | insert b =>
    cases h
    exact .insert hpc
  | release b =>
    cases h
    cases b with
    | true => exact .releaseSignal hpc
    | false => exact .release hpc hfresh hidle
  | signal =>
    cases h
    exact .signal hpc hfresh hidle
  | _ => cases h

end Moves

/-! ### Sending -/

section Sending

variable {E : Type}

instance : Consumer E (TransmitPc E) where
  wake := TransmitPc.wake
  inside
    | .remove | .clear | .release _ => true
    | _ => false
  foundEmpty
    | .clear => true
    | _ => false
  peeked _ := none
  blocked
    | .blocked => true
    | _ => false
  frame
    | .release entry => entry
    | .available e _ | .starved e _ | .send e _ => some e
    | _ => none
  inside_wake k := by cases k <;> rfl
  foundEmpty_wake k := by cases k <;> rfl
  peeked_wake _ := rfl
  blocked_wake k := by cases k <;> rfl
  frame_wake k := by cases k <;> rfl

variable [DecidableEq E] {sends : Nat → Nat → Bool} {q : E → SendFrame} {s s' : TxData E}

lemma move_of_sender {e : E} (h : s.netDispatchSendFrame q e = .ok s') : Move s.toPortBuffers s'.toPortBuffers := by
  unfold TxData.netDispatchSendFrame at h
  cases hpc : s.producer e with simp only [hpc] at h
  | link =>
    obtain ⟨_, -, h⟩ := bind_ok.mp h
    cases h
    refine .prepare (by rw [hpc]; decide) ?_ (by rw [hpc]; exact fun _ => rfl)
    cases s.linkUp <;> decide
  | enabled =>
    cases h
    refine .prepare (by rw [hpc]; decide) ?_ (by rw [hpc]; exact fun _ => rfl)
    cases s.txEnabled <;> decide
  | allocate =>
    cases h
    exact .prepare (by rw [hpc]; decide) ((q e).allocate_idle _) (by rw [hpc]; exact fun _ => rfl)
  | acquire | test | insert | release | signal =>
    obtain ⟨b, hb, h⟩ := bind_ok.mp h
    cases h
    exact move_of_insertFrame rfl (by decide) hb
  | count | done => cases h

lemma update_unit {K : Type} (f : Unit → K) (k : K) : (fun _ => k) = update f () k := by
  funext c
  rfl

lemma move_of_worker (h : s.netPortTransmitFunction sends q = .ok s') : Move s.toPortBuffers s'.toPortBuffers := by
  unfold TxData.netPortTransmitFunction at h
  simp only [update_unit s.consumer] at h
  cases hpc : s.consumer () with simp only [hpc] at h
  | wait =>
    cases h
    refine .outside (by rw [hpc]; rfl) ?_
    cases hev : s.framesListNotEmptyEvent with
    | true => exact .empty rfl rfl rfl (by simp [blocked]) rfl
    | false => exact .empty rfl rfl rfl (by simp) rfl
  | acquire =>
    split at h
    · next hl =>
      cases h
      exact .enter (Option.isNone_iff_eq_none.mp hl) (.empty rfl rfl rfl rfl rfl)
    · cases h
  | remove =>
    split at h
    · next hl =>
      cases h
      refine .look (by rw [hpc]; rfl) ⟨rfl, fun _ => hl, ?_, rfl, ?_⟩ <;> simp [peeked, frame]
    · next e es hl =>
      cases h
      have hv := Move.take (s := s.toPortBuffers) (c := ()) (k := .release (some e)) (e := e)
        (by rw [hpc]; rfl) (.inr ⟨es, hl⟩) rfl rfl rfl rfl rfl
      rw [hl, List.erase_cons_head] at hv
      exact hv
  | clear =>
    cases h
    exact .clear (by rw [hpc]; rfl) (by rw [hpc]; rfl) (.empty rfl rfl rfl rfl rfl)
  | release entry =>
    cases entry with
    | none =>
      cases h
      exact .leave (by rw [hpc]; rfl) (.empty rfl rfl rfl (by simp [blocked]) rfl)
    | some e =>
      cases h
      exact .leave (by rw [hpc]; rfl) ⟨rfl, rfl, rfl, by simp [blocked], fun e h => by rw [hpc]; exact h⟩
  | available e i =>
    cases h
    refine .outside (by rw [hpc]; rfl) ?_
    cases s.descriptorsAvailable <;>
      exact ⟨rfl, rfl, rfl, by simp [blocked], fun e h => by rw [hpc]; exact h⟩
  | send e i =>
    obtain ⟨_, -, h⟩ := bind_ok.mp h
    obtain ⟨_, -, h⟩ := bind_ok.mp h
    split at h
    · cases h
    · cases h
      exact .outside (by rw [hpc]; rfl) (.empty rfl rfl rfl (by simp [blocked]) rfl)
  | blocked | starved => cases h

lemma move_of_txDevice (a : DeviceAction) : Move s.toPortBuffers (s.deviceAction a).toPortBuffers := by
  cases a with
  | notifyTxDescriptorAvailable =>
    cases hpc : s.consumer () with
    | starved e i =>
      have hc : (fun c => (s.consumer c).refill) = update s.consumer () (.send e i) := by
        funext c
        simp [hpc, TransmitPc.refill]
      simp only [TxData.deviceAction, hc]
      exact .outside (by rw [hpc]; rfl) ⟨rfl, rfl, rfl, by simp [blocked], fun e h => by rw [hpc]; exact h⟩
    | _ =>
      have hc : (fun c => (s.consumer c).refill) = s.consumer := by
        funext c
        simp [hpc, TransmitPc.refill]
      simp only [TxData.deviceAction, hc]
      exact .count
  | _ => exact .count

lemma tx_move {a : TxActor E} (h : TxStep sends q s a s') : Move s.toPortBuffers s'.toPortBuffers := by
  cases a with
  | sender e => exact move_of_sender h
  | worker => exact move_of_worker h
  | device a =>
    cases h
    exact move_of_txDevice a

lemma kept_tx (h : Reach TxInitial (TxStep sends q) (fun _ _ => True) s) : Kept s.toPortBuffers := by
  induction h with
  | start hi => exact kept_initial hi rfl (.empty rfl rfl rfl (by simp) rfl) rfl
  | step _ _ hs ih => exact ih.move (tx_move hs)

end Sending

/-! ### Receiving -/

section Receiving

variable {E C : Type}

instance : Consumer E (ReceivePc E) where
  wake := ReceivePc.wake
  inside
    | .peek | .remove _ | .clear | .release .. => true
    | _ => false
  foundEmpty
    | .clear => true
    | _ => false
  peeked
    | .remove e => some e
    | _ => none
  blocked
    | .blocked => true
    | _ => false
  frame
    | .release (some e) true => some e
    | .done _ _ frame => frame
    | _ => none
  inside_wake k := by cases k <;> rfl
  foundEmpty_wake k := by cases k <;> rfl
  peeked_wake k := by cases k <;> rfl
  blocked_wake k := by cases k <;> rfl
  frame_wake k := by cases k <;> rfl

variable [DecidableEq E] [DecidableEq C] {q : E → ReceiveBuffer} {outputBufferSize : C → Nat}
  {s s' : RxData E C}

lemma move_of_miniport {e : E} (h : s.networkPortNotifyReceiveBuffer q e = .ok s') :
    Move s.toPortBuffers s'.toPortBuffers := by
  unfold RxData.networkPortNotifyReceiveBuffer at h
  cases hpc : s.producer e with simp only [hpc] at h
  | allocate =>
    obtain ⟨_, -, h⟩ := bind_ok.mp h
    cases h
    exact .prepare (by rw [hpc]; decide) ((q e).allocate_idle _ _) (by rw [hpc]; exact fun _ => rfl)
  | acquire | test | insert | release | signal =>
    obtain ⟨b, hb, h⟩ := bind_ok.mp h
    cases h
    exact move_of_insertFrame rfl (by decide) hb
  | count =>
    cases h
    exact .prepare (by rw [hpc]; decide) (by decide) (by simp [ProducerPc.fresh])
  | link | enabled | done => cases h

lemma move_of_receiver {c : C} (h : s.netDispatchReceiveFrame q outputBufferSize c = .ok s') :
    Move s.toPortBuffers s'.toPortBuffers := by
  unfold RxData.netDispatchReceiveFrame at h
  cases hpc : s.consumer c with simp only [hpc] at h
  | start =>
    obtain ⟨_, -, h⟩ := bind_ok.mp h
    cases h
    exact .outside (by rw [hpc]; rfl) (.empty rfl rfl rfl (by simp [blocked]) rfl)
  | acquire =>
    split at h
    · next hl =>
      cases h
      exact .enter (Option.isNone_iff_eq_none.mp hl) (.empty rfl rfl rfl rfl rfl)
    · cases h
  | peek =>
    split at h
    · next hl =>
      cases h
      refine .look (by rw [hpc]; rfl) ⟨rfl, fun _ => hl, ?_, rfl, ?_⟩ <;> simp [peeked, frame]
    · next e es hl =>
      cases h
      refine .look (by rw [hpc]; rfl) ?_
      split
      · exact .empty rfl rfl rfl rfl rfl
      · exact ⟨rfl, by simp [foundEmpty], fun e' h => ⟨es, by cases h; exact hl⟩, rfl, by simp [frame]⟩
  | remove e =>
    cases h
    exact .take (by rw [hpc]; rfl) (.inl (by rw [hpc]; rfl)) rfl rfl rfl rfl rfl
  | clear =>
    cases h
    exact .clear (by rw [hpc]; rfl) (by rw [hpc]; rfl) (.empty rfl rfl rfl rfl rfl)
  | release entry removed =>
    cases entry with
    | none =>
      cases h
      exact .leave (by rw [hpc]; rfl) (.empty rfl rfl rfl (by simp [blocked]) rfl)
    | some e =>
      cases h
      refine .leave (by rw [hpc]; rfl) ?_
      cases removed with
      | true => exact ⟨rfl, rfl, rfl, by simp [blocked], fun e h => by rw [hpc]; exact h⟩
      | false => exact .empty rfl rfl rfl (by simp [blocked]) rfl
  | link =>
    cases h
    refine .outside (by rw [hpc]; rfl) ?_
    cases s.linkUp <;> exact .empty rfl rfl rfl (by simp [blocked]) rfl
  | enabled =>
    cases h
    refine .outside (by rw [hpc]; rfl) ?_
    cases s.rxEnabled <;> exact .empty rfl rfl rfl (by simp [blocked]) rfl
  | wait =>
    cases h
    refine .outside (by rw [hpc]; rfl) ?_
    cases hev : s.framesListNotEmptyEvent with
    | true => exact .empty rfl rfl rfl (by simp [blocked]) rfl
    | false => exact .empty rfl rfl rfl (by simp) rfl
  | blocked | done => cases h

lemma rx_move {a : RxActor E C} (h : RxStep q outputBufferSize s a s') : Move s.toPortBuffers s'.toPortBuffers := by
  cases a with
  | miniport e => exact move_of_miniport h
  | receiver c => exact move_of_receiver h
  | device a =>
    cases h
    cases a <;> exact .count

lemma kept_rx (h : Reach RxInitial (RxStep q outputBufferSize) (fun _ _ => True) s) : Kept s.toPortBuffers := by
  induction h with
  | start hi => exact kept_initial hi rfl (.empty rfl rfl rfl (by simp) rfl) rfl
  | step _ _ hs ih => exact ih.move (rx_move hs)

end Receiving

/-- The frames of a port are sent and received in order, and nobody waits for them in vain: with any number of
    senders, and with any number of notifications and receivers. -/
theorem frames_orderly {E C : Type} [DecidableEq E] [DecidableEq C] :
    (∀ (sends : Nat → Nat → Bool) (q : E → SendFrame) (s : TxData E),
      Reach TxInitial (TxStep sends q) (fun _ _ => True) s → Orderly s.toPortBuffers) ∧
    ∀ (q : E → ReceiveBuffer) (outputBufferSize : C → Nat) (s : RxData E C),
      Reach RxInitial (RxStep q outputBufferSize) (fun _ _ => True) s → Orderly s.toPortBuffers :=
  ⟨fun _ _ _ h => (kept_tx h).orderly, fun _ _ _ h => (kept_rx h).orderly⟩

section Samples

variable {E C K : Type}

def noFrames (producer : ProducerPc) (consumer : K) : PortBuffers E C K where
  numberOfBuffers := 4
  bufferSize := 1500
  framesLock := none
  framesList := []
  framesListNotEmptyEvent := false
  numberOfFramesTransferred := 0
  producer _ := producer
  consumer _ := consumer
  inserted := []
  removed := []

lemma initial_noFrames (producer : ProducerPc) (consumer : K) :
    (noFrames producer consumer : PortBuffers E C K).Initial producer consumer :=
  ⟨rfl, rfl, rfl, fun _ => rfl, fun _ => rfl, rfl, rfl⟩

def noFramesTx : TxData E := ⟨noFrames .link .wait, true, 0, true, true⟩

def noFramesRx : RxData E C := ⟨noFrames .allocate .start, true, true⟩

lemma txInitial_noFrames : TxInitial (noFramesTx (E := E)) := initial_noFrames ..

lemma rxInitial_noFrames : RxInitial (noFramesRx (E := E) (C := C)) := initial_noFrames ..

def sendRun (e x : E) : List (TxActor E) :=
  List.replicate 8 (.sender e) ++ List.replicate 7 (.sender x) ++ List.replicate 3 .worker

def receiveRun (e : E) (c : C) : List (RxActor E C) :=
  List.replicate 8 (.receiver c) ++ List.replicate 6 (.miniport e) ++ List.replicate 4 (.receiver c)

theorem frames_orderly_first :
    (∃ s : TxData Bool, s.removed = [false] ∧ s.framesList = [true] ∧ Orderly s.toPortBuffers) ∧
    ∃ s : RxData Bool Unit, s.consumer () = .done .success 60 (some true) ∧ s.removed = [true] ∧
      Orderly s.toPortBuffers := by
  obtain ⟨s, hr, hrem, hlist⟩ : ∃ s : TxData Bool,
      Reach TxInitial (TxStep (fun _ _ => true) (fun _ => ⟨60, true⟩)) (fun _ _ => True) s ∧
        s.removed = [false] ∧ s.framesList = [true] :=
    exists_reach txInitial_noFrames (sendRun false true) (by decide)
  obtain ⟨s', hr', hdone, hrem'⟩ : ∃ s : RxData Bool Unit,
      Reach RxInitial (RxStep (fun _ => ⟨0, 60, true⟩) (fun _ => 1500)) (fun _ _ => True) s ∧
        s.consumer () = .done .success 60 (some true) ∧ s.removed = [true] :=
    exists_reach rxInitial_noFrames (receiveRun true ()) (by decide)
  obtain ⟨htx, hrx⟩ := frames_orderly (E := Bool) (C := Unit)
  exact ⟨⟨s, hrem, hlist, htx _ _ s hr⟩, s', hdone, hrem', hrx _ _ s' hr'⟩

end Samples

end HAL9000.NetworkPort
