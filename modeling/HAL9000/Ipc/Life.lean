import HAL9000.Ipc.Model
import Mathlib.Data.Finset.Card

/-!
# The life of one event

What a run shows of one event is its `Life`: the event in the pool, its sender, and for each processor
the entries in its list and what it is doing with the event. `Life.Step` is what a step of the system can
do to it.

Each processor of the destination holds a reference until it has called the function and
dereferenced the event (`Once`). The number of references that are left decides how far the event is
(`Phase`): as long as there is one, the event is in the pool; the processor that drops the last one
either signals the sender, which then holds the only reference, or frees the event. Every step keeps both
(`Life.Sound.step`).
-/

namespace HAL9000.Ipc
open Lib Function

/-- What a processor does with an event (`Isr`, for one event). -/
inductive Stage where
  | away
  | call
  | running
  | finished
  | dereference (signalTermination : Bool)
  | free
  | deallocate
  | signal
deriving DecidableEq, Repr

def Stage.holds : Stage → Nat
  | .call | .running | .finished | .dereference _ => 1
  | _ => 0

def Stage.late : Stage → Nat
  | .finished | .dereference _ => 1
  | _ => 0

/-- The processor has dropped the last reference of a processor, and goes on from there. -/
def Stage.closing : Stage → Bool
  | .free | .deallocate | .signal => true
  | _ => false

structure Life where
  event : Option IpcEvent
  sender : Sender
  queued : UInt8 → Nat
  stage : UInt8 → Stage
  handled : UInt8 → Nat
  freeCalls : Nat

def Stage.afterDereference (signalTermination : Bool) (newRefCount : Nat) : Stage :=
  if newRefCount = 0 then .free
  else if signalTermination ∧ newRefCount = 1 then .signal
  else .away

/-- A step in the life of an event that is sent to `dest`. -/
inductive Life.Step (dest : List UInt8) (wait ff : Bool) : Life → Life → Prop where
  | nobody {l} : l.sender = .idle → dest = [] → Life.Step dest wait ff l { l with sender := .done }
  | start {l ev} : l.sender = .idle → dest ≠ [] → ipcGenerateEvent wait dest.length = .ok ev →
    Life.Step dest wait ff l { l with event := some ev, sender := .insert dest }
  | insert {l c rest} : l.sender = .insert (c :: rest) → Life.Step dest wait ff l
      { l with queued := update l.queued c (l.queued c + 1), sender := .insert rest }
  | notify {l} : l.sender = .insert [] →
    Life.Step dest wait ff l { l with sender := if wait then .wait else .done }
  | wake {l ev} : l.sender = .wait → l.event = some ev → ev.signaled = true → Life.Step dest wait ff l
      { l with event := some { ev with signaled := false }, sender := .dereference }
  | senderDereference {l ev newRefCount} : l.sender = .dereference → l.event = some ev →
    rfcDereference ev.referenceCount = .ok newRefCount → Life.Step dest wait ff l
      { l with
        event := some { ev with referenceCount := newRefCount }
        sender := if newRefCount = 0 then .free else .done }
  | senderFree {l} : l.sender = .free →
    Life.Step dest wait ff l { l with freeCalls := l.freeCalls + ff.toNat, sender := .deallocate }
  | senderDeallocate {l} : l.sender = .deallocate →
    Life.Step dest wait ff l { l with event := none, sender := .done }
  | remove {l c} : 0 < l.queued c → l.stage c = .away → Life.Step dest wait ff l
      { l with queued := update l.queued c (l.queued c - 1), stage := update l.stage c .call }
  | call {l c} : l.stage c = .call → Life.Step dest wait ff l { l with stage := update l.stage c .running }
  | run {l c} : l.stage c = .running → Life.Step dest wait ff l
      { l with handled := update l.handled c (l.handled c + 1), stage := update l.stage c .finished }
  | finish {l c ev} : l.stage c = .finished → l.event = some ev → Life.Step dest wait ff l
      { l with stage := update l.stage c (.dereference ev.signalTermination) }
  | dereference {l c b ev newRefCount} : l.stage c = .dereference b → l.event = some ev →
    rfcDereference ev.referenceCount = .ok newRefCount → Life.Step dest wait ff l
      { l with
        event := some { ev with referenceCount := newRefCount }
        stage := update l.stage c (.afterDereference b newRefCount) }
  | free {l c} : l.stage c = .free → Life.Step dest wait ff l
      { l with freeCalls := l.freeCalls + ff.toNat, stage := update l.stage c .deallocate }
  | deallocate {l c} : l.stage c = .deallocate →
    Life.Step dest wait ff l { l with event := none, stage := update l.stage c .away }
  | signal {l c ev} : l.stage c = .signal → l.event = some ev → Life.Step dest wait ff l
      { l with
        event := some { ev with signaled := true }
        stage := update l.stage c .away }

section Life

variable {dest : List UInt8} {wait ff : Bool} {l l' : Life} {c : UInt8}

def Life.rest (dest : List UInt8) (l : Life) : List UInt8 :=
  match l.sender with
  | .idle => dest
  | .insert rest => rest
  | _ => []

/-- Every processor of the destination has the event once: it is still to be inserted, or in the list, or
    being worked on, or it has been handled. -/
structure Life.Once (dest : List UInt8) (l : Life) : Prop where
  once : ∀ c, (l.rest dest).count c + l.queued c + (l.stage c).holds + l.handled c =
    (if c ∈ dest then 1 else 0) + (l.stage c).late
  late_le : ∀ c, (l.stage c).late ≤ l.handled c

def Life.outstanding (dest : List UInt8) (l : Life) : Nat := dest.countP fun c => l.handled c == (l.stage c).late

variable {st : Stage} {n : Nat}

lemma Stage.late_le_holds (st : Stage) : st.late ≤ st.holds := by
  cases st with
  | finished | dereference => exact Nat.le_refl 1
  | _ => exact Nat.zero_le _

lemma Stage.holds_le_one (st : Stage) : st.holds ≤ 1 := by
  cases st with
  | call | running | finished | dereference => exact Nat.le_refl 1
  | _ => exact Nat.zero_le _

lemma Stage.afterDereference_idle (b : Bool) (n : Nat) :
    (Stage.afterDereference b n).holds = 0 ∧ (Stage.afterDereference b n).late = 0 := by
  unfold Stage.afterDereference
  split
  · exact ⟨rfl, rfl⟩
  split
  · exact ⟨rfl, rfl⟩
  · exact ⟨rfl, rfl⟩

section

variable (h : l.Once dest)
include h

lemma Life.Once.owes (hpos : 0 < (l.rest dest).count c + l.queued c + (l.stage c).holds) :
    c ∈ dest ∧ l.handled c = (l.stage c).late := by
  have honce := h.once c
  have hlate := h.late_le c
  have hle := (l.stage c).late_le_holds
  have hone := (l.stage c).holds_le_one
  by_cases hc : c ∈ dest
  · rw [if_pos hc] at honce
    exact ⟨hc, by omega⟩
  · rw [if_neg hc] at honce
    omega

lemma Life.Once.change (c : UInt8) (hrest : ∀ x ≠ c, (l'.rest dest).count x = (l.rest dest).count x)
    (hqueued : ∀ x ≠ c, l'.queued x = l.queued x) (hstage : ∀ x ≠ c, l'.stage x = l.stage x)
    (hhandled : ∀ x ≠ c, l'.handled x = l.handled x)
    (honce : (l'.rest dest).count c + l'.queued c + (l'.stage c).holds + l'.handled c + (l.stage c).late =
      (l.rest dest).count c + l.queued c + (l.stage c).holds + l.handled c + (l'.stage c).late)
    (hlate : (l'.stage c).late ≤ l'.handled c) : l'.Once dest where
  once x := by
    have hx' := h.once x
    by_cases hx : x = c
    · subst hx
      omega
    · rw [hrest x hx, hqueued x hx, hstage x hx, hhandled x hx]
      exact hx'
  late_le x := by
    by_cases hx : x = c
    · subst hx
      exact hlate
    · rw [hstage x hx, hhandled x hx]
      exact h.late_le x

lemma Life.Once.of_eq (hrest : l'.rest dest = l.rest dest) (hqueued : l'.queued = l.queued)
    (hstage : l'.stage = l.stage) (hhandled : l'.handled = l.handled) :
    l'.Once dest where
  once x := by
    rw [hrest, hqueued, hstage, hhandled]
    exact h.once x
  late_le x := by
    rw [hstage, hhandled]
    exact h.late_le x

lemma Life.Once.stage {ev : Option IpcEvent} (hholds : st.holds + (l.stage c).late = (l.stage c).holds + st.late)
    (hlate : st.late ≤ (l.stage c).late) :
    Life.Once dest { l with event := ev, freeCalls := n, stage := update l.stage c st } := by
  have hc := h.late_le c
  refine h.change c (fun x _ => rfl) (fun x _ => rfl) (fun x hx => update_of_ne hx _ _)
    (fun x _ => rfl) ?_ ?_
  · simp only [update_self, Life.rest]
    omega
  · simp only [update_self]
    omega

lemma Life.Once.step (hs : Life.Step dest wait ff l l') : l'.Once dest := by
  cases hs with
  | nobody hi hd => exact h.of_eq (by simp [rest, hi, hd]) rfl rfl rfl
  | start hi | wake hi | senderFree hi | senderDeallocate hi => exact h.of_eq (by simp [rest, hi]) rfl rfl rfl
  | @insert c rest hi =>
    refine h.change c ?_ (fun x hx => update_of_ne hx _ _) (fun x _ => rfl) (fun x _ => rfl) ?_
      (h.late_le c)
    · intro x hx
      simp [Life.rest, hi, List.count_cons_of_ne (Ne.symm hx)]
    · simp only [update_self, Life.rest, hi, List.count_cons_self]
      omega
  | notify hi =>
    refine h.of_eq ?_ rfl rfl rfl
    cases wait with
    | true | false => simp [rest, hi]
  | @senderDereference _ n hi _ _ =>
    refine h.of_eq ?_ rfl rfl rfl
    by_cases hn : n = 0
    · simp [rest, hi, hn]
    · simp [rest, hi, hn]
  | @remove c hq hst =>
    refine h.change c (fun x _ => rfl) (fun x hx => update_of_ne hx _ _)
      (fun x hx => update_of_ne hx _ _) (fun x _ => rfl) ?_ (by simp [Stage.late])
    simp only [update_self, Life.rest, hst, Stage.holds, Stage.late]
    omega
  | call hst | finish hst | free hst | deallocate hst | signal hst =>
    exact h.stage (by rw [hst]; rfl) (by rw [hst]; exact Nat.le_refl _)
  | @run c hst =>
    refine h.change c (fun x _ => rfl) (fun x _ => rfl) (fun x hx => update_of_ne hx _ _)
      (fun x hx => update_of_ne hx _ _) ?_ ?_
    · simp only [update_self, Life.rest, hst, Stage.holds, Stage.late]
      omega
    · simp [Stage.late]
  | @dereference c b ev n hst _ _ =>
    obtain ⟨hholds, hlate⟩ := Stage.afterDereference_idle b n
    refine h.stage ?_ ?_
    · rw [hholds, hlate, hst]
      rfl
    · rw [hlate]
      exact Nat.zero_le _

end

def Life.Quiet (l : Life) : Prop := ∀ c, (l.stage c).closing = false

def Life.Closes (l : Life) (c : UInt8) (st : Stage) : Prop := l.stage c = st ∧ ∀ x ≠ c, (l.stage x).closing = false

def Life.AtWork (wait : Bool) (l : Life) : Prop :=
  (∃ rest, l.sender = .insert rest) ∨ l.sender = if wait then .wait else .done

inductive Life.Phase (dest : List UInt8) (wait ff : Bool) (l : Life) : Prop where
  /-- It has not been allocated. -/
  | unborn : l.sender = .idle → l.event = none → l.freeCalls = 0 → l.Quiet → Life.Phase dest wait ff l
  /-- There is no processor to send it to. -/
  | nobody : dest = [] → l.sender = .done → l.event = none → l.freeCalls = 0 → l.Quiet →
    Life.Phase dest wait ff l
  /-- A processor holds a reference. -/
  | held : 0 < l.outstanding dest → l.AtWork wait →
    l.event = some ⟨l.outstanding dest + wait.toNat, wait, false⟩ → l.freeCalls = 0 → l.Quiet →
    Life.Phase dest wait ff l
  /-- The last processor is about to signal the sender. -/
  | signalling {c : UInt8} :
    wait = true → l.outstanding dest = 0 → l.AtWork wait → l.event = some ⟨1, true, false⟩ →
    l.freeCalls = 0 → l.Closes c .signal → Life.Phase dest wait ff l
  | signalled : wait = true → l.outstanding dest = 0 → l.AtWork wait → l.event = some ⟨1, true, true⟩ →
    l.freeCalls = 0 → l.Quiet → Life.Phase dest wait ff l
  /-- The sender has seen the signal. -/
  | woken : wait = true → l.outstanding dest = 0 → l.sender = .dereference →
    l.event = some ⟨1, true, false⟩ → l.freeCalls = 0 → l.Quiet → Life.Phase dest wait ff l
  | senderFree {ev : IpcEvent} :
    wait = true → l.outstanding dest = 0 → l.sender = .free → l.event = some ev → l.freeCalls = 0 → l.Quiet →
    Life.Phase dest wait ff l
  | senderDeallocate {ev : IpcEvent} :
    wait = true → l.outstanding dest = 0 → l.sender = .deallocate → l.event = some ev →
    l.freeCalls = ff.toNat → l.Quiet → Life.Phase dest wait ff l
  /-- The last processor frees the event. -/
  | cpuFree {c : UInt8} {ev : IpcEvent} :
    wait = false → l.outstanding dest = 0 → l.AtWork wait → l.event = some ev → l.freeCalls = 0 →
    l.Closes c .free → Life.Phase dest wait ff l
  | cpuDeallocate {c : UInt8} {ev : IpcEvent} :
    wait = false → l.outstanding dest = 0 → l.AtWork wait → l.event = some ev →
    l.freeCalls = ff.toNat → l.Closes c .deallocate → Life.Phase dest wait ff l
  /-- It has been freed. -/
  | dead : l.outstanding dest = 0 → (l.sender = .done ∨ wait = false ∧ l.AtWork wait) → l.event = none →
    l.freeCalls = ff.toNat → l.Quiet → Life.Phase dest wait ff l

lemma Life.outstanding_pos (hc : c ∈ dest) (h : l.handled c = (l.stage c).late) : 0 < l.outstanding dest :=
  List.countP_pos_iff.mpr ⟨c, hc, beq_iff_eq.mpr h⟩

lemma Life.Phase.held_of_owes (h : l.Phase dest wait ff) (hone : l.Once dest)
    (hpos : 0 < (l.rest dest).count c + l.queued c + (l.stage c).holds) (hs : l.sender ≠ .idle) :
    0 < l.outstanding dest ∧ l.AtWork wait ∧
      l.event = some ⟨l.outstanding dest + wait.toNat, wait, false⟩ ∧ l.freeCalls = 0 ∧ l.Quiet := by
  obtain ⟨hc, howes⟩ := hone.owes hpos
  have hout := Life.outstanding_pos hc howes
  cases h with
  | unborn hi => exact absurd hi hs
  | nobody hd =>
    rw [hd] at hc
    cases hc
  | held ho hw he hf hq => exact ⟨ho, hw, he, hf, hq⟩
  | signalling _ ho | signalled _ ho | woken _ ho | senderFree _ ho | senderDeallocate _ ho | cpuFree _ ho
  | cpuDeallocate _ ho | dead ho => omega

lemma Life.Once.not_idle (h : l.Once dest) (hpos : 0 < l.queued c + (l.stage c).holds) : l.sender ≠ .idle := by
  intro hs
  obtain ⟨hc, howes⟩ := h.owes (c := c) (by omega)
  have honce := h.once c
  have hrest : l.rest dest = dest := by rw [rest, hs]
  have hcount := List.count_pos_iff.mpr hc
  rw [hrest, if_pos hc] at honce
  omega

lemma Life.Phase.held_of_holds (h : l.Phase dest wait ff) (hone : l.Once dest)
    (hpos : 0 < l.queued c + (l.stage c).holds) : 0 < l.outstanding dest ∧ l.AtWork wait ∧
      l.event = some ⟨l.outstanding dest + wait.toNat, wait, false⟩ ∧ l.freeCalls = 0 ∧ l.Quiet :=
  h.held_of_owes (c := c) hone (by omega) (hone.not_idle hpos)

lemma countP_eq_succ {xs : List UInt8} {p p' : UInt8 → Bool} (hnodup : xs.Nodup) (hc : c ∈ xs)
    (hp : p c = true) (hp' : p' c = false) (h : ∀ x ≠ c, p' x = p x) :
    xs.countP p = xs.countP p' + 1 := by
  induction xs with
  | nil => cases hc
  | cons x xs ih =>
    obtain ⟨hx, hnodup⟩ := List.nodup_cons.mp hnodup
    by_cases hxc : x = c
    · subst hxc
      have hxs : xs.countP p' = xs.countP p := by
        refine List.countP_congr fun y hy => ?_
        rw [h y fun hyx => hx (hyx ▸ hy)]
      rw [List.countP_cons_of_pos hp, List.countP_cons_of_neg (by simp [hp']), hxs]
    · have hmem := (List.mem_cons.mp hc).resolve_left (Ne.symm hxc)
      rw [List.countP_cons, List.countP_cons, ih hnodup hmem, h x hxc]
      omega

lemma Life.outstanding_dereference {b : Bool} (hone : l.Once dest) (hnodup : dest.Nodup)
    (hst : l.stage c = .dereference b) (ev : Option IpcEvent) :
    l.outstanding dest = Life.outstanding dest
      { l with event := ev, stage := update l.stage c (.afterDereference b n) } + 1 := by
  have hholds : (l.stage c).holds = 1 := by rw [hst]; rfl
  obtain ⟨hc, howes⟩ := hone.owes (c := c) (by omega)
  have hlate : (l.stage c).late = 1 := by rw [hst]; rfl
  refine countP_eq_succ hnodup hc (beq_iff_eq.mpr howes) ?_ ?_
  · dsimp only
    rw [update_self, (Stage.afterDereference_idle b n).2, howes, hlate]
    rfl
  · intro x hx
    dsimp only
    rw [update_of_ne hx]

lemma Life.outstanding_congr (h : ∀ x, l'.handled x = (l'.stage x).late ↔ l.handled x = (l.stage x).late) :
    l'.outstanding dest = l.outstanding dest :=
  List.countP_congr fun x _ => by simp [h x]

lemma Life.outstanding_stage (hst : st.late = (l.stage c).late) {ev : Option IpcEvent} {k : UInt8 → Nat} :
    Life.outstanding dest
      { l with event := ev, freeCalls := n, queued := k, stage := update l.stage c st } =
        l.outstanding dest := by
  refine Life.outstanding_congr fun x => ?_
  dsimp only
  by_cases hx : x = c
  · subst hx
    rw [update_self, hst]
  · rw [update_of_ne hx]

lemma Life.quiet_of (h : ∀ x ≠ c, (l.stage x).closing = false) (hst : st.closing = false)
    (hl : l'.stage = update l.stage c st) : l'.Quiet := by
  intro x
  rw [hl]
  by_cases hx : x = c
  · subst hx
    rw [update_self, hst]
  · rw [update_of_ne hx]
    exact h x hx

lemma Life.closes_of (h : ∀ x ≠ c, (l.stage x).closing = false)
    (hl : l'.stage = update l.stage c st) : l'.Closes c st := by
  refine ⟨by rw [hl, update_self], fun x hx => ?_⟩
  rw [hl, update_of_ne hx]
  exact h x hx

section

variable (h : l.Phase dest wait ff)
include h

lemma Life.Phase.of_signaled {ev : IpcEvent} (hs : l.sender = .wait)
    (he : l.event = some ev) (hsig : ev.signaled = true) :
    wait = true ∧ l.outstanding dest = 0 ∧ l.event = some ⟨1, true, true⟩ ∧ l.freeCalls = 0 ∧ l.Quiet := by
  cases h with
  | signalled hw ho _ he hf hq => exact ⟨hw, ho, he, hf, hq⟩
  | _ => grind [Life.AtWork]

lemma Life.Phase.of_wait (hs : l.sender = .wait) :
    wait = true ∧ l.freeCalls = 0 ∧ ∃ n b, l.event = some ⟨n, true, b⟩ := by
  cases h with
  | held _ ha he hf =>
    have hw : wait = true := by grind [Life.AtWork]
    subst hw
    exact ⟨rfl, hf, _, _, he⟩
  | signalling hw _ _ he hf | signalled hw _ _ he hf => exact ⟨hw, hf, _, _, he⟩
  | _ => grind [Life.AtWork]

lemma Life.Phase.of_dereference (hs : l.sender = .dereference) :
    wait = true ∧ l.outstanding dest = 0 ∧ l.event = some ⟨1, true, false⟩ ∧ l.freeCalls = 0 ∧ l.Quiet := by
  cases h with
  | woken hw ho _ he hf hq => exact ⟨hw, ho, he, hf, hq⟩
  | _ => grind [Life.AtWork]

lemma Life.Phase.of_senderFree (hs : l.sender = .free) :
    wait = true ∧ l.outstanding dest = 0 ∧ (∃ ev, l.event = some ev) ∧ l.freeCalls = 0 ∧ l.Quiet := by
  cases h with
  | senderFree hw ho _ he hf hq => exact ⟨hw, ho, ⟨_, he⟩, hf, hq⟩
  | _ => grind [Life.AtWork]

lemma Life.Phase.of_senderDeallocate (hs : l.sender = .deallocate) :
    wait = true ∧ l.outstanding dest = 0 ∧ (∃ ev, l.event = some ev) ∧ l.freeCalls = ff.toNat ∧
      l.Quiet := by
  cases h with
  | senderDeallocate hw ho _ he hf hq => exact ⟨hw, ho, ⟨_, he⟩, hf, hq⟩
  | _ => grind [Life.AtWork]

lemma Life.Phase.of_idle (hs : l.sender = .idle) : l.event = none ∧ l.freeCalls = 0 ∧ l.Quiet := by
  cases h with
  | unborn _ he hf hq => exact ⟨he, hf, hq⟩
  | _ => grind [Life.AtWork]

lemma Life.Phase.of_free (hst : l.stage c = .free) :
    wait = false ∧ l.outstanding dest = 0 ∧ l.AtWork wait ∧ (∃ ev, l.event = some ev) ∧
      l.freeCalls = 0 ∧ l.Closes c .free := by
  cases h with
  | cpuFree hw ho ha he hf hc => exact ⟨hw, ho, ha, ⟨_, he⟩, hf, by grind [Life.Closes, Stage.closing]⟩
  | _ => grind [Life.Quiet, Life.Closes, Stage.closing]

lemma Life.Phase.of_deallocate (hst : l.stage c = .deallocate) :
    wait = false ∧ l.outstanding dest = 0 ∧ l.AtWork wait ∧ (∃ ev, l.event = some ev) ∧
      l.freeCalls = ff.toNat ∧ l.Closes c .deallocate := by
  cases h with
  | cpuDeallocate hw ho ha he hf hc =>
    exact ⟨hw, ho, ha, ⟨_, he⟩, hf, by grind [Life.Closes, Stage.closing]⟩
  | _ => grind [Life.Quiet, Life.Closes, Stage.closing]

lemma Life.Phase.of_signal (hst : l.stage c = .signal) :
    wait = true ∧ l.outstanding dest = 0 ∧ l.AtWork wait ∧ l.event = some ⟨1, true, false⟩ ∧
      l.freeCalls = 0 ∧ l.Closes c .signal := by
  cases h with
  | signalling hw ho ha he hf hc => exact ⟨hw, ho, ha, he, hf, by grind [Life.Closes, Stage.closing]⟩
  | _ => grind [Life.Quiet, Life.Closes, Stage.closing]

end

lemma foldlM_rfcReference (hn : n < 2 ^ 31) :
    (List.range n).foldlM (fun n _ => rfcReference n) 1 = .ok (n + 1) := by
  induction n with
  | zero => rfl
  | succ n ih =>
    have hadd : wadd 32 (n + 1) 1 = n + 1 + 1 := wadd_eq (by omega)
    rw [List.range_succ, List.foldlM_append, ih (by omega), bind_okay, List.foldlM_cons, rfcReference, hadd,
      ensure_pos (by unfold maxDword; omega), bind_okay, ensure_pos (by omega)]
    rfl

lemma ipcGenerateEvent_eq (hpos : 0 < n) (hn : n ≤ 256) :
    ipcGenerateEvent wait n = .ok ⟨n + wait.toNat, wait, false⟩ := by
  have hsize : wadd 32 sizeofIpcEvent (n * sizeofIpcEventCpu) =
      sizeofIpcEvent + n * sizeofIpcEventCpu := wadd_eq (by unfold sizeofIpcEvent sizeofIpcEventCpu; omega)
  rw [ipcGenerateEvent, hsize, if_neg (Nat.lt_irrefl _)]
  cases wait with
  | true =>
    rw [if_pos rfl, foldlM_rfcReference (by omega), bind_okay]
    rfl
  | false =>
    have hsub : wsub 32 n 1 + 1 = n := by
      rw [wsub_eq (by omega) hpos]
      omega
    rw [if_neg Bool.false_ne_true, foldlM_rfcReference (by omega), bind_okay, hsub]
    rfl

lemma rfcDereference_eq (hpos : 0 < n) (hn : n < 2 ^ 32) : rfcDereference n = .ok (n - 1) := by
  have hsub : wsub 32 n 1 = n - 1 := wsub_eq hn hpos
  rw [rfcDereference, hsub, ensure_pos (by unfold maxDword; omega)]
  rfl

lemma length_le_of_nodup (hnodup : dest.Nodup) : dest.length ≤ 256 := by
  have hsub : (dest.map UInt8.toNat) ⊆ List.range 256 := by
    intro x hx
    obtain ⟨c, -, rfl⟩ := List.mem_map.mp hx
    exact List.mem_range.mpr c.toNat_lt
  have hmap : (dest.map UInt8.toNat).Nodup :=
    List.Pairwise.map UInt8.toNat (fun a b hne h => hne (UInt8.toNat_inj.mp h)) hnodup
  have := (List.subperm_of_subset hmap hsub).length_le
  rwa [List.length_map, List.length_range] at this

lemma Life.Phase.notify (h : l.Phase dest wait ff) (hs : l.sender = .insert []) :
    Life.Phase dest wait ff { l with sender := if wait then .wait else .done } := by
  have hwork : Life.AtWork wait { l with sender := if wait then .wait else .done } := .inr rfl
  cases h with
  | held ho _ he hf hq => exact .held ho hwork he hf hq
  | signalling hw ho _ he hf hc => exact .signalling hw ho hwork he hf hc
  | signalled hw ho _ he hf hq => exact .signalled hw ho hwork he hf hq
  | cpuFree hw ho _ he hf hc => exact .cpuFree hw ho hwork he hf hc
  | cpuDeallocate hw ho _ he hf hc => exact .cpuDeallocate hw ho hwork he hf hc
  | dead ho hd he hf hq => exact .dead ho (.inr ⟨by grind, hwork⟩) he hf hq
  | unborn hi | nobody _ hi | woken _ _ hi | senderFree _ _ hi | senderDeallocate _ _ hi =>
    rw [hs] at hi
    cases hi

section

variable (h : l.Phase dest wait ff) (hone : l.Once dest)
include h hone

lemma Life.Phase.move (hpos : 0 < l.queued c + (l.stage c).holds) (hlate : st.late = (l.stage c).late)
    (hst : st.closing = false) {k : UInt8 → Nat} :
    Life.Phase dest wait ff { l with queued := k, stage := update l.stage c st } := by
  obtain ⟨ho, ha, he, hf, hq⟩ := h.held_of_holds hone hpos
  have hout : Life.outstanding dest { l with queued := k, stage := update l.stage c st } =
      l.outstanding dest := Life.outstanding_stage hlate
  refine .held ?_ ha ?_ hf (Life.quiet_of (fun x _ => hq x) hst rfl)
  · rw [hout]
    exact ho
  · rw [hout]
    exact he

lemma Life.Phase.run (hst : l.stage c = .running) :
    Life.Phase dest wait ff
      { l with handled := update l.handled c (l.handled c + 1), stage := update l.stage c .finished } := by
  have hpos : 0 < l.queued c + (l.stage c).holds := by
    rw [hst]
    exact Nat.succ_pos _
  obtain ⟨ho, ha, he, hf, hq⟩ := h.held_of_holds hone hpos
  obtain ⟨-, howes⟩ := hone.owes (c := c) (by omega)
  have hout : Life.outstanding dest
      { l with
        handled := update l.handled c (l.handled c + 1)
        stage := update l.stage c .finished } = l.outstanding dest := by
    refine Life.outstanding_congr fun x => ?_
    dsimp only
    by_cases hx : x = c
    · subst hx
      rw [update_self, update_self, howes, hst]
      exact ⟨fun _ => rfl, fun _ => rfl⟩
    · rw [update_of_ne hx, update_of_ne hx]
  refine .held ?_ ha ?_ hf (Life.quiet_of (fun x _ => hq x) rfl rfl)
  · rw [hout]
    exact ho
  · rw [hout]
    exact he

lemma Life.Phase.dereference {b : Bool} {ev : IpcEvent} (hnodup : dest.Nodup) (hst : l.stage c = .dereference b)
    (hb : b = wait) (he : l.event = some ev) (hn : rfcDereference ev.referenceCount = .ok n) :
    Life.Phase dest wait ff
      { l with
        event := some { ev with referenceCount := n }
        stage := update l.stage c (.afterDereference b n) } := by
  have hpos : 0 < l.queued c + (l.stage c).holds := by
    rw [hst]
    exact Nat.succ_pos _
  obtain ⟨ho, ha, he', hf, hq⟩ := h.held_of_holds hone hpos
  have hout := Life.outstanding_dereference (n := n) hone hnodup hst
    (some { ev with referenceCount := n })
  have hle : l.outstanding dest ≤ 256 := List.countP_le_length.trans (length_le_of_nodup hnodup)
  have hothers : ∀ x ≠ c, (l.stage x).closing = false := fun x _ => hq x
  obtain rfl := Option.some.inj (he.symm.trans he')
  subst hb
  dsimp only at hn hout ⊢
  have hbit : b.toNat ≤ 1 := Bool.toNat_le b
  rw [rfcDereference_eq (by omega) (by omega)] at hn
  obtain ⟨k, hk⟩ : ∃ k, Life.outstanding dest { l with
      event := some ⟨n, b, false⟩
      stage := update l.stage c (.afterDereference b n) } = k := ⟨_, rfl⟩
  obtain rfl : n = k + b.toNat := by
    have := Except.ok.inj hn
    omega
  by_cases hk0 : k = 0
  · subst hk0
    cases b with
    | true => exact .signalling rfl hk ha rfl hf (Life.closes_of hothers rfl)
    | false => exact .cpuFree rfl hk ha rfl hf (Life.closes_of hothers rfl)
  · have hafter : Stage.afterDereference b (k + b.toNat) = .away := by
      rw [Stage.afterDereference, if_neg (by omega), if_neg]
      rintro ⟨rfl, hone⟩
      rw [Bool.toNat_true] at hone
      omega
    refine .held ?_ ha ?_ hf (Life.quiet_of hothers (by rw [hafter]; rfl) rfl)
    · rw [hk]
      omega
    · rw [hk]

end

lemma Life.Once.outstanding_eq (h : l.Once dest) (hs : l.sender = .idle) : l.outstanding dest = dest.length := by
  refine List.countP_eq_length.mpr fun c hc => ?_
  have hrest : l.rest dest = dest := by rw [rest, hs]
  have hcount := List.count_pos_iff.mpr hc
  obtain ⟨-, howes⟩ := h.owes (c := c) (by rw [hrest]; omega)
  exact beq_iff_eq.mpr howes

structure Life.Sound (dest : List UInt8) (wait ff : Bool) (l : Life) : Prop where
  once : l.Once dest
  phase : l.Phase dest wait ff
  flag : ∀ c b, l.stage c = .dereference b → b = wait

lemma Life.Sound.phase_step (h : l.Sound dest wait ff) (hnodup : dest.Nodup)
    (hs : Life.Step dest wait ff l l') : l'.Phase dest wait ff := by
  obtain ⟨hone, h, hflag⟩ := h
  cases hs with
  | nobody hi hd =>
    obtain ⟨he, hf, hq⟩ := h.of_idle hi
    exact .nobody hd rfl he hf hq
  | start hi hd hev =>
    obtain ⟨-, hf, hq⟩ := h.of_idle hi
    have hpos : 0 < dest.length := List.length_pos_iff.mpr hd
    have hout : l.outstanding dest = dest.length := hone.outstanding_eq hi
    rw [ipcGenerateEvent_eq hpos (length_le_of_nodup hnodup)] at hev
    obtain rfl := Except.ok.inj hev
    rw [← hout] at hpos ⊢
    exact .held hpos (.inl ⟨dest, rfl⟩) rfl hf hq
  | @insert c rest hi =>
    obtain ⟨ho, -, he, hf, hq⟩ := h.held_of_owes (c := c) hone
      (by simp only [Life.rest, hi, List.count_cons_self]; omega) (by simp [hi])
    exact .held ho (.inl ⟨rest, rfl⟩) he hf hq
  | notify hi => exact h.notify hi
  | wake hi he hsig =>
    obtain ⟨hw, ho, he', hf, hq⟩ := h.of_signaled hi he hsig
    rw [he] at he'
    cases he'
    exact .woken hw ho rfl rfl hf hq
  | senderDereference hi he hn =>
    obtain ⟨hw, ho, he', hf, hq⟩ := h.of_dereference hi
    rw [he] at he'
    cases he'
    rw [rfcDereference_eq (by decide) (by decide)] at hn
    cases hn
    exact .senderFree hw ho rfl rfl hf hq
  | senderFree hi =>
    obtain ⟨hw, ho, ⟨ev, he⟩, hf, hq⟩ := h.of_senderFree hi
    exact .senderDeallocate hw ho rfl he (by simp [hf]) hq
  | senderDeallocate hi =>
    obtain ⟨hw, ho, -, hf, hq⟩ := h.of_senderDeallocate hi
    exact .dead ho (.inl rfl) rfl hf hq
  | remove hq hst => exact h.move hone (by omega) (by rw [hst]; rfl) rfl
  | call hst | finish hst => exact h.move hone (by rw [hst]; exact Nat.succ_pos _) (by rw [hst]; rfl) rfl
  | run hst => exact h.run hone hst
  | dereference hst he hn => exact h.dereference hone hnodup hst (hflag _ _ hst) he hn
  | free hst =>
    obtain ⟨hw, ho, ha, ⟨ev, he⟩, hf, hc⟩ := h.of_free hst
    refine .cpuDeallocate hw ?_ ha he (by simp [hf]) (Life.closes_of hc.2 rfl)
    exact (Life.outstanding_stage (by rw [hst]; rfl)).trans ho
  | deallocate hst =>
    obtain ⟨hw, ho, ha, -, hf, hc⟩ := h.of_deallocate hst
    refine .dead ?_ (.inr ⟨hw, ha⟩) rfl hf (Life.quiet_of hc.2 rfl rfl)
    exact (Life.outstanding_stage (by rw [hst]; rfl)).trans ho
  | signal hst he =>
    obtain ⟨hw, ho, ha, he', hf, hc⟩ := h.of_signal hst
    rw [he] at he'
    cases he'
    refine .signalled hw ?_ ha rfl hf (Life.quiet_of hc.2 rfl rfl)
    exact (Life.outstanding_stage (by rw [hst]; rfl)).trans ho

lemma Life.Sound.flag_update (h : l.Sound dest wait ff) (hst : ∀ b, st = .dereference b → b = wait) :
    ∀ x b, update l.stage c st x = .dereference b → b = wait := by
  intro x b hx
  by_cases hxc : x = c
  · subst hxc
    rw [update_self] at hx
    exact hst b hx
  · rw [update_of_ne hxc] at hx
    exact h.flag x b hx

lemma Stage.afterDereference_ne (b b' : Bool) (n : Nat) : Stage.afterDereference b n ≠ .dereference b' := by
  unfold Stage.afterDereference
  split
  · exact Stage.noConfusion
  split
  · exact Stage.noConfusion
  · exact Stage.noConfusion

lemma Life.Sound.step (h : l.Sound dest wait ff) (hnodup : dest.Nodup)
    (hs : Life.Step dest wait ff l l') : l'.Sound dest wait ff := by
  refine ⟨h.once.step hs, h.phase_step hnodup hs, ?_⟩
  cases hs with
  | nobody | start | insert | notify | wake | senderDereference | senderFree | senderDeallocate =>
    exact h.flag
  | remove | call | run | free | deallocate | signal => exact h.flag_update fun b hb => by cases hb
  | dereference => exact h.flag_update fun b hb => (Stage.afterDereference_ne _ _ _ hb).elim
  | @finish c ev hst he =>
    refine h.flag_update fun b hb => ?_
    have hpos : 0 < l.queued c + (l.stage c).holds := by
      rw [hst]
      exact Nat.succ_pos _
    obtain ⟨-, -, he', -⟩ := h.phase.held_of_holds h.once hpos
    obtain rfl := Option.some.inj (he.symm.trans he')
    cases hb
    rfl

def Life.Finished (dest : List UInt8) (l : Life) (c : UInt8) : Prop :=
  (l.rest dest).count c + l.queued c + (l.stage c).holds = 0

lemma Life.Finished.step (h : l.Finished dest c) (hs : Life.Step dest wait ff l l') : l'.Finished dest c := by
  unfold Life.Finished at *
  cases hs with
  | _ => grind [update, Stage.holds, Life.rest]

lemma Life.Once.handled_of_finished (h : l.Once dest) (hc : c ∈ dest) (hf : l.Finished dest c) :
    l.handled c = 1 := by
  have honce := h.once c
  have hle := (l.stage c).late_le_holds
  rw [if_pos hc] at honce
  unfold Life.Finished at hf
  omega

lemma Life.Once.outstanding_of_finished (h : l.Once dest) (hf : ∀ c ∈ dest, l.Finished dest c) :
    l.outstanding dest = 0 := by
  refine List.countP_eq_zero.mpr fun c hc => ?_
  have hfc := hf c hc
  have hle := (l.stage c).late_le_holds
  unfold Life.Finished at hfc
  rw [h.handled_of_finished hc hfc, beq_iff_eq]
  omega

lemma Life.Sound.step_of_signaled {ev : IpcEvent} (h : l.Sound dest wait ff) (hw : wait = true)
    (hs : l.sender = .wait) (hf : ∀ c ∈ dest, l.Finished dest c) (he : l.event = some ev)
    (hsig : ev.signaled = true) (hstep : Life.Step dest wait ff l l') : l'.sender = .dereference := by
  have hout := h.once.outstanding_of_finished hf
  have hidle : l.sender ≠ .idle := by rw [hs]; exact nofun
  have hnone : ∀ c, ¬ 0 < (l.rest dest).count c + l.queued c + (l.stage c).holds := by
    intro c hpos
    have := (h.phase.held_of_owes h.once hpos hidle).1
    omega
  cases hstep with
  | wake => rfl
  | nobody hi | start hi | insert hi | notify hi | senderDereference hi | senderFree hi
  | senderDeallocate hi =>
    rw [hs] at hi
    cases hi
  | @remove c hq => exact absurd (by omega) (hnone c)
  | @call c hst | @run c hst | @finish c _ hst | @dereference c _ _ _ hst =>
    refine absurd ?_ (hnone c)
    rw [hst]
    exact Nat.succ_pos _
  | free hst =>
    have := (h.phase.of_free hst).1
    rw [hw] at this
    cases this
  | deallocate hst =>
    have := (h.phase.of_deallocate hst).1
    rw [hw] at this
    cases this
  | signal hst =>
    obtain ⟨-, -, -, he', -⟩ := h.phase.of_signal hst
    obtain rfl := Option.some.inj (he.symm.trans he')
    cases hsig

lemma Life.Phase.signal_of_finished (h : l.Phase dest wait ff) (hs : l.sender = .wait)
    (ho : l.outstanding dest = 0) :
    (∃ c, l.stage c = .signal) ∨ ∃ ev, l.event = some ev ∧ ev.signaled = true := by
  cases h with
  | signalling _ _ _ _ _ hc => exact .inl ⟨_, hc.1⟩
  | signalled _ _ _ he => exact .inr ⟨_, he, rfl⟩
  | held hpos => omega
  | _ => grind [Life.AtWork]

end Life

end HAL9000.Ipc
