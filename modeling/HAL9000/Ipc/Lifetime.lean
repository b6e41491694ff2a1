import HAL9000.Ipc.Life

/-!
# The lifetime of events

Every step of the system is a step in the life of one event, and leaves the lives of the others alone
(`life_next`). So in every state reached the lives of all events are in order (`sound_reach`). An
interrupt finds an event in the list, since it is sent after the event has been inserted
(`Delivered`). From both follows that no event is accessed after it has been freed, and that it is
freed once, after all processors have handled it (`event_lifetime`).
-/

namespace HAL9000.Ipc
open Lib Function

section System

variable {E : Type} {m : Machine} {q : E → Request} {s s' : State E} {e : E} {c : UInt8}

variable {e' : E} {pc : Isr E}

lemma destination_nodup : (destination m q e).Nodup := m.distinct.filter _

lemma access_ok {ev : IpcEvent} (h : s.access e = .ok ev) : s.heap e = some ev := by
  rw [State.access] at h
  split at h
  · next hev =>
    rw [hev]
    exact congrArg some (Except.ok.inj h)
  · cases h

def Isr.event : Isr E → Option E
  | .idle | .entered => none
  | .call e | .running e | .finished e | .dereference e _ | .free e | .deallocate e | .signal e => some e

variable [DecidableEq E]

inductive Sent (m : Machine) (q : E → Request) (s : State E) (e : E) : State E → Prop
  | nobody : s.sender e = .idle → destination m q e = [] → Sent m q s e (s.setSender e .done)
  | start {ev} : s.sender e = .idle → destination m q e ≠ [] →
    ipcGenerateEvent (q e).waitForHandling (destination m q e).length = .ok ev →
    Sent m q s e ((s.setEvent e (some ev)).setSender e (.insert (destination m q e)))
  | insert {c : UInt8} {rest} : s.sender e = .insert (c :: rest) →
    Sent m q s e ((s.setList c (s.eventList c ++ [e])).setSender e (.insert rest))
  | notify : s.sender e = .insert [] →
    Sent m q s e ((s.smpSendIpcIpi m q e).setSender e (if (q e).waitForHandling then .wait else .done))
  | wake {ev} : s.sender e = .wait → s.heap e = some ev → ev.signaled = true →
    Sent m q s e ((s.setEvent e (some { ev with signaled := false })).setSender e .dereference)
  | wait {ev} : s.sender e = .wait → s.heap e = some ev → ev.signaled = false → Sent m q s e s
  | dereference {ev n} : s.sender e = .dereference → s.heap e = some ev → rfcDereference ev.referenceCount = .ok n →
    Sent m q s e
      ((s.setEvent e (some { ev with referenceCount := n })).setSender e (if n = 0 then .free else .done))
  | free : s.sender e = .free → Sent m q s e ((s.callFree q e).setSender e .deallocate)
  | deallocate : s.sender e = .deallocate → Sent m q s e ((s.setEvent e none).setSender e .done)

lemma send_ok (h : s.send m q e = .ok s') : Sent m q s e s' := by
  rw [State.send] at h
  split at h
  · next hs =>
    split at h
    · next hd =>
      cases h
      exact .nobody hs hd
    · next hd =>
      obtain ⟨ev, hev, h⟩ := bind_ok.mp h
      cases h
      exact .start hs hd hev
  · next c rest hs =>
    obtain ⟨_, -, h⟩ := bind_ok.mp h
    obtain ⟨_, -, h⟩ := bind_ok.mp h
    cases h
    exact .insert hs
  · next hs =>
    cases h
    exact .notify hs
  · next hs =>
    obtain ⟨ev, hev, h⟩ := bind_ok.mp h
    obtain ⟨_, -, h⟩ := bind_ok.mp h
    split at h
    · next hsig =>
      cases h
      exact .wake hs (access_ok hev) hsig
    · next hsig =>
      cases h
      exact .wait hs (access_ok hev) (Bool.eq_false_iff.mpr hsig)
  · next hs =>
    obtain ⟨ev, hev, h⟩ := bind_ok.mp h
    obtain ⟨n, hn, h⟩ := bind_ok.mp h
    cases h
    exact .dereference hs (access_ok hev) hn
  · next hs =>
    obtain ⟨_, -, h⟩ := bind_ok.mp h
    cases h
    exact .free hs
  · next hs =>
    obtain ⟨_, -, h⟩ := bind_ok.mp h
    cases h
    exact .deallocate hs
  · cases h

inductive Interrupted (q : E → Request) (s : State E) (c : UInt8) : State E → Prop
  | accept : s.isr c = .idle → s.pending c = true →
    Interrupted q s c (State.setIsr { s with pending := update s.pending c false } c .entered)
  | remove {e : E} {rest} : s.isr c = .entered → s.eventList c = e :: rest →
    Interrupted q s c ((s.setList c rest).setIsr c (.call e))
  | call {e : E} : s.isr c = .call e → Interrupted q s c (s.setIsr c (.running e))
  | run {e : E} : s.isr c = .running e → Interrupted q s c ((s.callHandler e c).setIsr c (.finished e))
  | finish {e : E} {ev} : s.isr c = .finished e → s.heap e = some ev →
    Interrupted q s c (s.setIsr c (.dereference e ev.signalTermination))
  | dereference {e : E} {b : Bool} {ev n} : s.isr c = .dereference e b → s.heap e = some ev →
    rfcDereference ev.referenceCount = .ok n → Interrupted q s c
      ((s.setEvent e (some { ev with referenceCount := n })).setIsr c (afterDereference e b n))
  | free {e : E} : s.isr c = .free e → Interrupted q s c ((s.callFree q e).setIsr c (.deallocate e))
  | deallocate {e : E} : s.isr c = .deallocate e → Interrupted q s c ((s.setEvent e none).setIsr c .idle)
  | signal {e : E} {ev} : s.isr c = .signal e → s.heap e = some ev →
    Interrupted q s c ((s.setEvent e (some { ev with signaled := true })).setIsr c .idle)

lemma interrupt_ok (h : s.interrupt q c = .ok s') : Interrupted q s c s' := by
  rw [State.interrupt] at h
  split at h
  · next hs =>
    split at h
    · next hp =>
      cases h
      exact .accept hs hp
    · cases h
  · next hs =>
    split at h
    · cases h
    · next hl =>
      obtain ⟨_, -, h⟩ := bind_ok.mp h
      obtain ⟨_, -, h⟩ := bind_ok.mp h
      cases h
      exact .remove hs hl
  · next hs =>
    obtain ⟨_, -, h⟩ := bind_ok.mp h
    cases h
    exact .call hs
  · next hs =>
    cases h
    exact .run hs
  · next hs =>
    obtain ⟨ev, hev, h⟩ := bind_ok.mp h
    cases h
    exact .finish hs (access_ok hev)
  · next hs =>
    obtain ⟨ev, hev, h⟩ := bind_ok.mp h
    obtain ⟨n, hn, h⟩ := bind_ok.mp h
    cases h
    exact .dereference hs (access_ok hev) hn
  · next hs =>
    obtain ⟨_, -, h⟩ := bind_ok.mp h
    cases h
    exact .free hs
  · next hs =>
    obtain ⟨_, -, h⟩ := bind_ok.mp h
    cases h
    exact .deallocate hs
  · next hs =>
    obtain ⟨ev, hev, h⟩ := bind_ok.mp h
    cases h
    exact .signal hs (access_ok hev)

def Isr.stage (e : E) : Isr E → Stage
  | .idle | .entered => .away
  | .call e' => if e' = e then .call else .away
  | .running e' => if e' = e then .running else .away
  | .finished e' => if e' = e then .finished else .away
  | .dereference e' b => if e' = e then .dereference b else .away
  | .free e' => if e' = e then .free else .away
  | .deallocate e' => if e' = e then .deallocate else .away
  | .signal e' => if e' = e then .signal else .away

def State.life (s : State E) (e : E) : Life where
  event := s.heap e
  sender := s.sender e
  queued c := (s.eventList c).count e
  stage c := (s.isr c).stage e
  handled := s.handled e
  freeCalls := s.freeCalls e

lemma life_setEvent (ev : Option IpcEvent) : (s.setEvent e ev).life e = { s.life e with event := ev } := by
  simp [State.life, State.setEvent]

lemma life_setEvent_ne (h : e' ≠ e) (ev : Option IpcEvent) : (s.setEvent e ev).life e' = s.life e' := by
  simp [State.life, State.setEvent, h]

lemma life_setSender (pc : Sender) : (s.setSender e pc).life e = { s.life e with sender := pc } := by
  simp [State.life, State.setSender]

lemma life_setSender_ne (h : e' ≠ e) (pc : Sender) : (s.setSender e pc).life e' = s.life e' := by
  simp [State.life, State.setSender, h]

lemma life_callFree : (s.callFree q e).life e =
      { s.life e with freeCalls := (s.life e).freeCalls + (q e).freeFunction.toNat } := by
  simp [State.life, State.callFree]

lemma life_callFree_ne (h : e' ≠ e) : (s.callFree q e).life e' = s.life e' := by
  simp [State.life, State.callFree, h]

lemma life_callHandler : (s.callHandler e c).life e = { s.life e with
        handled := update (s.life e).handled c ((s.life e).handled c + 1) } := by
  simp [State.life, State.callHandler]

lemma life_callHandler_ne (h : e' ≠ e) : (s.callHandler e c).life e' = s.life e' := by
  simp [State.life, State.callHandler, h]

lemma life_smpSendIpcIpi : (s.smpSendIpcIpi m q e).life e' = s.life e' := rfl

lemma life_setIsr (pc : Isr E) : (s.setIsr c pc).life e =
      { s.life e with stage := update (s.life e).stage c (pc.stage e) } := by
  simp only [State.life, State.setIsr, Life.mk.injEq, true_and, and_true]
  funext x
  by_cases hx : x = c
  · subst hx
    simp
  · simp [hx]

lemma life_setIsr_eq (h : pc.stage e = (s.isr c).stage e) : (s.setIsr c pc).life e = s.life e := by
  have hupdate : update (s.life e).stage c (pc.stage e) = (s.life e).stage := by
    rw [h]
    exact update_eq_self c (s.life e).stage
  rw [life_setIsr, hupdate]

lemma life_setList (es : List E) : (s.setList c es).life e =
      { s.life e with queued := update (s.life e).queued c (es.count e) } := by
  simp only [State.life, State.setList, Life.mk.injEq, true_and, and_true]
  funext x
  by_cases hx : x = c
  · subst hx
    simp
  · simp [hx]

lemma life_setList_eq {es : List E} (h : es.count e = (s.eventList c).count e) :
    (s.setList c es).life e = s.life e := by
  have hupdate : update (s.life e).queued c (es.count e) = (s.life e).queued := by
    rw [h]
    exact update_eq_self c (s.life e).queued
  rw [life_setList, hupdate]

lemma life_send_ne (h : s.send m q e = .ok s') (hne : e' ≠ e) : s'.life e' = s.life e' := by
  cases send_ok h with
  | nobody => exact life_setSender_ne hne _
  | insert =>
    rw [life_setSender_ne hne, life_setList_eq]
    rw [List.count_append, List.count_singleton, if_neg (by simpa using hne.symm)]
    rfl
  | notify => rw [life_setSender_ne hne, life_smpSendIpcIpi]
  | wait => rfl
  | free => rw [life_setSender_ne hne, life_callFree_ne hne]
  | start | wake | dereference | deallocate => rw [life_setSender_ne hne, life_setEvent_ne hne]

lemma life_send (h : s.send m q e = .ok s') : s'.life e = s.life e ∨
      Life.Step (destination m q e) (q e).waitForHandling (q e).freeFunction (s.life e) (s'.life e) := by
  cases send_ok h with
  | nobody hs hd =>
    rw [life_setSender]
    exact .inr (.nobody hs hd)
  | start hs hd hev =>
    rw [life_setSender, life_setEvent]
    exact .inr (.start hs hd hev)
  | insert hs =>
    rw [life_setSender, life_setList, List.count_append, List.count_singleton_self]
    exact .inr (.insert hs)
  | notify hs =>
    rw [life_setSender, life_smpSendIpcIpi]
    exact .inr (.notify hs)
  | wake hs hev hsig =>
    rw [life_setSender, life_setEvent]
    exact .inr (.wake hs hev hsig)
  | wait => exact .inl rfl
  | dereference hs hev hn =>
    rw [life_setSender, life_setEvent]
    exact .inr (.senderDereference hs hev hn)
  | free hs =>
    rw [life_setSender, life_callFree]
    exact .inr (.senderFree hs)
  | deallocate hs =>
    rw [life_setSender, life_setEvent]
    exact .inr (.senderDeallocate hs)

lemma stage_of_ne (h : pc.event ≠ some e) : pc.stage e = .away := by
  cases pc with
  | idle | entered => rfl
  | call | running | finished | dereference | free | deallocate | signal =>
    exact if_neg fun he => h (congrArg some he)

lemma stage_isr (hs : s.isr c = pc) : (s.life e).stage c = pc.stage e := congrArg (Isr.stage e) hs

lemma afterDereference_stage (b : Bool) (n : Nat) :
    (afterDereference e' b n).stage e = if e' = e then .afterDereference b n else .away := by
  unfold afterDereference Stage.afterDereference
  split
  · rfl
  split
  · rfl
  · exact (ite_self _).symm

lemma life_setIsr_ne {t : State E} (ht : t.life e = s.life e) (hpc : (t.isr c).stage e = .away)
    (hpc' : pc.stage e = .away) : (t.setIsr c pc).life e = s.life e :=
  (life_setIsr_eq (hpc'.trans hpc.symm)).trans ht

lemma life_interrupt (h : s.interrupt q c = .ok s') (e : E) : s'.life e = s.life e ∨
      Life.Step (destination m q e) (q e).waitForHandling (q e).freeFunction (s.life e) (s'.life e) := by
  cases interrupt_ok h with
  | accept hs => exact .inl (life_setIsr_ne rfl (stage_isr hs) rfl)
  | @remove e' rest hs hl =>
    obtain rfl | he := eq_or_ne e' e
    · have hqueued : (s.life e').queued c = rest.count e' + 1 := by
        simp only [State.life, hl, List.count_cons_self]
      have hrest : rest.count e' = (s.life e').queued c - 1 := by omega
      rw [life_setIsr, life_setList, hrest, Isr.stage, if_pos rfl]
      exact .inr (.remove (by omega) (stage_isr hs))
    · refine .inl (life_setIsr_ne (life_setList_eq ?_) (stage_isr hs) (if_neg he))
      rw [hl, List.count_cons_of_ne he]
  | @call e' hs =>
    obtain rfl | he := eq_or_ne e' e
    · rw [life_setIsr, Isr.stage, if_pos rfl]
      exact .inr (.call ((stage_isr hs).trans (if_pos rfl)))
    · exact .inl (life_setIsr_ne rfl ((stage_isr hs).trans (if_neg he)) (if_neg he))
  | @run e' hs =>
    obtain rfl | he := eq_or_ne e' e
    · rw [life_setIsr, life_callHandler, Isr.stage, if_pos rfl]
      exact .inr (.run ((stage_isr hs).trans (if_pos rfl)))
    · exact .inl (life_setIsr_ne (life_callHandler_ne he.symm) ((stage_isr hs).trans (if_neg he)) (if_neg he))
  | @finish e' _ hs hev =>
    obtain rfl | he := eq_or_ne e' e
    · rw [life_setIsr, Isr.stage, if_pos rfl]
      exact .inr (.finish ((stage_isr hs).trans (if_pos rfl)) hev)
    · exact .inl (life_setIsr_ne rfl ((stage_isr hs).trans (if_neg he)) (if_neg he))
  | @dereference e' _ _ _ hs hev hn =>
    obtain rfl | he := eq_or_ne e' e
    · rw [life_setIsr, life_setEvent, afterDereference_stage, if_pos rfl]
      exact .inr (.dereference ((stage_isr hs).trans (if_pos rfl)) hev hn)
    · refine .inl (life_setIsr_ne (life_setEvent_ne he.symm _) ((stage_isr hs).trans (if_neg he)) ?_)
      rw [afterDereference_stage, if_neg he]
  | @free e' hs =>
    obtain rfl | he := eq_or_ne e' e
    · rw [life_setIsr, life_callFree, Isr.stage, if_pos rfl]
      exact .inr (.free ((stage_isr hs).trans (if_pos rfl)))
    · exact .inl (life_setIsr_ne (life_callFree_ne he.symm) ((stage_isr hs).trans (if_neg he)) (if_neg he))
  | @deallocate e' hs =>
    obtain rfl | he := eq_or_ne e' e
    · rw [life_setIsr, life_setEvent]
      exact .inr (.deallocate ((stage_isr hs).trans (if_pos rfl)))
    · exact .inl (life_setIsr_ne (life_setEvent_ne he.symm _) ((stage_isr hs).trans (if_neg he)) rfl)
  | @signal e' _ hs hev =>
    obtain rfl | he := eq_or_ne e' e
    · rw [life_setIsr, life_setEvent]
      exact .inr (.signal ((stage_isr hs).trans (if_pos rfl)) hev)
    · exact .inl (life_setIsr_ne (life_setEvent_ne he.symm _) ((stage_isr hs).trans (if_neg he)) rfl)

lemma life_next {a : Actor E} (h : Step m q s a s') (e : E) : s'.life e = s.life e ∨
      Life.Step (destination m q e) (q e).waitForHandling (q e).freeFunction (s.life e) (s'.life e) := by
  cases a with
  | sender e' =>
    obtain rfl | he := eq_or_ne e e'
    · exact life_send h
    · exact .inl (life_send_ne h he)
  | cpu c => exact life_interrupt h e

lemma sound_initial (h : Initial s) :
    (s.life e).Sound (destination m q e) (q e).waitForHandling (q e).freeFunction := by
  have hsender : (s.life e).sender = .idle := h.sender e
  have hqueued : ∀ c, (s.life e).queued c = 0 := fun c => by simp [State.life, h.eventList c]
  have hstage : ∀ c, (s.life e).stage c = .away := fun c => stage_isr (h.isr c)
  have hhandled : ∀ c, (s.life e).handled c = 0 := h.handled e
  refine ⟨⟨fun c => ?_, fun c => ?_⟩, ?_, fun c b hb => ?_⟩
  · have hrest : (s.life e).rest (destination m q e) = destination m q e := by rw [Life.rest, hsender]
    rw [hrest, hqueued, hstage, hhandled, destination_nodup.count]
    rfl
  · rw [hstage]
    exact Nat.zero_le _
  · exact .unborn hsender (h.heap e) (h.freeCalls e) fun c => by rw [hstage]; rfl
  · rw [hstage] at hb
    cases hb

lemma sound_reach {ok : State E → Actor E → Prop} (hr : Reach Initial (Step m q) ok s) (e : E) :
    (s.life e).Sound (destination m q e) (q e).waitForHandling (q e).freeFunction := by
  refine hr.invariant (fun s h => sound_initial h) ?_
  intro s a s' h _ hs
  obtain heq | hstep := life_next hs e
  · rw [heq]
    exact h
  · exact h.step destination_nodup hstep

end System

section Delivery

variable {E : Type} {m : Machine} {q : E → Request} {s s' : State E} {e : E} {c x : UInt8}

def Isr.entering : Isr E → Nat
  | .entered => 1
  | _ => 0

/-- The interrupts that have reached a processor and will each take an entry from its list. -/
def arrived (s : State E) (c : UInt8) : Nat := (s.pending c).toNat + (s.isr c).entering

/-- The event is in the list of the processor, or has been, and its interrupt has still to be sent. -/
def Unnotified (m : Machine) (q : E → Request) (s : State E) (c : UInt8) (e : E) : Prop :=
  c ∈ destination m q e ∧ ∃ rest, s.sender e = .insert rest ∧ c ∉ rest

variable {t : State E} {pc : Sender} {a : Actor E} {T : Finset E}

lemma counts_setIsr {pc : Isr E} (hlist : t.eventList = s.eventList)
    (hpending : t.pending = s.pending) (hisr : t.isr = s.isr)
    (h : pc.entering = (s.isr x).entering) (c : UInt8) :
    (s.eventList c).length + arrived (t.setIsr x pc) c =
      ((t.setIsr x pc).eventList c).length + arrived s c := by
  by_cases hc : c = x
  · subst hc
    simp [arrived, State.setIsr, hlist, hpending, h]
  · simp [arrived, State.setIsr, hlist, hpending, hisr, hc]

lemma afterDereference_entering (b : Bool) (n : Nat) : (afterDereference e b n).entering = 0 := by
  unfold afterDereference
  split
  · rfl
  split
  · rfl
  · rfl

lemma logicalApicId_and (affinity apicId : UInt8) (h : affinity &&& logicalApicId apicId ≠ 0) :
    logicalApicId apicId = affinity &&& logicalApicId apicId := by
  have hbyte : (logicalApicId apicId).toNat = 2 ^ (apicId.toNat % 32) % 2 ^ 8 := by
    rw [logicalApicId, UInt8.toNat_ofNat', Nat.one_shiftLeft]
  refine UInt8.toNat_inj.mp ?_
  rw [UInt8.toNat_and]
  by_cases hk : apicId.toNat % 32 < 8
  · have hlt := Nat.pow_lt_pow_right (a := 2) (by decide) hk
    rw [Nat.mod_eq_of_lt hlt] at hbyte
    rw [hbyte, Nat.and_two_pow]
    cases hbit : affinity.toNat.testBit (apicId.toNat % 32) with
    | true => rw [Bool.toNat_true, Nat.one_mul]
    | false =>
      refine absurd (UInt8.toNat_inj.mp ?_) h
      rw [UInt8.toNat_and, hbyte, Nat.and_two_pow, hbit, Bool.toNat_false, Nat.zero_mul]
      rfl
  · have hzero : 2 ^ (apicId.toNat % 32) % 2 ^ 8 = 0 :=
      Nat.mod_eq_zero_of_dvd (Nat.pow_dvd_pow 2 (Nat.not_lt.mp hk))
    rw [hbyte, hzero, Nat.and_zero]

lemma ipiTargets_subset (h : c ∈ ipiTargets m (q e)) : c ∈ destination m q e := by
  obtain ⟨hc, hreach⟩ := List.mem_filter.mp h
  refine List.mem_filter.mpr ⟨hc, ?_⟩
  cases hmode : (q e).sendMode with rw [hmode] at hreach
  | toGroup affinity => exact beq_iff_eq.mpr (logicalApicId_and affinity c (bne_iff_ne.mp hreach))
  | toCpu | toSelf | toAllIncludingSelf | toAllExcludingSelf => exact hreach

variable [DecidableEq E]

lemma interrupt_counts (h : s.interrupt q x = .ok s') (c : UInt8) : s'.sender = s.sender ∧
      (s.eventList c).length + arrived s' c = (s'.eventList c).length + arrived s c := by
  cases interrupt_ok h with
  | accept hs hp =>
    refine ⟨rfl, congrArg _ ?_⟩
    by_cases hc : c = x
    · subst hc
      simp [arrived, State.setIsr, hs, hp, Isr.entering]
    · simp [arrived, State.setIsr, hc]
  | remove hs hl =>
    refine ⟨rfl, ?_⟩
    by_cases hc : c = x
    · subst hc
      simp [arrived, State.setIsr, State.setList, hs, hl, Isr.entering]
      omega
    · simp [arrived, State.setIsr, State.setList, hc]
  | dereference hs => exact ⟨rfl, counts_setIsr rfl rfl rfl (by rw [hs, afterDereference_entering]; rfl) c⟩
  | call hs | run hs | finish hs | free hs | deallocate hs | signal hs =>
    exact ⟨rfl, counts_setIsr rfl rfl rfl (by rw [hs]; rfl) c⟩

lemma unnotified_setSender (hsender : t.sender = s.sender)
    (hpc : ∀ rest, pc = .insert rest → c ∉ rest → c ∉ destination m q e)
    (hs : ∀ rest, s.sender e = .insert rest → c ∉ rest → c ∉ destination m q e) (e' : E) :
    Unnotified m q (t.setSender e pc) c e' ↔ Unnotified m q s c e' := by
  by_cases he : e' = e
  · subst he
    simp only [Unnotified, State.setSender, update_self]
    constructor
    · rintro ⟨hc, rest, hrest, hn⟩
      exact absurd hc (hpc rest hrest hn)
    · rintro ⟨hc, rest, hrest, hn⟩
      exact absurd hc (hs rest hrest hn)
  · simp only [Unnotified, State.setSender, hsender, update_of_ne he]

/-- The interrupt of an entry gets lost: it does not reach the processor, or is merged with another. -/
def Lost (m : Machine) (q : E → Request) (s : State E) (c : UInt8) (a : Actor E) : Prop :=
  ∃ e, a = .sender e ∧ s.sender e = .insert [] ∧ c ∈ destination m q e ∧
    (c ∉ ipiTargets m (q e) ∨ s.pending c = true)

/-- No step takes more interrupts to a processor than entries to its list, and unless one gets lost,
    not less. -/
def Balanced (m : Machine) (q : E → Request) (s : State E) (a : Actor E) (s' : State E) (c : UInt8)
    (T T' : Finset E) : Prop :=
  (s.eventList c).length + arrived s' c + T'.card ≤ (s'.eventList c).length + arrived s c + T.card ∧
    (¬ Lost m q s c a →
      (s'.eventList c).length + arrived s c + T.card ≤ (s.eventList c).length + arrived s' c + T'.card)

lemma balanced_setSender
    (hlist : t.eventList = s.eventList) (hpending : t.pending = s.pending) (hisr : t.isr = s.isr)
    (hsender : t.sender = s.sender)
    (hpc : ∀ rest, pc = .insert rest → c ∉ rest → c ∉ destination m q e)
    (hs : ∀ rest, s.sender e = .insert rest → c ∉ rest → c ∉ destination m q e)
    (hT : ∀ e, e ∈ T ↔ Unnotified m q s c e) :
    ∃ T' : Finset E, (∀ e', e' ∈ T' ↔ Unnotified m q (t.setSender e pc) c e') ∧
      Balanced m q s a (t.setSender e pc) c T T' := by
  refine ⟨T, fun e' => (hT e').trans (unnotified_setSender hsender hpc hs e').symm, ?_⟩
  have harrived : arrived (t.setSender e pc) c = arrived s c := by
    simp only [arrived, State.setSender, hpending, hisr]
  have hlength : (t.setSender e pc).eventList c = s.eventList c := congrFun hlist c
  rw [Balanced, harrived, hlength]
  exact ⟨Nat.le_refl _, fun _ => Nat.le_refl _⟩

lemma balanced_insert {rest : List UInt8} (hs : s.sender e = .insert (x :: rest))
    (hone : (s.life e).Once (destination m q e)) (hT : ∀ e, e ∈ T ↔ Unnotified m q s c e) :
    ∃ T' : Finset E,
      (∀ e', e' ∈ T' ↔ Unnotified m q ((s.setList x (s.eventList x ++ [e])).setSender e (.insert rest)) c e') ∧
      Balanced m q s a ((s.setList x (s.eventList x ++ [e])).setSender e (.insert rest)) c T T' := by
  have harrived : arrived ((s.setList x (s.eventList x ++ [e])).setSender e (.insert rest)) c =
    arrived s c := rfl
  by_cases hx : c = x
  · subst hx
    have hcount : ((s.life e).rest (destination m q e)).count c = rest.count c + 1 := by
      simp only [Life.rest, State.life, hs, List.count_cons_self]
    obtain ⟨hc, howes⟩ := hone.owes (c := c) (by omega)
    have honce := hone.once c
    rw [if_pos hc] at honce
    have hrest : c ∉ rest := fun hmem => by
      have := List.count_pos_iff.mpr hmem
      omega
    have he : e ∉ T := fun hmem => by
      obtain ⟨-, rest', hs', hn⟩ := (hT e).mp hmem
      rw [hs] at hs'
      cases hs'
      exact hn List.mem_cons_self
    refine ⟨insert e T, fun e' => ?_, ?_⟩
    · by_cases hee : e' = e
      · subst hee
        refine ⟨fun _ => ⟨hc, rest, update_self .., hrest⟩, fun _ => Finset.mem_insert_self ..⟩
      · rw [Finset.mem_insert, or_iff_right hee, hT e']
        simp only [Unnotified, State.setSender, State.setList, update_of_ne hee]
    · have hlength : (((s.setList c (s.eventList c ++ [e])).setSender e (.insert rest)).eventList c).length =
          (s.eventList c).length + 1 := by
        simp [State.setSender, State.setList]
      rw [Balanced, harrived, hlength, Finset.card_insert_of_notMem he]
      exact ⟨by omega, fun _ => by omega⟩
  · refine ⟨T, fun e' => (hT e').trans ?_, ?_⟩
    · by_cases hee : e' = e
      · subst hee
        simp [Unnotified, State.setSender, State.setList, hs, hx]
      · simp only [Unnotified, State.setSender, State.setList, update_of_ne hee]
    · have hlength : ((s.setList x (s.eventList x ++ [e])).setSender e (.insert rest)).eventList c =
          s.eventList c := update_of_ne hx _ _
      rw [Balanced, harrived, hlength]
      exact ⟨Nat.le_refl _, fun _ => Nat.le_refl _⟩

lemma balanced_notify (hs : s.sender e = .insert []) (hpc : ∀ rest, pc ≠ .insert rest)
    (hT : ∀ e, e ∈ T ↔ Unnotified m q s c e) :
    ∃ T' : Finset E, (∀ e', e' ∈ T' ↔ Unnotified m q ((s.smpSendIpcIpi m q e).setSender e pc) c e') ∧
      Balanced m q s (.sender e) ((s.smpSendIpcIpi m q e).setSender e pc) c T T' := by
  refine ⟨T.erase e, fun e' => ?_, ?_⟩
  · by_cases hee : e' = e
    · subst hee
      refine iff_of_false (Finset.notMem_erase _ _) ?_
      rintro ⟨-, rest, hrest, -⟩
      exact hpc rest ((update_self ..).symm.trans hrest)
    · rw [Finset.mem_erase, and_iff_right hee, hT e']
      simp only [Unnotified, State.setSender, State.smpSendIpcIpi, update_of_ne hee]
  · have harrived : arrived ((s.smpSendIpcIpi m q e).setSender e pc) c =
        (s.pending c || decide (c ∈ ipiTargets m (q e))).toNat + (s.isr c).entering := rfl
    have hlength : ((s.smpSendIpcIpi m q e).setSender e pc).eventList = s.eventList := rfl
    rw [Balanced, harrived, hlength, arrived]
    by_cases hc : c ∈ destination m q e
    · have hmem : e ∈ T := (hT e).mpr ⟨hc, [], hs, List.not_mem_nil⟩
      have hcard := Finset.card_erase_add_one hmem
      have hbit := Bool.toNat_le (s.pending c || decide (c ∈ ipiTargets m (q e)))
      have hle : (s.pending c || decide (c ∈ ipiTargets m (q e))).toNat ≤ (s.pending c).toNat + 1 := by omega
      refine ⟨by omega, fun hlost => ?_⟩
      have htarget : c ∈ ipiTargets m (q e) := by
        by_contra hn
        exact hlost ⟨e, rfl, hs, hc, .inl hn⟩
      have hpending : s.pending c = false := by
        rw [← Bool.not_eq_true]
        exact fun hp => hlost ⟨e, rfl, hs, hc, .inr hp⟩
      simp only [htarget, hpending, decide_true, Bool.false_or, Bool.toNat_true, Bool.toNat_false]
      omega
    · have hmem : e ∉ T := fun h => hc ((hT e).mp h).1
      have htarget : c ∉ ipiTargets m (q e) := fun h => hc (ipiTargets_subset h)
      rw [Finset.erase_eq_of_notMem hmem]
      simp [htarget]

lemma balanced_step (hs : Step m q s a s')
    (hone : ∀ e, (s.life e).Once (destination m q e)) (hT : ∀ e, e ∈ T ↔ Unnotified m q s c e) :
    ∃ T' : Finset E, (∀ e, e ∈ T' ↔ Unnotified m q s' c e) ∧ Balanced m q s a s' c T T' := by
  cases a with
  | cpu x =>
    obtain ⟨hsender, hcounts⟩ := interrupt_counts hs c
    refine ⟨T, fun e => (hT e).trans ?_, by omega, fun _ => by omega⟩
    rw [Unnotified, Unnotified, hsender]
  | sender e =>
    cases send_ok hs with
    | nobody hpc | wake hpc | free hpc | deallocate hpc =>
      exact balanced_setSender rfl rfl rfl rfl nofun (by simp [hpc]) hT
    | start hpc =>
      refine balanced_setSender rfl rfl rfl rfl ?_ (by simp [hpc]) hT
      rintro rest hrest hn
      cases hrest
      exact hn
    | insert hpc => exact balanced_insert hpc (hone e) hT
    | notify hpc =>
      refine balanced_notify hpc ?_ hT
      intro rest
      split
      · exact nofun
      · exact nofun
    | wait => exact ⟨T, hT, Nat.le_refl _, fun _ => Nat.le_refl _⟩
    | dereference hpc =>
      refine balanced_setSender rfl rfl rfl rfl ?_ (by simp [hpc]) hT
      intro rest hrest
      split at hrest
      · cases hrest
      · cases hrest

lemma delivered_reach {ok : State E → Actor E → Prop} (hr : Reach Initial (Step m q) ok s) (c : UInt8) :
    ∃ T : Finset E, (∀ e, e ∈ T ↔ Unnotified m q s c e) ∧
      arrived s c + T.card ≤ (s.eventList c).length := by
  induction hr with
  | start h =>
    refine ⟨∅, fun e => iff_of_false (Finset.notMem_empty e) ?_, ?_⟩
    · rintro ⟨-, rest, hrest, -⟩
      rw [h.sender e] at hrest
      cases hrest
    · simp [arrived, h.pending c, h.isr c, Isr.entering]
  | step hr _ hs ih =>
    obtain ⟨T, hT, hle⟩ := ih
    obtain ⟨T', hT', hbal, -⟩ := balanced_step hs (fun e => (sound_reach hr e).once) hT
    exact ⟨T', hT', by omega⟩

end Delivery

section Safety

variable {E : Type} {m : Machine} {q : E → Request} {s s' : State E} {e : E} {c : UInt8} {ev : IpcEvent}
  {why : Prop} {x : Exec (State E)}

lemma access_of_some (h : s.heap e = some ev) : s.access e = .ok ev := by
  rw [State.access, h]
  rfl

/-- A step is taken, unless there is nothing to do for the reason `why`. -/
def Taken (x : Exec (State E)) (why : Prop) : Prop := (∃ s', x = .ok s') ∨ x = .error .disabled ∧ why

lemma taken_ok (s : State E) : Taken (.ok s) why := .inl ⟨s, rfl⟩

lemma taken_access {f : IpcEvent → Exec (State E)} (h : s.heap e = some ev) (hf : Taken (f ev) why) :
    Taken (s.access e >>= f) why := by
  rwa [access_of_some h]

lemma Taken.disabled {f : Fault} (h : Taken x why) (hf : x = .error f) : f = .disabled := by
  obtain ⟨s', hs'⟩ | ⟨hdis, -⟩ := h
  · rw [hs'] at hf
    cases hf
  · rw [hdis] at hf
    cases hf
    rfl

lemma Taken.ok (h : Taken x why) (hwhy : ¬ why) : ∃ s', x = .ok s' :=
  h.resolve_right fun hdis => hwhy hdis.2

variable [DecidableEq E]

def AllSound (m : Machine) (q : E → Request) (s : State E) : Prop :=
  ∀ e, (s.life e).Sound (destination m q e) (q e).waitForHandling (q e).freeFunction

lemma AllSound.held (h : AllSound m q s) (hpos : 0 < (s.life e).queued c + ((s.life e).stage c).holds) :
    ∃ n, 0 < n ∧ n ≤ 257 ∧ s.heap e = some ⟨n, (q e).waitForHandling, false⟩ := by
  obtain ⟨hone, hphase, -⟩ := h e
  obtain ⟨ho, -, he, -⟩ := hphase.held_of_holds hone hpos
  have hle : (s.life e).outstanding (destination m q e) ≤ 256 :=
    List.countP_le_length.trans (length_le_of_nodup destination_nodup)
  have hbit := Bool.toNat_le (q e).waitForHandling
  exact ⟨_, by omega, by omega, he⟩

lemma AllSound.accessEntry (h : AllSound m q s) {o : Option E} (ho : ∀ e, o = some e → e ∈ s.eventList c) :
    s.accessEntry o = .ok () := by
  cases o with
  | none => rfl
  | some e =>
    have hpos : 0 < (s.life e).queued c := List.count_pos_iff.mpr (ho e rfl)
    obtain ⟨n, -, -, he⟩ := h.held (e := e) (c := c) (by omega)
    rw [State.accessEntry, access_of_some he]
    rfl

lemma AllSound.send (h : AllSound m q s) (e : E) : Taken (s.send m q e) (s.sender e = .done) := by
  obtain ⟨hone, hphase, -⟩ := h e
  unfold State.send
  cases hs : s.sender e with
  | idle =>
    dsimp only
    split
    · exact taken_ok _
    · next hd =>
      rw [ipcGenerateEvent_eq (List.length_pos_iff.mpr hd) (length_le_of_nodup destination_nodup)]
      exact taken_ok _
  | insert rest =>
    cases rest with
    | nil => exact taken_ok _
    | cons x rest =>
      have hrest : ((s.life e).rest (destination m q e)).count x = rest.count x + 1 := by
        simp only [Life.rest, State.life, hs, List.count_cons_self]
      have hidle : (s.life e).sender ≠ .idle := by
        rw [State.life, hs]
        simp
      obtain ⟨-, -, he, -⟩ := hphase.held_of_owes (c := x) hone (by omega) hidle
      have hlast := h.accessEntry (c := x) fun e' he' => List.mem_of_getLast? he'
      refine taken_access he ?_
      rw [hlast]
      exact taken_ok _
  | wait =>
    obtain ⟨-, -, n, b, he⟩ := hphase.of_wait hs
    refine taken_access he ?_
    rw [ensure_pos rfl, bind_okay]
    split
    · exact taken_ok _
    · exact taken_ok _
  | dereference =>
    obtain ⟨-, -, he, -⟩ := hphase.of_dereference hs
    refine taken_access he ?_
    rw [rfcDereference_eq (by decide) (by decide)]
    exact taken_ok _
  | free =>
    obtain ⟨-, -, ⟨ev, he⟩, -⟩ := hphase.of_senderFree hs
    exact taken_access he (taken_ok _)
  | deallocate =>
    obtain ⟨-, -, ⟨ev, he⟩, -⟩ := hphase.of_senderDeallocate hs
    exact taken_access he (taken_ok _)
  | done => exact .inr ⟨rfl, rfl⟩

lemma AllSound.interrupt (h : AllSound m q s) (hentry : s.isr c = .entered → s.eventList c ≠ []) :
    Taken (s.interrupt q c) (s.isr c = .idle ∧ s.pending c = false) := by
  have hheld {pc : Isr E} {e : E} (hs : s.isr c = pc) (hpos : 0 < (pc.stage e).holds) :=
    h.held (e := e) (c := c) (by rw [stage_isr hs]; omega)
  unfold State.interrupt
  cases hs : s.isr c with
  | idle =>
    dsimp only
    split
    · exact taken_ok _
    · next hp => exact .inr ⟨rfl, rfl, Bool.eq_false_iff.mpr hp⟩
  | entered =>
    obtain ⟨e, rest, hl⟩ := List.exists_cons_of_ne_nil (hentry hs)
    have hpos : 0 < (s.life e).queued c := List.count_pos_iff.mpr (by simp [hl])
    obtain ⟨n, -, -, he⟩ := h.held (e := e) (c := c) (by omega)
    have hnext := h.accessEntry (c := c) (o := rest.head?) fun e' he' => by
      rw [hl]
      exact List.mem_cons_of_mem _ (List.mem_of_head? he')
    rw [hl]
    refine taken_access he ?_
    rw [hnext]
    exact taken_ok _
  | call e | finished e =>
    obtain ⟨n, -, -, he⟩ := hheld (e := e) hs (by simp [Isr.stage, Stage.holds])
    exact taken_access he (taken_ok _)
  | running e => exact taken_ok _
  | dereference e b =>
    obtain ⟨n, hn, hn', he⟩ := hheld (e := e) hs (by simp [Isr.stage, Stage.holds])
    refine taken_access he ?_
    rw [rfcDereference_eq hn (by omega)]
    exact taken_ok _
  | free e =>
    obtain ⟨-, -, -, ⟨ev, he⟩, -⟩ := (h e).phase.of_free ((stage_isr hs).trans (if_pos rfl))
    exact taken_access he (taken_ok _)
  | deallocate e =>
    obtain ⟨-, -, -, ⟨ev, he⟩, -⟩ := (h e).phase.of_deallocate ((stage_isr hs).trans (if_pos rfl))
    exact taken_access he (taken_ok _)
  | signal e =>
    obtain ⟨-, -, -, he, -⟩ := (h e).phase.of_signal ((stage_isr hs).trans (if_pos rfl))
    exact taken_access he (taken_ok _)

section Reached

variable {ok : State E → Actor E → Prop} (hr : Reach Initial (Step m q) ok s)
include hr

lemma send_reach (e : E) : Taken (s.send m q e) (s.sender e = .done) := AllSound.send (sound_reach hr) e

lemma interrupt_reach (c : UInt8) : Taken (s.interrupt q c) (s.isr c = .idle ∧ s.pending c = false) := by
  refine AllSound.interrupt (sound_reach hr) fun hs hnil => ?_
  obtain ⟨T, -, hle⟩ := delivered_reach hr c
  rw [arrived, hs, hnil, Isr.entering, List.length_nil] at hle
  omega

end Reached

end Safety

section Lifetime

variable {dest : List UInt8} {wait ff : Bool} {l : Life} {c : UInt8}

lemma Life.Once.handled_of_outstanding (h : l.Once dest) (ho : l.outstanding dest = 0) :
    ∀ c ∈ dest, l.handled c = 1 := by
  intro c hc
  have honce := h.once c
  have hlate := h.late_le c
  have hle := (l.stage c).late_le_holds
  have hne : ¬ (l.handled c == (l.stage c).late) = true := List.countP_eq_zero.mp ho c hc
  rw [beq_iff_eq] at hne
  rw [if_pos hc] at honce
  omega

lemma Life.Once.handled_le (h : l.Once dest) : l.handled c ≤ if c ∈ dest then 1 else 0 := by
  have honce := h.once c
  have hle := (l.stage c).late_le_holds
  omega

lemma Life.Sound.of_freed (h : l.Sound dest wait ff) (hf : 0 < l.freeCalls) :
    l.freeCalls = 1 ∧ ∀ c ∈ dest, l.handled c = 1 := by
  have hbit := Bool.toNat_le ff
  obtain ⟨hone, hphase, -⟩ := h
  cases hphase with
  | senderDeallocate _ ho _ _ hf' | cpuDeallocate _ ho _ _ hf' | dead ho _ _ hf' =>
    exact ⟨by omega, hone.handled_of_outstanding ho⟩
  | unborn _ _ hf' | nobody _ _ _ hf' | held _ _ _ hf' | signalling _ _ _ _ hf'
  | signalled _ _ _ _ hf' | woken _ _ _ _ hf' | senderFree _ _ _ _ hf' | cpuFree _ _ _ _ hf' => omega

lemma Life.Sound.of_returned (h : l.Sound dest wait ff) (hw : wait = true) (hs : l.sender = .done) :
    ∀ c ∈ dest, l.handled c = 1 := by
  obtain ⟨hone, hphase, -⟩ := h
  cases hphase with
  | dead ho => exact hone.handled_of_outstanding ho
  | nobody hd =>
    intro c hc
    rw [hd] at hc
    cases hc
  | _ => grind [Life.AtWork]

/-- Nobody has anything to do with the event any more. -/
structure Life.Over (l : Life) : Prop where
  sender : l.sender = .done
  queued : ∀ c, l.queued c = 0
  stage : ∀ c, l.stage c = .away

lemma Life.Sound.of_over (h : l.Sound dest wait ff) (ho : l.Over) (hd : dest ≠ []) :
    (∀ c ∈ dest, l.handled c = 1) ∧ l.freeCalls = ff.toNat ∧ l.event = none := by
  obtain ⟨hsender, hqueued, hstage⟩ := ho
  have hhandled : ∀ c ∈ dest, l.handled c = 1 := by
    intro c hc
    have honce := h.once.once c
    have hrest : l.rest dest = [] := by rw [Life.rest, hsender]
    rw [hrest, hqueued, hstage, if_pos hc] at honce
    simpa [Stage.holds, Stage.late] using honce
  have hout : l.outstanding dest = 0 := by
    refine List.countP_eq_zero.mpr fun c hc => ?_
    rw [hhandled c hc, hstage]
    exact Bool.false_ne_true
  refine ⟨hhandled, ?_⟩
  obtain ⟨-, hphase, -⟩ := h
  cases hphase with
  | dead _ _ he hf => exact ⟨hf, he⟩
  | nobody hd' => exact absurd hd' hd
  | signalling _ _ _ _ _ hc | cpuFree _ _ _ _ _ hc | cpuDeallocate _ _ _ _ _ hc =>
    rw [Life.Closes, hstage] at hc
    cases hc.1
  | _ => grind [Life.AtWork]

/-- In every run of any number of calls: no step fails, so no event is accessed that is not in the pool;
    the function of a call runs at most once on each processor it is for, and on no other; the free
    function is called at most once, after the function has run on all of them; a call that waits returns
    after that. When nobody has anything to do with an event any more, the function has run once on each of
    its processors, the free function has been called once, and the event has been deallocated. -/
theorem event_lifetime {E : Type} [DecidableEq E] (m : Machine) (q : E → Request) (s : State E)
    (hr : Reach Initial (Step m q) (fun _ _ => True) s) :
    (∀ a f, s.next m q a = .error f → f = .disabled) ∧
    ∀ e, (∀ c, s.handled e c ≤ if c ∈ destination m q e then 1 else 0) ∧
      (0 < s.freeCalls e → s.freeCalls e = 1 ∧ ∀ c ∈ destination m q e, s.handled e c = 1) ∧
      ((q e).waitForHandling = true → s.sender e = .done → ∀ c ∈ destination m q e, s.handled e c = 1) ∧
      (s.sender e = .done → (∀ c, e ∉ s.eventList c ∧ (s.isr c).event ≠ some e) → destination m q e ≠ [] →
        (∀ c ∈ destination m q e, s.handled e c = 1) ∧
          s.freeCalls e = (q e).freeFunction.toNat ∧ s.heap e = none) := by
  refine ⟨fun a f hf => ?_, fun e => ?_⟩
  · cases a with
    | sender e => exact (send_reach hr e).disabled hf
    | cpu c => exact (interrupt_reach hr c).disabled hf
  · have h := sound_reach hr e
    refine ⟨fun c => h.once.handled_le, h.of_freed, h.of_returned, fun hs hover => h.of_over ⟨hs, ?_, ?_⟩⟩
    · exact fun c => List.count_eq_zero.mpr (hover c).1
    · exact fun c => stage_of_ne (hover c).2

end Lifetime

def quietState (E : Type) : State E where
  heap _ := none
  sender _ := .idle
  eventList _ := []
  pending _ := false
  isr _ := .idle
  handled _ _ := 0
  freeCalls _ := 0

lemma initial_quietState (E : Type) : Initial (quietState E) :=
  ⟨fun _ => rfl, fun _ => rfl, fun _ => rfl, fun _ => rfl, fun _ => rfl, fun _ _ => rfl, fun _ => rfl⟩

def twoCpus : Machine := ⟨[0, 1], by decide⟩

def broadcast (_ : Unit) : Request := ⟨0, .toAllIncludingSelf, true, true⟩

def broadcastRun : List (Actor Unit) :=
  List.replicate 4 (.sender ()) ++ List.replicate 6 (.cpu 0) ++ List.replicate 7 (.cpu 1) ++
    List.replicate 4 (.sender ())

theorem event_lifetime_broadcast : ∃ s, Reach Initial (Step twoCpus broadcast) (fun _ _ => True) s ∧
      s.sender () = .done ∧ (∀ c ∈ [0, 1], s.handled () c = 1) ∧ s.freeCalls () = 1 := by
  obtain ⟨s, hr, hdone, hfree⟩ : ∃ s, Reach Initial (Step twoCpus broadcast) (fun _ _ => True) s ∧
      s.sender () = .done ∧ s.freeCalls () = 1 := exists_reach (initial_quietState Unit) broadcastRun (by decide)
  exact ⟨s, hr, hdone, ((event_lifetime twoCpus broadcast s hr).2 ()).2.2.1 rfl hdone, hfree⟩

end HAL9000.Ipc
