import HAL9000.Lib.Fair
import HAL9000.Ipc.Lifetime

/-!
# Every event is processed

An interrupt routine takes one entry from the list. As long as no interrupt gets lost (`Lost`), there is
an interrupt on its way, or one still to be sent, for every entry (`balance_reach`). So in a fair run the
entries in front of an event are taken one by one, until it is its turn (`entry_leadsTo_call`), and a call
that waits is woken (`events_processed`).

An interrupt that is sent while another one is pending is merged with it, and an entry stays behind
(`event_left_behind`).
-/

namespace HAL9000.Ipc
open Lib Function

variable {E : Type} {m : Machine} {q : E → Request} {s s' : State E} {a : Actor E} {e : E} {c : UInt8}

section Steps

def Isr.rank : Isr E → Nat
  | .idle => 0
  | .deallocate _ | .signal _ => 1
  | .free _ => 2
  | .dereference _ _ => 3
  | .finished _ => 4
  | .running _ => 5
  | .call _ => 6
  | .entered => 7

lemma entering_of_ne {pc : Isr E} (h : pc ≠ .entered) : pc.entering = 0 := by
  cases pc with
  | entered => exact absurd rfl h
  | _ => rfl

lemma afterDereference_rank (b : Bool) (n : Nat) : (afterDereference e b n).rank < 3 := by
  unfold afterDereference
  split
  · exact Nat.lt_succ_self 2
  split
  · exact Nat.lt_succ_of_lt (Nat.lt_succ_self 1)
  · exact Nat.zero_lt_succ 2

variable [DecidableEq E]

lemma sender_of_ne (hs : Step m q s a s') (ha : a ≠ .sender e) : s'.sender e = s.sender e := by
  cases a with
  | sender e' =>
    have hne : e ≠ e' := fun h => ha (by rw [h])
    exact congrArg Life.sender (life_send_ne hs hne)
  | cpu x => exact congrFun (interrupt_counts hs x).1 e

lemma send_frame (h : s.send m q e = .ok s') : s'.isr = s.isr ∧ (∀ c, s.pending c = true → s'.pending c = true) ∧
      ∀ c, ∃ more, s'.eventList c = s.eventList c ++ more := by
  have hsame : ∀ c, ∃ more, s.eventList c = s.eventList c ++ more := fun c => ⟨[], by simp⟩
  cases send_ok h with
  | @insert x =>
    refine ⟨rfl, fun _ hp => hp, fun c => ?_⟩
    by_cases hc : c = x
    · subst hc
      exact ⟨[e], update_self ..⟩
    · exact ⟨[], by simp [State.setSender, State.setList, hc]⟩
  | notify =>
    refine ⟨rfl, fun c hp => ?_, hsame⟩
    simp [State.setSender, State.smpSendIpcIpi, hp]
  | nobody | start | wake | wait | dereference | free | deallocate => exact ⟨rfl, fun _ hp => hp, hsame⟩

/-- A step of a processor. It accepts an interrupt, takes an entry from its list, or goes on in its interrupt
    routine. -/
inductive Interrupt (s : State E) (x : UInt8) (s' : State E) : Prop where
  | accept : s.isr x = .idle → s.pending x = true → s'.isr = update s.isr x .entered →
    s'.pending = update s.pending x false → s'.eventList = s.eventList → Interrupt s x s'
  | remove {e rest} : s.isr x = .entered → s.eventList x = e :: rest → s'.isr = update s.isr x (.call e) →
    s'.pending = s.pending → s'.eventList = update s.eventList x rest → Interrupt s x s'
  | work {pc} : s.isr x ≠ .idle → s.isr x ≠ .entered → pc.rank < (s.isr x).rank → pc ≠ .entered →
    s'.isr = update s.isr x pc → s'.pending = s.pending → s'.eventList = s.eventList → Interrupt s x s'

lemma interrupt_cases {x : UInt8} (h : s.interrupt q x = .ok s') : Interrupt s x s' := by
  have hwork : ∀ {pc pc' : Isr E}, s.isr x = pc → pc ≠ .idle → pc ≠ .entered →
      s'.isr = update s.isr x pc' → s'.pending = s.pending → s'.eventList = s.eventList →
      pc'.rank < pc.rank → pc' ≠ .entered → Interrupt s x s' := by
    rintro pc pc' rfl hi he hisr hp hl hlt he'
    exact .work hi he hlt he' hisr hp hl
  cases interrupt_ok h with
  | accept hs hp => exact .accept hs hp rfl rfl rfl
  | remove hs hl => exact .remove hs hl rfl rfl rfl
  | call hs | run hs | finish hs | free hs | deallocate hs | signal hs =>
    exact hwork hs (by simp) (by simp) rfl rfl rfl (by simp [Isr.rank]) (by simp)
  | @dereference e b _ n hs =>
    refine hwork hs (by simp) (by simp) rfl rfl rfl (afterDereference_rank b n) ?_
    intro hent
    have := afterDereference_entering (e := e) b n
    rw [hent] at this
    cases this

lemma isr_of_ne (hs : Step m q s a s') (ha : a ≠ .cpu c) :
    s'.isr c = s.isr c ∧ (s.pending c = true → s'.pending c = true) := by
  cases a with
  | sender e =>
    obtain ⟨hisr, hpending, -⟩ := send_frame hs
    exact ⟨congrFun hisr c, hpending c⟩
  | cpu x =>
    have hne : c ≠ x := fun h => ha (by rw [h])
    cases interrupt_cases hs with
    | accept _ _ hisr hpending =>
      rw [hisr, hpending, update_of_ne hne, update_of_ne hne]
      exact ⟨rfl, id⟩
    | remove _ _ hisr hpending | work _ _ _ _ hisr hpending =>
      rw [hisr, hpending, update_of_ne hne]
      exact ⟨rfl, id⟩

lemma eventList_step (hs : Step m q s a s') : (∃ more, s'.eventList c = s.eventList c ++ more) ∨
      a = .cpu c ∧ ∃ e, s.eventList c = e :: s'.eventList c ∧ s'.isr c = .call e := by
  have hsame : ∃ more, s.eventList c = s.eventList c ++ more := ⟨[], by simp⟩
  cases a with
  | sender e => exact .inl ((send_frame hs).2.2 c)
  | cpu x =>
    cases interrupt_cases hs with
    | accept _ _ _ _ hl | work _ _ _ _ _ _ hl =>
      rw [hl]
      exact .inl hsame
    | @remove e rest _ hl hisr _ hl' =>
      by_cases hc : c = x
      · subst hc
        rw [hl', hisr, update_self, update_self]
        exact .inr ⟨rfl, e, hl, rfl⟩
      · rw [hl', update_of_ne hc]
        exact .inl hsame

end Steps

section Runs

variable [DecidableEq E] {r : Run (Step m q)} {n : Nat}

abbrev Arrives (m : Machine) (q : E → Request) (s : State E) (a : Actor E) : Prop := ∀ c, ¬ Lost m q s c a

/-- A fair run from the start on in which every interrupt arrives. -/
structure Undisturbed (r : Run (Step m q)) : Prop where
  initial : Initial (r.state 0)
  fair : r.Fair
  arrives : ∀ t a, r.action t = some a → Arrives m q (r.state t) a

lemma Undisturbed.reach (h : Undisturbed r) (t : Nat) :
    Reach Initial (Step m q) (Arrives m q) (r.state t) := Run.reach h.initial h.arrives t

section

variable (hr : Reach Initial (Step m q) (Arrives m q) s)
include hr

lemma balance_reach (c : UInt8) : ∃ T : Finset E, (∀ e, e ∈ T ↔ Unnotified m q s c e) ∧
      (s.eventList c).length ≤ arrived s c + T.card := by
  induction hr with
  | start h =>
    refine ⟨∅, fun e => iff_of_false (Finset.notMem_empty e) ?_, ?_⟩
    · rintro ⟨-, rest, hrest, -⟩
      rw [h.sender e] at hrest
      cases hrest
    · simp [h.eventList c]
  | step hr hok hs ih =>
    obtain ⟨T, hT, hle⟩ := ih
    obtain ⟨T', hT', -, hbal⟩ := balanced_step hs (fun e => (sound_reach hr e).once) hT
    have := hbal (hok c)
    exact ⟨T', hT', by omega⟩

lemma enabled_cpu
    (h : s.isr c ≠ .idle ∨ s.pending c = true) : Enabled (Step m q) s (.cpu c) := by
  refine (interrupt_reach hr c).ok ?_
  rintro ⟨hi, hp⟩
  obtain h | h := h
  · exact h hi
  · rw [hp] at h
    cases h

lemma enabled_sender (h : s.sender e ≠ .done) : Enabled (Step m q) s (.sender e) := (send_reach hr e).ok h

end

/-- The event is in the list of the processor, with `n` entries before it. -/
def Behind (c : UInt8) (e : E) (n : Nat) (s : State E) : Prop := e ∈ s.eventList c ∧ (s.eventList c).idxOf e = n

def Closer (c : UInt8) (e : E) (n : Nat) (s : State E) : Prop := s.isr c = .call e ∨ ∃ k < n, Behind c e k s

lemma Behind.remove {e' : E} (h : Behind c e n s) (hl : s.eventList c = e' :: s'.eventList c)
    (hisr : s'.isr c = .call e') : Closer c e n s' := by
  obtain ⟨hmem, hidx⟩ := h
  rw [hl] at hmem hidx
  by_cases he : e' = e
  · subst he
    exact .inl hisr
  · have hmem' := (List.mem_cons.mp hmem).resolve_left (Ne.symm he)
    rw [List.idxOf_cons_ne _ he] at hidx
    exact .inr ⟨_, by omega, hmem', rfl⟩

lemma Behind.step (h : Behind c e n s) (hs : Step m q s a s') : Behind c e n s' ∨ Closer c e n s' := by
  obtain ⟨more, hl⟩ | ⟨-, e', hl, hisr⟩ := eventList_step (c := c) hs
  · refine .inl ⟨?_, ?_⟩
    · rw [hl]
      exact List.mem_append_left more h.1
    · rw [hl, List.idxOf_append_of_mem h.1]
      exact h.2
  · exact .inr (h.remove hl hisr)

lemma Behind.entered (h : Behind c e n s) (hs : Step m q s (.cpu c) s') (hent : s.isr c = .entered) :
    Closer c e n s' := by
  cases interrupt_cases hs with
  | accept hi =>
    rw [hent] at hi
    cases hi
  | work _ hn => exact absurd hent hn
  | @remove e' rest _ hl hisr _ hl' =>
    have hrest : s.eventList c = e' :: s'.eventList c := by
      rw [hl', update_self]
      exact hl
    exact h.remove hrest (by rw [hisr, update_self])

lemma send_insert {x : UInt8} {rest : List UInt8} (h : s.send m q e = .ok s')
    (hs : s.sender e = .insert (x :: rest)) : s'.sender e = .insert rest := by
  rw [State.send, hs] at h
  obtain ⟨_, -, h⟩ := bind_ok.mp h
  obtain ⟨_, -, h⟩ := bind_ok.mp h
  cases h
  exact update_self ..

lemma send_notify (h : s.send m q e = .ok s') (hs : s.sender e = .insert [])
    (hc : c ∈ ipiTargets m (q e)) : s'.pending c = true := by
  rw [State.send, hs] at h
  cases h
  simp [State.setSender, State.smpSendIpcIpi, hc]

section Turn

variable (h : Undisturbed r) {pc : Isr E} {e' : E}
include h

lemma entered_leadsTo_closer : r.LeadsTo (fun s => Behind c e n s ∧ s.isr c = .entered) (Closer c e n) := by
  refine Run.leadsTo_of_fair (h.fair (.cpu c)) ?_ ⟨?_, ?_⟩
  · rintro t ⟨-, hent⟩
    exact enabled_cpu (h.reach t) (.inl (by rw [hent]; exact nofun))
  · rintro t b - hne ⟨hbehind, hent⟩ hs
    obtain hbehind | hcloser := hbehind.step hs
    · exact .inl ⟨hbehind, by rw [(isr_of_ne hs hne).1, hent]⟩
    · exact .inr hcloser
  · rintro t - ⟨hbehind, hent⟩ hs
    exact hbehind.entered hs hent

/-- An action leads from `A` to `B`, unless the entry gets closer before. -/
lemma behind_leadsTo {A B : State E → Prop} {b : Actor E}
    (henabled : ∀ t, A (r.state t) → Enabled (Step m q) (r.state t) b)
    (hkeep : ∀ t a, a ≠ b → A (r.state t) → Step m q (r.state t) a (r.state (t + 1)) → A (r.state (t + 1)))
    (hact : ∀ t, r.action t = some b → A (r.state t) → Step m q (r.state t) b (r.state (t + 1)) →
      B (r.state (t + 1))) :
    r.LeadsTo (fun s => Behind c e n s ∧ A s) (fun s => Behind c e n s ∧ B s ∨ Closer c e n s) := by
  refine Run.leadsTo_of_fair (h.fair b) (fun t hP => henabled t hP.2) ⟨?_, ?_⟩
  · rintro t a - hne ⟨hbehind, hA⟩ hs
    exact (hbehind.step hs).imp (fun hbehind => ⟨hbehind, hkeep t a hne hA hs⟩) .inr
  · rintro t ht ⟨hbehind, hA⟩ hs
    exact (hbehind.step hs).imp_left fun hbehind => ⟨hbehind, hact t ht hA hs⟩

lemma interrupted_leadsTo {B : State E → Prop}
    (hact : ∀ t, (r.state t).pending c = true → (r.state t).isr c = pc →
      Step m q (r.state t) (.cpu c) (r.state (t + 1)) → B (r.state (t + 1))) :
    r.LeadsTo (fun s => Behind c e n s ∧ s.pending c = true ∧ s.isr c = pc)
      (fun s => Behind c e n s ∧ B s ∨ Closer c e n s) := by
  refine behind_leadsTo h (fun t hA => enabled_cpu (h.reach t) (.inr hA.1)) ?_ fun t _ hA hs => hact t hA.1 hA.2 hs
  rintro t a hne ⟨hp, hpc⟩ hs
  obtain ⟨hisr, hpending⟩ := isr_of_ne hs hne
  exact ⟨hpending hp, hisr.trans hpc⟩

lemma idle_leadsTo_closer :
    r.LeadsTo (fun s => Behind c e n s ∧ s.pending c = true ∧ s.isr c = .idle) (Closer c e n) := by
  refine Run.LeadsTo.cancel (interrupted_leadsTo h fun t _ hidle hs => ?_) (entered_leadsTo_closer h)
  cases interrupt_cases hs with
  | accept _ _ hisr => rw [hisr, update_self]
  | remove hent =>
    rw [hidle] at hent
    cases hent
  | work hn => exact absurd hidle hn

lemma work_leadsTo_closer (hi : pc ≠ .idle) (hent : pc ≠ .entered) :
    r.LeadsTo (fun s => Behind c e n s ∧ s.pending c = true ∧ s.isr c = pc)
      (fun s => Behind c e n s ∧ (s.pending c = true ∧ (s.isr c).rank < pc.rank) ∨ Closer c e n s) := by
  refine interrupted_leadsTo h fun t hp hpc hs => ?_
  cases interrupt_cases hs with
  | accept hi' => exact absurd (hpc.symm.trans hi') hi
  | remove hent' => exact absurd (hpc.symm.trans hent') hent
  | work _ _ hlt _ hisr hpending =>
    refine ⟨by rw [hpending, hp], ?_⟩
    rw [hisr, update_self, ← hpc]
    exact hlt

lemma pending_leadsTo_closer : r.LeadsTo (fun s => Behind c e n s ∧ s.pending c = true) (Closer c e n) := by
  refine Run.leadsTo_of_rank (fun s => (s.isr c).rank) fun k t hP => ?_
  obtain ⟨⟨hbehind, hp⟩, rfl⟩ := hP
  by_cases hidle : (r.state t).isr c = .idle
  · obtain ⟨u, hu, hcloser⟩ := idle_leadsTo_closer h t ⟨hbehind, hp, hidle⟩
    exact ⟨u, hu, .inl hcloser⟩
  by_cases hent : (r.state t).isr c = .entered
  · obtain ⟨u, hu, hcloser⟩ := entered_leadsTo_closer h t ⟨hbehind, hent⟩
    exact ⟨u, hu, .inl hcloser⟩
  · obtain ⟨u, hu, ⟨hbehind, hp, hlt⟩ | hcloser⟩ := work_leadsTo_closer h hidle hent t ⟨hbehind, hp, rfl⟩
    · exact ⟨u, hu, .inr ⟨⟨hbehind, hp⟩, hlt⟩⟩
    · exact ⟨u, hu, .inl hcloser⟩

lemma insert_leadsTo_pending {rest : List UInt8} (hc : c ∈ destination m q e') (hrest : c ∉ rest) :
    r.LeadsTo (fun s => Behind c e n s ∧ s.sender e' = .insert rest)
      (fun s => Behind c e n s ∧ s.pending c = true ∨ Closer c e n s) := by
  have henabled : ∀ {rest} t, (r.state t).sender e' = .insert rest → Enabled (Step m q) (r.state t) (.sender e') :=
    fun t hpc => enabled_sender (h.reach t) (by rw [hpc]; exact nofun)
  have hkeep : ∀ {rest} t a, a ≠ .sender e' → (r.state t).sender e' = .insert rest →
      Step m q (r.state t) a (r.state (t + 1)) → (r.state (t + 1)).sender e' = .insert rest :=
    fun t a hne hpc hs => (sender_of_ne hs hne).trans hpc
  induction rest with
  | nil =>
    refine behind_leadsTo h henabled hkeep fun t ht hpc hs => send_notify hs hpc ?_
    -- the interrupt does not get lost
    by_contra hn
    exact h.arrives t _ ht c ⟨e', rfl, hpc, hc, .inl hn⟩
  | cons x rest ih =>
    refine (behind_leadsTo (b := .sender e') (B := fun s => s.sender e' = .insert rest) h henabled hkeep
      fun t _ hpc hs => send_insert hs hpc).trans ?_
    rintro t (hP | hcloser)
    · exact ih (fun hmem => hrest (List.mem_cons_of_mem x hmem)) t hP
    · exact ⟨t, Nat.le_refl t, .inr hcloser⟩

lemma unnotified_leadsTo_closer : r.LeadsTo (fun s => Behind c e n s ∧ Unnotified m q s c e') (Closer c e n) := by
  rintro t ⟨hbehind, hc, rest, hpc, hrest⟩
  exact Run.LeadsTo.cancel (insert_leadsTo_pending h hc hrest) (pending_leadsTo_closer h) t ⟨hbehind, hpc⟩

lemma behind_leadsTo_closer : r.LeadsTo (Behind c e n) (Closer c e n) := by
  intro t hbehind
  obtain ⟨T, hT, hle⟩ := balance_reach (h.reach t) c
  have hpos := List.length_pos_of_mem hbehind.1
  by_cases hp : (r.state t).pending c = true
  · exact pending_leadsTo_closer h t ⟨hbehind, hp⟩
  by_cases hent : (r.state t).isr c = .entered
  · exact entered_leadsTo_closer h t ⟨hbehind, hent⟩
  have harrived : arrived (r.state t) c = 0 := by
    rw [arrived, Bool.eq_false_iff.mpr hp, entering_of_ne hent]
    rfl
  obtain ⟨e', he'⟩ : ∃ e', e' ∈ T := Finset.card_pos.mp (by omega)
  exact unnotified_leadsTo_closer h t ⟨hbehind, (hT e').mp he'⟩

lemma entry_leadsTo_call : r.LeadsTo (fun s => e ∈ s.eventList c) (fun s => s.isr c = .call e) := by
  refine Run.leadsTo_of_rank (fun s => (s.eventList c).idxOf e) fun n t hP => ?_
  obtain ⟨u, hu, hcall | ⟨k, hk, hmem, hidx⟩⟩ := behind_leadsTo_closer h t hP
  · exact ⟨u, hu, .inl hcall⟩
  · exact ⟨u, hu, .inr ⟨hmem, by omega⟩⟩

end Turn

section Waiting

abbrev Finished (m : Machine) (q : E → Request) (s : State E) (e : E) (c : UInt8) : Prop :=
  (s.life e).Finished (destination m q e) c

def Holding (e : E) (c : UInt8) (s : State E) : Prop := 0 < ((s.life e).stage c).holds

lemma Holding.isr_ne (h : Holding e c s) : s.isr c ≠ .idle ∧ s.isr c ≠ .entered := by
  constructor
  all_goals
    intro hs
    have hstage : (s.life e).stage c = .away := congrArg (Isr.stage e) hs
    rw [Holding, hstage] at h
    cases h

def AllFinished (m : Machine) (q : E → Request) (e : E) (s : State E) : Prop :=
  s.sender e = .wait ∧ ∀ c ∈ destination m q e, Finished m q s e c

lemma finished_step (hs : Step m q s a s') (hf : Finished m q s e c) : Finished m q s' e c := by
  obtain heq | hstep := life_next hs e
  · rw [Finished, heq]
    exact hf
  · exact Life.Finished.step hf hstep

lemma isr_of_signal (h : (s.life e).stage c = .signal) : s.isr c = .signal e := by
  have hstage : (s.isr c).stage e = .signal := h
  cases hs : s.isr c with
  | signal e' =>
    rw [hs, Isr.stage] at hstage
    split at hstage
    · next he => rw [he]
    · cases hstage
  | _ =>
    rw [hs] at hstage
    simp only [Isr.stage] at hstage
    grind

def Signaled (e : E) (s : State E) : Prop := ∃ ev, s.heap e = some ev ∧ ev.signaled = true

lemma send_wait (h : s.send m q e = .ok s') (hs : s.sender e = .wait) :
    Signaled e s ∧ s'.sender e = .dereference ∨ ¬ Signaled e s ∧ s' = s := by
  cases send_ok h with
  | wake _ hev hsig => exact .inl ⟨⟨_, hev, hsig⟩, update_self ..⟩
  | wait _ hev hsig =>
    refine .inr ⟨?_, rfl⟩
    rintro ⟨ev', hev', hsig'⟩
    obtain rfl := Option.some.inj (hev.symm.trans hev')
    cases hsig.symm.trans hsig'
  | nobody hpc | start hpc | insert hpc | notify hpc | dereference hpc | free hpc | deallocate hpc =>
    cases hs.symm.trans hpc

def Sender.rank : Sender → Nat
  | .dereference => 3
  | .free => 2
  | .deallocate => 1
  | _ => 0

lemma send_rank (h : s.send m q e = .ok s') (hs : 0 < (s.sender e).rank) :
    s'.sender e = .done ∨ 0 < (s'.sender e).rank ∧ (s'.sender e).rank < (s.sender e).rank := by
  cases send_ok h with
  | nobody hpc | start hpc | insert hpc | notify hpc | wake hpc | wait hpc =>
    rw [hpc] at hs
    cases hs
  | @dereference _ n hpc =>
    by_cases hn : n = 0
    · simp [State.setSender, hn, hpc, Sender.rank]
    · simp [State.setSender, hn]
  | free hpc => simp [State.setSender, hpc, Sender.rank]
  | deallocate => simp [State.setSender]

def Sender.Past (pc : Sender) : Prop := pc = .wait ∨ 0 < pc.rank ∨ pc = .done

lemma past_step (hs : Step m q s a s') (hp : (s.sender e).Past) : (s'.sender e).Past := by
  by_cases ha : a = .sender e
  · subst ha
    obtain hwait | hpos | hdone := hp
    · obtain ⟨-, hpc⟩ | ⟨-, rfl⟩ := send_wait hs hwait
      · exact .inr (.inl (by rw [hpc]; exact Nat.zero_lt_succ 2))
      · exact .inl hwait
    · obtain hdone | ⟨hpos, -⟩ := send_rank hs hpos
      · exact .inr (.inr hdone)
      · exact .inr (.inl hpos)
    · replace hs : s.send m q e = .ok s' := hs
      rw [State.send, hdone] at hs
      cases hs
  · rw [sender_of_ne hs ha]
    exact hp

variable (h : Undisturbed r)
include h

lemma holding_leadsTo_finished : r.LeadsTo (Holding e c) (fun s => Finished m q s e c) := by
  refine Run.leadsTo_of_rank (fun s => (s.isr c).rank) fun k => ?_
  refine Run.leadsTo_of_fair (h.fair (.cpu c)) ?_ ⟨?_, ?_⟩
  · rintro t ⟨hhold, -⟩
    exact enabled_cpu (h.reach t) (.inl hhold.isr_ne.1)
  · rintro t b - hne ⟨hhold, hk⟩ hs
    have hisr := (isr_of_ne hs hne).1
    have hstage : ((r.state (t + 1)).life e).stage c = ((r.state t).life e).stage c :=
      congrArg (Isr.stage e) hisr
    exact .inl ⟨by rw [Holding, hstage]; exact hhold, by rw [hisr, hk]⟩
  · rintro t - ⟨hhold, hk⟩ hs
    cases interrupt_cases hs with
    | accept hi => exact absurd hi hhold.isr_ne.1
    | remove hent => exact absurd hent hhold.isr_ne.2
    | work _ _ hlt _ hisr _ hlist =>
      by_cases hhold' : Holding e c (r.state (t + 1))
      · refine .inr ⟨hhold', ?_⟩
        rw [hisr, update_self, ← hk]
        exact hlt
      · -- the reference has been dropped, and nothing else is left
        refine .inl ?_
        have hone := (sound_reach (h.reach t) e).once
        obtain ⟨hc, howes⟩ := hone.owes (c := c) (by unfold Holding at hhold; omega)
        have honce := hone.once c
        have hsender : ((r.state (t + 1)).life e).sender = ((r.state t).life e).sender :=
          congrFun (interrupt_counts hs c).1 e
        have hrest : ((r.state (t + 1)).life e).rest (destination m q e) =
            ((r.state t).life e).rest (destination m q e) := by
          rw [Life.rest, Life.rest, hsender]
        have hqueued : ((r.state (t + 1)).life e).queued c = ((r.state t).life e).queued c := by
          simp only [State.life, hlist]
        rw [if_pos hc] at honce
        unfold Holding at hhold hhold'
        rw [Finished, Life.Finished, hrest, hqueued]
        omega

lemma entry_leadsTo_finished : r.LeadsTo (fun s => e ∈ s.eventList c) (fun s => Finished m q s e c) := by
  refine (entry_leadsTo_call h).trans fun t hcall => holding_leadsTo_finished h t ?_
  have hstage : ((r.state t).life e).stage c = .call := by
    have : ((r.state t).life e).stage c = (Isr.call e).stage e := congrArg (Isr.stage e) hcall
    rw [this]
    exact if_pos rfl
  rw [Holding, hstage]
  exact Nat.zero_lt_one

lemma wait_leadsTo_finished :
    r.LeadsTo (fun s => s.sender e = .wait) (fun s => ∀ c ∈ destination m q e, Finished m q s e c) := by
  refine Run.leadsTo_forall (fun c _ t hwait => ?_)
    fun c => Run.keep (Finished m q · e c) fun t a hf hs => finished_step hs hf
  by_cases hmem : e ∈ (r.state t).eventList c
  · exact entry_leadsTo_finished h t hmem
  by_cases hhold : Holding e c (r.state t)
  · exact holding_leadsTo_finished h t hhold
  · refine ⟨t, Nat.le_refl t, ?_⟩
    have hrest : ((r.state t).life e).rest (destination m q e) = [] := by
      simp only [Life.rest, State.life, hwait]
    have hqueued : ((r.state t).life e).queued c = 0 := List.count_eq_zero.mpr hmem
    unfold Holding at hhold
    rw [Finished, Life.Finished, hrest, hqueued, List.count_nil]
    omega

lemma woken_leadsTo_done : r.LeadsTo (fun s => 0 < (s.sender e).rank) (fun s => s.sender e = .done) := by
  refine Run.leadsTo_of_rank (fun s => (s.sender e).rank) fun k => ?_
  refine Run.leadsTo_of_fair (h.fair (.sender e)) ?_ ⟨?_, ?_⟩
  · rintro t ⟨hpos, -⟩
    refine enabled_sender (h.reach t) fun hdone => ?_
    rw [hdone] at hpos
    cases hpos
  · rintro t b - hne ⟨hpos, hk⟩ hs
    exact .inl (by rw [sender_of_ne hs hne]; exact ⟨hpos, hk⟩)
  · rintro t - ⟨hpos, rfl⟩ hs
    exact send_rank hs hpos

lemma signaled_leadsTo_done :
    r.LeadsTo (fun s => AllFinished m q e s ∧ Signaled e s) (fun s => s.sender e = .done) := by
  refine Run.LeadsTo.trans (Q := fun s => 0 < (s.sender e).rank)
    (Run.leadsTo_of_fair (h.fair (.sender e)) ?_ ⟨?_, ?_⟩) (woken_leadsTo_done h)
  · rintro t ⟨⟨hwait, -⟩, -⟩
    exact enabled_sender (h.reach t) (by rw [hwait]; exact nofun)
  · rintro t b - hne ⟨⟨hwait, hfin⟩, ev, hev, hsig⟩ hs
    have hsound := sound_reach (h.reach t) e
    have hw := (hsound.phase.of_wait hwait).1
    obtain heq | hstep := life_next hs e
    · have hheap : (r.state (t + 1)).heap e = (r.state t).heap e := congrArg Life.event heq
      refine .inl ⟨⟨?_, fun c hc => finished_step hs (hfin c hc)⟩, ev, by rw [hheap, hev], hsig⟩
      rw [sender_of_ne hs hne, hwait]
    · have hsender := hsound.step_of_signaled hw hwait hfin hev hsig hstep
      have hsame : ((r.state (t + 1)).life e).sender = .wait := (sender_of_ne hs hne).trans hwait
      rw [hsame] at hsender
      cases hsender
  · rintro t - ⟨⟨hwait, -⟩, hsig⟩ hs
    obtain ⟨-, hpc⟩ | ⟨hn, -⟩ := send_wait hs hwait
    · rw [hpc]
      exact Nat.zero_lt_succ 2
    · exact absurd hsig hn

lemma signalling_leadsTo_done :
    r.LeadsTo (fun s => AllFinished m q e s ∧ s.isr c = .signal e) (fun s => s.sender e = .done) := by
  refine Run.LeadsTo.trans (Q := fun s => AllFinished m q e s ∧ Signaled e s)
    (Run.leadsTo_of_fair (h.fair (.cpu c)) ?_ ⟨?_, ?_⟩) (signaled_leadsTo_done h)
  · rintro t ⟨-, hsignal⟩
    exact enabled_cpu (h.reach t) (.inl (by rw [hsignal]; exact nofun))
  · rintro t b - hne ⟨⟨hwait, hfin⟩, hsignal⟩ hs
    have hstage : ((r.state t).life e).stage c = .signal := by
      have : ((r.state t).life e).stage c = (Isr.signal e).stage e := congrArg (Isr.stage e) hsignal
      rw [this]
      exact if_pos rfl
    refine .inl ⟨⟨?_, fun c hc => finished_step hs (hfin c hc)⟩, by rw [(isr_of_ne hs hne).1, hsignal]⟩
    by_cases hb : b = .sender e
    · subst hb
      obtain ⟨⟨ev, hev, hsig⟩, -⟩ | ⟨-, hsame⟩ := send_wait hs hwait
      · obtain ⟨-, -, -, he', -⟩ := (sound_reach (h.reach t) e).phase.of_signal hstage
        obtain rfl := Option.some.inj (hev.symm.trans he')
        cases hsig
      · rw [hsame, hwait]
    · rw [sender_of_ne hs hb, hwait]
  · rintro t - ⟨⟨hwait, hfin⟩, hsignal⟩ hs
    refine ⟨⟨?_, fun c hc => finished_step hs (hfin c hc)⟩, ?_⟩
    · rw [sender_of_ne hs nofun, hwait]
    · replace hs : (r.state t).interrupt q c = .ok (r.state (t + 1)) := hs
      rw [State.interrupt, hsignal] at hs
      obtain ⟨ev, -, hs⟩ := bind_ok.mp hs
      rw [← Except.ok.inj hs]
      exact ⟨_, update_self .., rfl⟩

lemma wait_leadsTo_done : r.LeadsTo (fun s => s.sender e = .wait) (fun s => s.sender e = .done) := by
  intro t hwait
  obtain ⟨u, hu, hfin⟩ := wait_leadsTo_finished h t hwait
  have hpast : ((r.state u).sender e).Past := by
    have hkeep := Run.keep (r := r) (fun s : State E => (s.sender e).Past) fun _ _ hp hs => past_step hs hp
    exact Run.stable (fun s : State E => (s.sender e).Past) hkeep hu (.inl hwait)
  suffices hdone : ∃ v ≥ u, (r.state v).sender e = .done by
    obtain ⟨v, hv, hdone⟩ := hdone
    exact ⟨v, by omega, hdone⟩
  obtain hwait | hpos | hdone := hpast
  · have hsound := sound_reach (h.reach u) e
    obtain ⟨c, hstage⟩ | hsig := hsound.phase.signal_of_finished hwait
      (hsound.once.outstanding_of_finished hfin)
    · exact signalling_leadsTo_done h u ⟨⟨hwait, hfin⟩, isr_of_signal hstage⟩
    · exact signaled_leadsTo_done h u ⟨⟨hwait, hfin⟩, hsig⟩
  · exact woken_leadsTo_done h u hpos
  · exact ⟨u, Nat.le_refl u, hdone⟩

end Waiting

/-- In every fair run of any number of calls in which every interrupt reaches its processor at a time when none
    is pending there, every event in a list is processed, and every call that waits returns. -/
theorem events_processed {E : Type} [DecidableEq E] (m : Machine) (q : E → Request) (r : Run (Step m q))
    (h0 : Initial (r.state 0)) (hfair : r.Fair)
    (harrives : ∀ t a c, r.action t = some a → ¬ Lost m q (r.state t) c a) :
    (∀ t e c, e ∈ (r.state t).eventList c → ∃ t' ≥ t, (r.state t').handled e c = 1) ∧
      ∀ t e, (r.state t).sender e = .wait → ∃ t' ≥ t, (r.state t').sender e = .done := by
  have h : Undisturbed r := ⟨h0, hfair, fun t a ha c => harrives t a c ha⟩
  refine ⟨fun t e c hmem => ?_, fun t e => wait_leadsTo_done h t⟩
  obtain ⟨u, hu, hfin⟩ := entry_leadsTo_finished h t hmem
  have hpos : 0 < ((r.state t).life e).queued c := List.count_pos_iff.mpr hmem
  obtain ⟨hc, -⟩ := (sound_reach (h.reach t) e).once.owes (c := c) (by omega)
  exact ⟨u, hu, (sound_reach (h.reach u) e).once.handled_of_finished hc hfin⟩

end Runs

def allIdle (s : State E) : Bool :=
  (List.range 256).all fun c => (s.isr (.ofNat c)).rank == 0 && !s.pending (.ofNat c)

lemma disabled_of_allIdle [DecidableEq E] (h : allIdle s = true) (c : UInt8) : ¬ Enabled (Step m q) s (.cpu c) := by
  have hc := List.all_eq_true.mp h c.toNat (List.mem_range.mpr c.toNat_lt)
  rw [UInt8.ofNat_toNat, Bool.and_eq_true, beq_iff_eq, Bool.not_eq_true'] at hc
  obtain ⟨hrank, hp⟩ := hc
  have hidle : s.isr c = .idle := by
    cases hs : s.isr c with
    | idle => rfl
    | _ =>
      rw [hs] at hrank
      cases hrank
  rintro ⟨s', hs'⟩
  replace hs' : s.interrupt q c = .ok s' := hs'
  simp only [State.interrupt, hidle, hp] at hs'
  cases hs'

lemma disabled_of_done [DecidableEq E] (h : s.sender e = .done) : ¬ Enabled (Step m q) s (.sender e) := by
  rintro ⟨s', hs'⟩
  replace hs' : s.send m q e = .ok s' := hs'
  rw [State.send, h] at hs'
  cases hs'

def Clear [DecidableEq E] (m : Machine) (q : E → Request) (s : State E) : Actor E → Bool
  | .sender e => s.sender e != .insert [] || (destination m q e).all fun c =>
      (ipiTargets m (q e)).contains c && !s.pending c
  | .cpu _ => true

lemma not_lost_of_clear [DecidableEq E] (h : Clear m q s a = true) : ¬ Lost m q s c a := by
  rintro ⟨e, rfl, hs, hc, hlost⟩
  simp only [Clear, hs, bne_self_eq_false, Bool.false_or, List.all_eq_true, Bool.and_eq_true,
    List.contains_iff_mem, Bool.not_eq_true'] at h
  obtain ⟨htarget, hp⟩ := h c hc
  obtain hn | hp' := hlost
  · exact hn htarget
  · rw [hp] at hp'
    cases hp'

/-- The call to both processors returns. -/
theorem events_processed_broadcast :
    ∃ r : Run (Step twoCpus broadcast), (r.state 4).sender () = .wait ∧ () ∈ (r.state 4).eventList 1 ∧
      (∃ t ≥ 4, (r.state t).handled () 1 = 1) ∧ ∃ t ≥ 4, (r.state t).sender () = .done := by
  have hrun : returns (broadcastRun.foldlM
      (fun s a => do ensure (Clear twoCpus broadcast s a = true); s.next twoCpus broadcast a)
      (quietState Unit)) (fun s => s.sender () == .done && allIdle s) = true := by decide +kernel
  have hfour : returns ((broadcastRun.take 4).foldlM
      (fun s a => do ensure (Clear twoCpus broadcast s a = true); s.next twoCpus broadcast a)
      (quietState Unit)) (fun s => s.sender () == .wait && s.eventList 1 == [()]) = true := by decide
  obtain ⟨last, hlast, htest⟩ := returns_iff.mp hrun
  obtain ⟨s4, hs4, htest4⟩ := returns_iff.mp hfour
  obtain ⟨r, hstate, hclear, hend⟩ := Run.exists_of_foldlM hlast none nofun
  obtain rfl : s4 = r.state 4 := Except.ok.inj (hs4.symm.trans (hstate 4))
  have h0 : quietState Unit = r.state 0 := Except.ok.inj (hstate 0)
  rw [Bool.and_eq_true, beq_iff_eq] at htest
  rw [Bool.and_eq_true, beq_iff_eq, beq_iff_eq] at htest4
  have hmem : () ∈ (r.state 4).eventList 1 := by rw [htest4.2]; exact List.mem_singleton_self ()
  have hprocessed := events_processed twoCpus broadcast r (by rw [← h0]; exact initial_quietState Unit)
    (Run.fair_of_end hend ?_) fun t a c ha => not_lost_of_clear (hclear t a ha)
  · exact ⟨r, htest4.1, hmem, hprocessed.1 4 () 1 hmem, hprocessed.2 4 () htest4.1⟩
  · intro a
    cases a with
    | sender e => exact .inr (disabled_of_done htest.1)
    | cpu c => exact .inr (disabled_of_allIdle htest.2 c)

def oneCpu : Machine := ⟨[0], by decide⟩

def twoCalls (_ : Bool) : Request := ⟨0, .toCpu 0, true, false⟩

def mergedRun : List (Actor Bool) :=
  List.replicate 3 (.sender false) ++ List.replicate 3 (.sender true) ++ List.replicate 7 (.cpu 0) ++
    List.replicate 4 (.sender false)

/-- The two interrupts are merged: the processor takes one entry, and the other one stays in the list for
    ever, in a run in which it accepts every interrupt. The call that has made it waits for ever. -/
theorem event_left_behind : ∃ r : Run (Step oneCpu twoCalls), Initial (r.state 0) ∧ r.Fair ∧ ∀ t ≥ 17,
      true ∈ (r.state t).eventList 0 ∧ (r.state t).handled true 0 = 0 ∧
        (r.state t).sender true = .wait := by
  have hrun : returns (mergedRun.foldlM (fun s a => do ensure True; s.next oneCpu twoCalls a)
      (quietState Bool)) (fun s => s.sender false == .done && s.sender true == .wait && allIdle s &&
        s.eventList 0 == [true] && s.handled true 0 == 0 && s.heap true == some ⟨2, true, false⟩) =
      true := by decide +kernel
  obtain ⟨last, hlast, htest⟩ := returns_iff.mp hrun
  simp only [Bool.and_eq_true, beq_iff_eq] at htest
  obtain ⟨⟨⟨⟨⟨hdone, hwait⟩, hidle⟩, hlist⟩, hhandled⟩, hheap⟩ := htest
  -- the call that waits goes round its loop
  have hloop : last.next oneCpu twoCalls (.sender true) = .ok last := by
    simp only [State.next, State.send, hwait, access_of_some hheap]
    rfl
  obtain ⟨r, hstate, -, hend⟩ := Run.exists_of_foldlM hlast (some (.sender true)) fun a ha => by
    obtain rfl := Option.some.inj ha
    exact ⟨trivial, hloop⟩
  have h0 : quietState Bool = r.state 0 := Except.ok.inj (hstate 0)
  refine ⟨r, by rw [← h0]; exact initial_quietState Bool, Run.fair_of_end hend ?_, fun t ht => ?_⟩
  · intro a
    cases a with
    | sender e =>
      cases e with
      | true => exact .inl rfl
      | false => exact .inr (disabled_of_done hdone)
    | cpu c => exact .inr (disabled_of_allIdle hidle c)
  · rw [(hend t ht).1, hlist]
    exact ⟨List.mem_singleton_self true, hhandled, hwait⟩

end HAL9000.Ipc
