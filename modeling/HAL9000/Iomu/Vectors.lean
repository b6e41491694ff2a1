import HAL9000.Iomu.Interrupts
import HAL9000.Lib.Reach

/-!
# Every line reaches its handler

A registration is refused, and then nothing has changed, or it puts its routine on a vector: the one its
line has, a free one of its level, or the first one of its level if none is free. In the last case the
redirection entry of the line is not written, because the list of that vector is not empty; an interrupt
on a line that had no vector then never arrives.
-/

namespace HAL9000.Iomu
open Lib Lib.Prog Function

def IomuData.taken (s : IomuData) (vector : Nat) : Bool := bitmapGetBit s.mem s.interruptBitmap.bitmapBuffer vector

/-- The free vector with index `k` is taken and its handler installed. -/
def IomuData.occupy (s : IomuData) (k : Nat) : IomuData := { s with
    mem := bitmapChangeBits s.mem s.interruptBitmap.bitmapBuffer (k + noOfReservedExceptions) true 1
    isrRoutines := update s.isrRoutines k true }

def IomuData.program (s : IomuData) (entry : Nat × Nat) (vector : Nat) : IomuData :=
  { s with redirectionTable := update s.redirectionTable entry (some vector) }

/-- The vectors that are taken are those with a handler and with a routine in their list, and lines are
    programmed with such vectors. -/
structure Consistent (s : IomuData) : Prop where
  bitCount : s.interruptBitmap.bitCount = noOfTotalInterrupts
  taken : ∀ k < 224, s.taken (k + noOfReservedExceptions) = true ↔ s.registeredInterrupts k ≠ []
  installed : ∀ k < 224, s.isrRoutines k = true ↔ s.registeredInterrupts k ≠ []
  programmed : ∀ e v, s.redirectionTable e = some v →
    ∃ k < 224, v = k + noOfReservedExceptions ∧ s.registeredInterrupts k ≠ []

/-- What a registration returns and leaves behind, in a consistent state. -/
inductive Registers (io : IoApicSystemData) (interrupt : IoInterrupt) (device : Nat) (s : IomuData) :
    Except Status Nat → IomuData → Prop where
  | refused {st} : Registers io interrupt device s (.error st) s
  /-- The line has a vector already. -/
  | shared {k} : k < 224 → interrupt.exclusive = false → interrupt.ioApicInterrupt = true →
    ioApicSystemGetVectorForIrq io s interrupt.interruptLine = .ok (k + noOfReservedExceptions) →
    s.registeredInterrupts k ≠ [] → Registers io interrupt device s (.ok (k + noOfReservedExceptions))
      (s.insert (k + noOfReservedExceptions) ⟨interrupt.serviceRoutine, device⟩)
  /-- No vector of the level is free. -/
  | crowded {k} : k < 224 → interrupt.exclusive = false → (interrupt.ioApicInterrupt = true →
      ioApicSystemGetVectorForIrq io s interrupt.interruptLine = .error .deviceInterruptNotConfigured) →
    (∀ j < vectorsPerIrql, s.taken (irqlToVector interrupt.irql + j) = true) → s.registeredInterrupts k ≠ [] →
    Registers io interrupt device s (.ok (k + noOfReservedExceptions))
      (s.insert (k + noOfReservedExceptions) ⟨interrupt.serviceRoutine, device⟩)
  /-- A free vector, for an interrupt without a line. -/
  | fresh {k} : k < 224 → s.registeredInterrupts k = [] → interrupt.ioApicInterrupt = false →
    Registers io interrupt device s (.ok (k + noOfReservedExceptions))
      ((s.occupy k).insert (k + noOfReservedExceptions) ⟨interrupt.serviceRoutine, device⟩)
  /-- A free vector, for an interrupt that comes in over a line. -/
  | routed {k j entry} : k < 224 → s.registeredInterrupts k = [] → interrupt.ioApicInterrupt = true →
    j < vectorsPerIrql → s.taken (irqlToVector interrupt.irql + j) = false →
    ioApicSystemGetIoApicForIrq io interrupt.interruptLine = some entry → s.redirectionTable entry = none →
    Registers io interrupt device s (.ok (k + noOfReservedExceptions))
      (((s.occupy k).insert (k + noOfReservedExceptions) ⟨interrupt.serviceRoutine, device⟩).program entry
        (k + noOfReservedExceptions))

inductive Looked (io : IoApicSystemData) (interrupt : IoInterrupt) (s : IomuData) :
    Except Status (Option Nat) → IomuData → Prop where
  | refused {st} : Looked io interrupt s (.error st) s
  | vector {v} : interrupt.ioApicInterrupt = true →
    ioApicSystemGetVectorForIrq io s interrupt.interruptLine = .ok v → Looked io interrupt s (.ok (some v)) s
  | noVector : (interrupt.ioApicInterrupt = true →
      ioApicSystemGetVectorForIrq io s interrupt.interruptLine = .error .deviceInterruptNotConfigured) →
    Looked io interrupt s (.ok none) s

/-- What is found for the interrupt once its line was looked at. -/
inductive Chosen (interrupt : IoInterrupt) (s : IomuData) :
    Option Nat → Except Status Nat → IomuData → Prop where
  | refused {st o} : Chosen interrupt s o (.error st) s
  | line {v} : interrupt.exclusive = false → Chosen interrupt s (some v) (.ok v) s
  | free {v j} :
    v < noOfTotalInterrupts → v = irqlToVector interrupt.irql + j → j < vectorsPerIrql → s.taken v = false →
    Chosen interrupt s none (.ok v)
      { s with mem := bitmapChangeBits s.mem s.interruptBitmap.bitmapBuffer v true 1 }
  | full : interrupt.exclusive = false →
    (∀ j < vectorsPerIrql, s.taken (irqlToVector interrupt.irql + j) = true) →
    Chosen interrupt s none (.ok (irqlToVector interrupt.irql)) s

section Steps

variable {io : IoApicSystemData} {interrupt : IoInterrupt} {device line : Nat} {s s' : IomuData} {irql k v : Nat}
  {o : Option Nat}

lemma irqlToVector_le (irql : Nat) : irqlToVector irql + vectorsPerIrql ≤ noOfTotalInterrupts := by
  rw [irqlToVector, vectorsPerIrql, noOfTotalInterrupts, Nat.shiftLeft_eq]
  omega

lemma notConfigured_iff :
    ioApicSystemGetVectorForIrq io s line = .error .deviceInterruptNotConfigured ↔
      ∃ e, ioApicSystemGetIoApicForIrq io line = some e ∧ s.redirectionTable e = none := by
  rw [ioApicSystemGetVectorForIrq]
  cases ioApicSystemGetIoApicForIrq io line with
  | none => simp
  | some e =>
    cases h : s.redirectionTable e with
    | none => simp [h]
    | some v => simp [h]

lemma configured_iff : ioApicSystemGetVectorForIrq io s line = .ok v ↔
      ∃ e, ioApicSystemGetIoApicForIrq io line = some e ∧ s.redirectionTable e = some v := by
  rw [ioApicSystemGetVectorForIrq]
  cases ioApicSystemGetIoApicForIrq io line with
  | none => simp
  | some e =>
    cases h : s.redirectionTable e with
    | none => simp [h]
    | some w => simp [h]

lemma registeredVector_runs : Runs (fun _ => False) (registeredVector io interrupt) s (Looked io interrupt s) := by
  rw [registeredVector]
  refine .ite (fun hio => ?_) fun hio => .pure (.noVector fun h => absurd h hio)
  refine .assert_bind (fun h => h.elim) fun _ => .bind_of_ok get_apply ?_
  split
  · next v hv => exact .ite (fun _ => .fail .refused) fun _ => .pure (.vector hio hv)
  · next st hst =>
    refine .ite (fun _ => .fail .refused) fun h => .pure (.noVector fun _ => ?_)
    rw [hst, not_ne_iff.mp h]

lemma takeVector_runs (hbits : s.interruptBitmap.bitCount = noOfTotalInterrupts) :
    Runs (fun _ => False) (takeVector irql) s fun r s' =>
      (r = .ok maxDword ∧ s' = s ∧ ∀ j < vectorsPerIrql, s.taken (irqlToVector irql + j) = true) ∨
      ∃ v j, r = .ok v ∧ v < noOfTotalInterrupts ∧ v = irqlToVector irql + j ∧ j < vectorsPerIrql ∧
        s.taken v = false ∧
        s' = { s with mem := bitmapChangeBits s.mem s.interruptBitmap.bitmapBuffer v true 1 } := by
  rw [takeVector]
  refine .bind_of_ok get_apply ?_
  refine .ofExec_bind (fun _ _ h => h) fun ⟨i, mem'⟩ ha => .bind_of_ok modify_apply (.pure ?_)
  have hle := irqlToVector_le irql
  have hscan := bitmapScanFromToAndFlip_scanned (by omega) (Nat.le_add_right _ _) (by omega)
    (by rw [hbits, noOfTotalInterrupts]; omega) ha
  cases hscan with
  | found h1 h2 hbit _ =>
    exact .inr ⟨_, i - irqlToVector irql, rfl, by omega, by omega, by omega, hbit 0 (by omega), rfl⟩
  | none hall =>
    refine .inl ⟨rfl, rfl, fun j hj => ?_⟩
    obtain ⟨l, hl, hne⟩ := hall (irqlToVector irql + j) (by omega) (by omega)
    obtain rfl : l = 0 := by omega
    exact Bool.eq_true_of_not_eq_false hne

lemma chooseVector_runs (hbits : s.interruptBitmap.bitCount = noOfTotalInterrupts) :
    Runs (fun _ => False) (chooseVector interrupt o) s (Chosen interrupt s o) := by
  cases o with
  | some v => exact .ite (fun _ => .fail .refused) fun h => .pure (.line (Bool.eq_false_iff.mpr h))
  | none =>
    refine Runs.seq (takeVector_runs hbits) ?_ ?_
    · rintro a s' (⟨⟨⟩, rfl, hall⟩ | ⟨v, j, ⟨⟩, hv, rfl, hj, hfree, rfl⟩)
      · rw [if_pos rfl]
        exact .ite (fun _ => .fail .refused) fun h => .pure (.full (Bool.eq_false_iff.mpr h) hall)
      · rw [noOfTotalInterrupts] at hv
        rw [if_neg (by rw [maxDword]; omega), Nat.mod_eq_of_lt hv]
        exact .pure (.free hv rfl hj hfree)
    · rintro st s' (⟨⟨⟩, -⟩ | ⟨v, j, ⟨⟩, -⟩)

lemma addHandler_shared (hk : k < 224) (hne : s.registeredInterrupts k ≠ []) (hex : interrupt.exclusive = false) :
    addHandler io .succeeds interrupt device o (k + noOfReservedExceptions) s =
      .ok (.ok (k + noOfReservedExceptions),
        s.insert (k + noOfReservedExceptions) ⟨interrupt.serviceRoutine, device⟩) := by
  have hempty : (s.registeredInterrupts (k + noOfReservedExceptions - noOfReservedExceptions)).isEmpty = false := by
    rwa [Nat.add_sub_cancel, List.isEmpty_eq_false_iff]
  rw [addHandler, assert_pos (by rw [noOfReservedExceptions, noOfTotalInterrupts]; omega), pure_bind]
  refine (bind_of_ok get_apply).trans ?_
  rw [hempty, assert_pos (.inr hex)]
  cases hm : interrupt.byMessage with
  | false => rfl
  | true => rfl

lemma addHandler_first (hk : k < 224) (hnil : s.registeredInterrupts k = []) (hisr : s.isrRoutines k = false)
    (hline : interrupt.ioApicInterrupt = true →
      ioApicSystemGetVectorForIrq io s interrupt.interruptLine = .error .deviceInterruptNotConfigured) :
    Runs (fun _ => False) (addHandler io .succeeds interrupt device none (k + noOfReservedExceptions)) s
      fun r s' => r = .ok (k + noOfReservedExceptions) ∧
        ∃ s1, s1 = ({ s with isrRoutines := update s.isrRoutines k true } : IomuData).insert
            (k + noOfReservedExceptions) ⟨interrupt.serviceRoutine, device⟩ ∧
          ((interrupt.ioApicInterrupt = false ∧ s' = s1) ∨ (interrupt.ioApicInterrupt = true ∧ ∃ e,
              ioApicSystemGetIoApicForIrq io interrupt.interruptLine = some e ∧
              s.redirectionTable e = none ∧ s' = s1.program e (k + noOfReservedExceptions))) := by
  have hempty : (s.registeredInterrupts (k + noOfReservedExceptions - noOfReservedExceptions)).isEmpty = true := by
    rwa [Nat.add_sub_cancel, List.isEmpty_iff]
  rw [addHandler, assert_pos (by rw [noOfReservedExceptions, noOfTotalInterrupts]; omega), pure_bind]
  refine .bind_of_ok get_apply ?_
  rw [hempty]
  dsimp only
  rw [assert_pos (.inl rfl), pure_bind]
  have hinstall : Runs (fun _ => False) (isrInstallEx (k + noOfReservedExceptions)) s fun r s' =>
      r = .ok () ∧ s' = { s with isrRoutines := update s.isrRoutines k true } := by
    rw [isrInstallEx]
    refine .assert_bind (fun h => h.elim) fun _ => .bind_of_ok get_apply ?_
    rw [Nat.add_sub_cancel, if_neg (by rw [hisr]; exact Bool.false_ne_true)]
    exact .of_eq modify_apply ⟨rfl, rfl⟩
  have hmessage : ∀ t : IomuData,
      when interrupt.byMessage (Prog.ofExcept Lower.succeeds.programPci) t = .ok (.ok (), t) := by
    intro t
    cases interrupt.byMessage with
    | false => rfl
    | true => rfl
  refine Runs.seq hinstall ?_ ?_
  · rintro _ s' ⟨-, rfl⟩
    refine .bind_of_ok (pure_apply (a := ())) (.bind_of_ok modify_apply (.bind_of_ok (hmessage _) ?_))
    cases hio : interrupt.ioApicInterrupt with
    | false => exact .pure ⟨rfl, _, rfl, .inl ⟨rfl, rfl⟩⟩
    | true =>
      obtain ⟨e, he, hnone⟩ := notConfigured_iff.mp (hline hio)
      refine .bind_of_ok (a := ()) ?_ (.pure ⟨rfl, _, rfl, .inr ⟨rfl, e, he, hnone, rfl⟩⟩)
      change ioApicSystemSetInterrupt io interrupt.interruptLine (k + noOfReservedExceptions) _ = _
      rw [ioApicSystemSetInterrupt, he]
      exact (bind_of_ok get_apply).trans (congrFun (if_neg (not_not_intro hnone)) _)
  · rintro st s' ⟨⟨⟩, -⟩

lemma addHandler_reserved {Q : Except Status Nat → IomuData → Prop} (hv : v < noOfReservedExceptions) :
    Runs (fun _ => False) (addHandler io .succeeds interrupt device o v) s Q := by
  rw [addHandler, assert_neg (by omega), fault_bind]
  exact .fault fun h => h

lemma iomuRegisterInterrupt_runs (hc : Consistent s) :
    Runs (fun _ => False) (iomuRegisterInterrupt io .succeeds interrupt device) s
      (Registers io interrupt device s) := by
  rw [iomuRegisterInterrupt]
  refine registeredVector_runs.seq (fun o s1 hlook => ?_) fun st s1 hlook => ?_
  · refine Runs.seq (Q := Chosen interrupt s o) ?_ ?_ ?_
    · cases hlook with
      | vector | noVector => exact chooseVector_runs hc.bitCount
    · intro v s2 hchosen
      cases hchosen with
      | line hex =>
        cases hlook with
        | vector hio hv =>
          obtain ⟨e, he, hprog⟩ := configured_iff.mp hv
          obtain ⟨k, hk, rfl, hne⟩ := hc.programmed e v hprog
          exact .of_eq (addHandler_shared hk hne hex) (.shared hk hex hio hv hne)
      | @free v j hv hj hlt hfree =>
        cases hlook with
        | noVector hline =>
          obtain h32 | ⟨k, rfl⟩ : v < noOfReservedExceptions ∨ ∃ k, v = k + noOfReservedExceptions :=
            (Nat.lt_or_ge _ _).imp_right fun h => ⟨_, (Nat.sub_add_cancel h).symm⟩
          · exact addHandler_reserved h32
          · have hk : k < 224 := by rw [noOfReservedExceptions, noOfTotalInterrupts] at hv; omega
            have hnil : s.registeredInterrupts k = [] :=
              not_ne_iff.mp fun h => Bool.false_ne_true (hfree.symm.trans ((hc.taken k hk).mpr h))
            have hisr : s.isrRoutines k = false :=
              Bool.eq_false_iff.mpr fun h => (hc.installed k hk).mp h hnil
            refine Runs.mono (addHandler_first hk ?_ ?_ ?_) ?_
            · exact hnil
            · exact hisr
            · exact hline
            rintro _ s' ⟨rfl, _, rfl, ⟨hio, rfl⟩ | ⟨hio, e, he, hnone, rfl⟩⟩
            · exact .fresh hk hnil hio
            · exact .routed hk hnil hio hlt (hj ▸ hfree) he hnone
      | full hex hall =>
        cases hlook with
        | noVector hline =>
          have hle := irqlToVector_le interrupt.irql
          obtain h32 | ⟨k, hk⟩ : irqlToVector interrupt.irql < noOfReservedExceptions ∨
              ∃ k, irqlToVector interrupt.irql = k + noOfReservedExceptions :=
            (Nat.lt_or_ge _ _).imp_right fun h => ⟨_, (Nat.sub_add_cancel h).symm⟩
          · exact addHandler_reserved h32
          · have hlt : k < 224 := by
              rw [noOfReservedExceptions] at hk
              rw [noOfTotalInterrupts, vectorsPerIrql] at hle
              omega
            have hne : s.registeredInterrupts k ≠ [] :=
              (hc.taken k hlt).mp (hk ▸ hall 0 (by rw [vectorsPerIrql]; omega))
            rw [hk]
            exact .of_eq (addHandler_shared hlt hne hex) (.crowded hlt hex hline hall hne)
    · intro st s2 hchosen
      cases hchosen
      exact .refused
  · cases hlook
    exact .refused

end Steps

section Runs

variable {io : IoApicSystemData} {interrupt : IoInterrupt} {device : Nat} {s s' : IomuData} {k v : Nat}
  {r : Except Status Nat} {entry : RegisteredInterruptEntry}

variable {j : Nat} {e : Nat × Nat}

lemma insert_self :
    (s.insert (k + noOfReservedExceptions) entry).registeredInterrupts k = s.registeredInterrupts k ++ [entry] := by
  rw [IomuData.insert, Nat.add_sub_cancel]
  exact update_self ..

lemma insert_of_ne (h : j ≠ k) :
    (s.insert (k + noOfReservedExceptions) entry).registeredInterrupts j = s.registeredInterrupts j := by
  rw [IomuData.insert, Nat.add_sub_cancel]
  exact update_of_ne h ..

lemma insert_mem {x : RegisteredInterruptEntry} (h : x ∈ s.registeredInterrupts j) :
    x ∈ (s.insert (k + noOfReservedExceptions) entry).registeredInterrupts j := by
  by_cases hj : j = k
  · subst hj
    rw [insert_self]
    exact List.mem_append_left _ h
  · rwa [insert_of_ne hj]

lemma insert_ne_nil (h : s.registeredInterrupts j ≠ []) :
    (s.insert (k + noOfReservedExceptions) entry).registeredInterrupts j ≠ [] := by
  obtain ⟨x, hx⟩ := List.exists_mem_of_ne_nil _ h
  exact List.ne_nil_of_mem (insert_mem hx)

lemma occupy_taken (hk : k < 224) (v : Nat) :
    (s.occupy k).taken v = if v = k + noOfReservedExceptions then true else s.taken v := by
  refine (bitmapGetBit_changeBits (by rw [noOfReservedExceptions]; omega) v).trans ?_
  refine if_congr ?_ rfl rfl
  omega

lemma Consistent.insert (hc : Consistent s) (hne : s.registeredInterrupts k ≠ []) :
    Consistent (s.insert (k + noOfReservedExceptions) entry) := by
  have hiff : ∀ j, (s.insert (k + noOfReservedExceptions) entry).registeredInterrupts j ≠ [] ↔
      s.registeredInterrupts j ≠ [] := by
    intro j
    refine ⟨fun h => ?_, insert_ne_nil⟩
    by_cases hj : j = k
    · rwa [hj]
    · rwa [insert_of_ne hj] at h
  exact {
    bitCount := hc.bitCount
    taken := fun j hj => (hc.taken j hj).trans (hiff j).symm
    installed := fun j hj => (hc.installed j hj).trans (hiff j).symm
    programmed := fun e v he =>
      (hc.programmed e v he).imp fun j hj => ⟨hj.1, hj.2.1, (hiff j).mpr hj.2.2⟩ }

lemma Consistent.occupy (hc : Consistent s) (hk : k < 224) :
    Consistent ((s.occupy k).insert (k + noOfReservedExceptions) entry) := by
  have hself : ((s.occupy k).insert (k + noOfReservedExceptions) entry).registeredInterrupts k ≠ [] := by
    rw [insert_self]
    simp
  refine ⟨hc.bitCount, fun j hj => ?_, fun j hj => ?_, fun e v he => ?_⟩
  · refine (iff_of_eq (congrArg (· = true) (occupy_taken hk _))).trans ?_
    by_cases hjk : j = k
    · subst hjk
      rw [if_pos rfl]
      exact iff_of_true rfl hself
    · rw [if_neg (by omega), insert_of_ne hjk]
      exact hc.taken j hj
  · by_cases hjk : j = k
    · subst hjk
      exact iff_of_true (update_self ..) hself
    · refine (iff_of_eq (congrArg (· = true) (update_of_ne hjk ..))).trans ?_
      rw [insert_of_ne hjk]
      exact hc.installed j hj
  · exact (hc.programmed e v he).imp fun j hj => ⟨hj.1, hj.2.1, insert_ne_nil (s := s.occupy k) hj.2.2⟩

lemma program_self : (s.program e v).redirectionTable e = some v := update_self ..

lemma program_of_ne {e' : Nat × Nat} (h : e' ≠ e) :
    (s.program e v).redirectionTable e' = s.redirectionTable e' := update_of_ne h ..

lemma Consistent.program (hc : Consistent s) (hk : k < 224)
    (hne : s.registeredInterrupts k ≠ []) : Consistent (s.program e (k + noOfReservedExceptions)) := by
  refine ⟨hc.bitCount, hc.taken, hc.installed, fun e' v h => ?_⟩
  by_cases he : e' = e
  · subst he
    rw [program_self] at h
    cases h
    exact ⟨k, hk, rfl, hne⟩
  · rw [program_of_ne he] at h
    exact hc.programmed e' v h

lemma Registers.consistent (h : Registers io interrupt device s r s') (hc : Consistent s) : Consistent s' := by
  cases h with
  | refused => exact hc
  | shared _ _ _ _ hne | crowded _ _ _ _ hne => exact hc.insert hne
  | fresh hk _ _ => exact hc.occupy hk
  | routed hk _ _ _ _ _ _ =>
    refine (hc.occupy hk).program hk ?_
    rw [insert_self]
    simp

lemma Registers.listed (h : Registers io interrupt device s (.ok v) s') :
    ∃ k < 224, v = k + noOfReservedExceptions ∧
      ⟨interrupt.serviceRoutine, device⟩ ∈ s'.registeredInterrupts k := by
  have hmem : ∀ (t : IomuData) k, ⟨interrupt.serviceRoutine, device⟩ ∈
      (t.insert (k + noOfReservedExceptions) ⟨interrupt.serviceRoutine, device⟩).registeredInterrupts k := by
    intro t k
    rw [insert_self]
    exact List.mem_append_right _ (List.mem_singleton_self _)
  cases h with
  | shared hk | crowded hk | fresh hk | routed hk => exact ⟨_, hk, rfl, hmem _ _⟩

lemma Registers.mem_mono (h : Registers io interrupt device s r s')
    (hx : entry ∈ s.registeredInterrupts j) : entry ∈ s'.registeredInterrupts j := by
  cases h with
  | refused => exact hx
  | shared | crowded => exact insert_mem hx
  | fresh | routed => exact insert_mem (s := s.occupy _) hx

lemma Registers.redirection_mono (h : Registers io interrupt device s r s')
    (he : s.redirectionTable e = some v) : s'.redirectionTable e = some v := by
  cases h with
  | refused => exact he
  | shared => exact he
  | crowded => exact he
  | fresh => exact he
  | @routed k j e' _ _ _ _ _ _ hnone =>
    refine (program_of_ne ?_).trans he
    rintro rfl
    rw [hnone] at he
    cases he

lemma Registers.exclusive_nil (h : Registers io interrupt device s (.ok (k + noOfReservedExceptions)) s')
    (hex : interrupt.exclusive = true) : s.registeredInterrupts k = [] := by
  generalize hv : k + noOfReservedExceptions = v at h
  cases h with
  | shared _ h | crowded _ h => exact absurd (h.symm.trans hex) Bool.false_ne_true
  | fresh _ hnil | routed _ hnil => exact Nat.add_right_cancel hv ▸ hnil

end Runs

/-- The line of the interrupt is programmed with a vector that has the routine in its list. -/
def LineServed (io : IoApicSystemData) (s : IomuData) (interrupt : IoInterrupt) (device : Nat) : Prop :=
  ∃ v, ioApicSystemGetVectorForIrq io s interrupt.interruptLine = .ok v ∧
    ⟨interrupt.serviceRoutine, device⟩ ∈ s.registeredInterrupts (v - noOfReservedExceptions)

/-- If the interrupt comes in over a line that has no vector, a vector of its level is free. -/
def FindsVector (io : IoApicSystemData) (s : IomuData) (interrupt : IoInterrupt) : Prop :=
  interrupt.ioApicInterrupt = true →
    (ioApicSystemGetVectorForIrq io s interrupt.interruptLine).isOk = true ∨
      ∃ j < vectorsPerIrql, s.taken (irqlToVector interrupt.irql + j) = false

instance {io : IoApicSystemData} {s : IomuData} {interrupt : IoInterrupt} :
    Decidable (FindsVector io s interrupt) := inferInstanceAs (Decidable (_ → _ ∨ ∃ j < vectorsPerIrql, _ = _))

structure Registration where
  interrupt : IoInterrupt
  device : Nat
  vector : Nat
deriving DecidableEq, Repr

/-- The state, and the registrations that succeeded so far. -/
structure History where
  iomu : IomuData
  registrations : List Registration

def History.Initial (h : History) : Prop :=
  ∃ mem bitmapBuffer, iomuPreinit mem bitmapBuffer = .ok h.iomu ∧ h.registrations = []

def History.register (io : IoApicSystemData) (h : History) (call : IoInterrupt × Nat) : Exec History := do
  let (r, s) ← iomuRegisterInterrupt io .succeeds call.1 call.2 h.iomu
  match r with
  | .ok v => pure ⟨s, h.registrations ++ [⟨call.1, call.2, v⟩]⟩
  | .error _ => pure ⟨s, h.registrations⟩

def History.ExclusiveFirst (h : History) : Prop :=
  h.registrations.Pairwise fun a b => b.interrupt.exclusive = true → a.vector ≠ b.vector

structure History.Sound (h : History) : Prop where
  consistent : Consistent h.iomu
  listed : ∀ r ∈ h.registrations, ∃ k < 224, r.vector = k + noOfReservedExceptions ∧
    ⟨r.interrupt.serviceRoutine, r.device⟩ ∈ h.iomu.registeredInterrupts k
  exclusive : h.ExclusiveFirst

section Main

variable {io : IoApicSystemData} {h h' : History} {call : IoInterrupt × Nat} {s s' : IomuData}
  {interrupt : IoInterrupt} {device : Nat} {ok : History → IoInterrupt × Nat → Prop}

lemma iomuPreinit_consistent {mem : Mem} {bitmapBuffer : Nat} (h : iomuPreinit mem bitmapBuffer = .ok s) :
    Consistent s := by
  rw [iomuPreinit, bitmapPreinit] at h
  obtain ⟨_, hpre, h⟩ := bind_ok.mp h
  obtain ⟨_, -, hpre⟩ := bind_ok.mp hpre
  cases hpre
  obtain ⟨_, hinit, h⟩ := bind_ok.mp h
  rw [bitmapInitEx] at hinit
  obtain ⟨_, -, hinit⟩ := bind_ok.mp hinit
  cases hinit
  obtain ⟨_, hset, h⟩ := bind_ok.mp h
  rw [bitmapSetBitsValue] at hset
  obtain ⟨_, -, hset⟩ := bind_ok.mp hset
  obtain ⟨_, -, hset⟩ := bind_ok.mp hset
  obtain ⟨_, -, hset⟩ := bind_ok.mp hset
  cases hset
  cases h
  refine ⟨rfl, fun k hk => iff_of_false (fun htaken => ?_) (not_not_intro rfl),
    fun k _ => iff_of_false Bool.false_ne_true (not_not_intro rfl), fun e v he => by cases he⟩
  -- beyond the vectors of the exceptions the bits are those of the cleared buffer
  have hsize : alignAddressUpper noOfTotalInterrupts bitmapEntryBits / bitmapEntryBits % 2 ^ 32 = 32 := by decide
  have hbyte : (k + 32) / 8 < alignAddressUpper noOfTotalInterrupts bitmapEntryBits / bitmapEntryBits % 2 ^ 32 := by
    rw [hsize]
    omega
  rw [IomuData.taken, bitmapGetBit_changeBits (by decide), if_neg (by omega)] at htaken
  rw [noOfReservedExceptions] at htaken
  exact Bool.false_ne_true ((bitmapGetBit_fill hbyte).symm.trans htaken)

lemma History.Initial.sound (hi : h.Initial) : h.Sound := by
  obtain ⟨mem, buffer, hs, hnil⟩ := hi
  refine ⟨iomuPreinit_consistent hs, fun r hr => ?_, ?_⟩
  · rw [hnil] at hr
    cases hr
  · rw [ExclusiveFirst, hnil]
    exact .nil

lemma History.register_inv (hc : Consistent h.iomu) (hr : h.register io call = .ok h') :
    (∃ st, Registers io call.1 call.2 h.iomu (.error st) h'.iomu ∧ h'.registrations = h.registrations) ∨
      ∃ v, Registers io call.1 call.2 h.iomu (.ok v) h'.iomu ∧
        h'.registrations = h.registrations ++ [⟨call.1, call.2, v⟩] := by
  rw [register] at hr
  obtain ⟨⟨st | v, s⟩, hrun, hr⟩ := bind_ok.mp hr
  · cases hr
    exact .inl ⟨st, (iomuRegisterInterrupt_runs hc).apply hrun, rfl⟩
  · cases hr
    exact .inr ⟨v, (iomuRegisterInterrupt_runs hc).apply hrun, rfl⟩

lemma History.Sound.register (hs : h.Sound) (hr : h.register io call = .ok h') : h'.Sound := by
  obtain ⟨st, hreg, hlog⟩ | ⟨v, hreg, hlog⟩ := History.register_inv hs.consistent hr
  · refine ⟨hreg.consistent hs.consistent, fun r hr => ?_, ?_⟩
    · obtain ⟨k, hk, hv, hmem⟩ := hs.listed r (hlog ▸ hr)
      exact ⟨k, hk, hv, hreg.mem_mono hmem⟩
    · rw [ExclusiveFirst, hlog]
      exact hs.exclusive
  · refine ⟨hreg.consistent hs.consistent, fun r hr => ?_, ?_⟩
    · rw [hlog, List.mem_append, List.mem_singleton] at hr
      obtain hr | rfl := hr
      · obtain ⟨k, hk, hv, hmem⟩ := hs.listed r hr
        exact ⟨k, hk, hv, hreg.mem_mono hmem⟩
      · exact hreg.listed
    · rw [ExclusiveFirst, hlog, List.pairwise_append]
      refine ⟨hs.exclusive, List.pairwise_singleton _ _, fun a ha b hb hex heq => ?_⟩
      obtain rfl := List.mem_singleton.mp hb
      obtain ⟨k, -, hv, hmem⟩ := hs.listed a ha
      obtain rfl : v = k + noOfReservedExceptions := heq.symm.trans hv
      rw [hreg.exclusive_nil hex] at hmem
      cases hmem

lemma Registers.served_iff {v : Nat} (h : Registers io interrupt device s (.ok v) s')
    (hio : interrupt.ioApicInterrupt = true) :
    LineServed io s' interrupt device ↔ FindsVector io s interrupt := by
  obtain ⟨j, -, hj, hmem⟩ := h.listed
  have hserved : ioApicSystemGetVectorForIrq io s' interrupt.interruptLine = .ok v →
      LineServed io s' interrupt device := by
    intro hget
    refine ⟨v, hget, ?_⟩
    rwa [hj, Nat.add_sub_cancel]
  cases h with
  | shared _ _ _ hget => exact iff_of_true (hserved hget) fun _ => .inl (by rw [hget]; rfl)
  | crowded _ _ hline hall =>
    refine iff_of_false ?_ fun hfind => ?_
    · rintro ⟨w, hget, -⟩
      cases (hline hio).symm.trans hget
    · obtain hok | ⟨i, hi, hfree⟩ := hfind hio
      · rw [hline hio] at hok
        cases hok
      · exact Bool.false_ne_true (hfree.symm.trans (hall i hi))
  | fresh _ _ hno => exact absurd (hno.symm.trans hio) Bool.false_ne_true
  | routed _ _ _ hi hfree he _ =>
    exact iff_of_true (hserved (configured_iff.mpr ⟨_, he, program_self⟩)) fun _ => .inr ⟨_, hi, hfree⟩

lemma Registers.served_mono {r : Except Status Nat} {interrupt' : IoInterrupt} {device' : Nat}
    (h : Registers io interrupt device s r s') (hserved : LineServed io s interrupt' device') :
    LineServed io s' interrupt' device' := by
  obtain ⟨v, hget, hmem⟩ := hserved
  obtain ⟨e, he, hprog⟩ := configured_iff.mp hget
  exact ⟨v, configured_iff.mpr ⟨e, he, h.redirection_mono hprog⟩, h.mem_mono hmem⟩

lemma reach_sound (hr : Reach History.Initial (fun h call h' => h.register io call = .ok h') ok h) : h.Sound :=
  hr.invariant (fun _ hi => hi.sound) fun _ _ _ hs _ hreg => hs.register hreg

/-- In every run of registrations none is exclusive on a vector that has routines already, one that fails
    leaves the lists as they are, and one that succeeds over a line is served just if its line had a vector
    or one of its level was free. Where this is so for every call of a run, all lines are served. -/
theorem registrations_served (io : IoApicSystemData) :
    (∀ h, Reach History.Initial (fun h call h' => h.register io call = .ok h') (fun _ _ => True) h →
      h.ExclusiveFirst ∧
      (∀ interrupt device st s', iomuRegisterInterrupt io .succeeds interrupt device h.iomu = .ok (.error st, s') →
        s'.registeredInterrupts = h.iomu.registeredInterrupts) ∧
      (∀ interrupt device v s', iomuRegisterInterrupt io .succeeds interrupt device h.iomu = .ok (.ok v, s') →
        interrupt.ioApicInterrupt = true →
        (LineServed io s' interrupt device ↔ FindsVector io h.iomu interrupt))) ∧
    (∀ h, Reach History.Initial (fun h call h' => h.register io call = .ok h')
        (fun h call => FindsVector io h.iomu call.1) h →
      ∀ r ∈ h.registrations, r.interrupt.ioApicInterrupt = true → LineServed io h.iomu r.interrupt r.device) := by
  refine ⟨fun h hr => ⟨(reach_sound hr).exclusive, ?_, ?_⟩, fun h hr => ?_⟩
  · intro interrupt device st s' hrun
    cases (iomuRegisterInterrupt_runs (reach_sound hr).consistent).apply hrun
    rfl
  · intro interrupt device v s' hrun hio
    exact ((iomuRegisterInterrupt_runs (reach_sound hr).consistent).apply hrun).served_iff hio
  · induction hr with
    | start hi =>
      obtain ⟨_, _, -, hnil⟩ := hi
      intro r hr
      rw [hnil] at hr
      cases hr
    | step hreach hok hreg ih =>
      intro r hr hio
      obtain ⟨st, hregs, hlog⟩ | ⟨v, hregs, hlog⟩ := History.register_inv (reach_sound hreach).consistent hreg
      · exact hregs.served_mono (ih r (hlog ▸ hr) hio)
      · rw [hlog, List.mem_append, List.mem_singleton] at hr
        obtain hr | rfl := hr
        · exact hregs.served_mono (ih r hr hio)
        · exact (hregs.served_iff hio).mpr hok

def sampleApics : IoApicSystemData := ⟨[⟨0, 23⟩], []⟩

def legacyLine (irq : Nat) : IoInterrupt × Nat := (⟨.legacy irq, 4, false, irq⟩, 1)

def runCalls (ok : History → IoInterrupt × Nat → Prop) [∀ h call, Decidable (ok h call)]
    (calls : List (IoInterrupt × Nat)) : Exec History := do
  let s ← iomuPreinit (fun _ => 0) 1
  calls.foldlM (fun h call => do ensure (ok h call); h.register sampleApics call) ⟨s, []⟩

lemma exists_runCalls [∀ h call, Decidable (ok h call)] {P : History → Prop} [DecidablePred P]
    (calls : List (IoInterrupt × Nat)) (h : returns (runCalls ok calls) (fun h => decide (P h)) = true) :
    ∃ h, Reach History.Initial (fun h call h' => h.register sampleApics call = .ok h') ok h ∧ P h := by
  obtain ⟨h, hrun, hP⟩ := exists_ok h
  obtain ⟨s, hs, hrun⟩ := bind_ok.mp hrun
  exact ⟨h, .foldlM ⟨_, _, hs, rfl⟩ hrun, hP⟩

/-- After seventeen lines of one level the last one is registered, and not programmed. -/
theorem seventeenth_line_unprogrammed :
    ∃ h, Reach History.Initial (fun h call h' => h.register sampleApics call = .ok h') (fun _ _ => True) h ∧
      ∃ r ∈ h.registrations, r.interrupt.ioApicInterrupt = true ∧
        ¬ LineServed sampleApics h.iomu r.interrupt r.device := by
  obtain ⟨h, hr, hmem, hno⟩ : ∃ h, Reach History.Initial (fun h call h' => h.register sampleApics call = .ok h')
      (fun _ _ => True) h ∧ ⟨(legacyLine 16).1, 1, 0x40⟩ ∈ h.registrations ∧
        (ioApicSystemGetVectorForIrq sampleApics h.iomu 16).isOk = false :=
    exists_runCalls ((List.range 17).map legacyLine) (by decide +kernel)
  refine ⟨h, hr, _, hmem, rfl, ?_⟩
  rintro ⟨v, hget, -⟩
  rw [show ioApicSystemGetVectorForIrq sampleApics h.iomu 16 = .ok v from hget] at hno
  cases hno

/-- Two routines that share a line are served, and one more that comes without a line is registered. -/
theorem shared_line_served : ∃ h, Reach History.Initial (fun h call h' => h.register sampleApics call = .ok h')
        (fun h call => FindsVector sampleApics h.iomu call.1) h ∧
      h.registrations.length = 3 ∧
      ∀ r ∈ h.registrations, r.interrupt.ioApicInterrupt = true →
        LineServed sampleApics h.iomu r.interrupt r.device := by
  obtain ⟨h, hr, hlen⟩ : ∃ h, Reach History.Initial (fun h call h' => h.register sampleApics call = .ok h')
      (fun h call => FindsVector sampleApics h.iomu call.1) h ∧ h.registrations.length = 3 := exists_runCalls
    [legacyLine 1, (⟨.pci ⟨false, 1⟩, 4, false, 7⟩, 2), (⟨.lapic, 5, true, 8⟩, 3)] (by decide)
  exact ⟨h, hr, hlen, (registrations_served sampleApics).2 h hr⟩

end Main

end HAL9000.Iomu
