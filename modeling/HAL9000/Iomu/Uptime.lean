import HAL9000.CommonLib.Base
import HAL9000.Lib.Reach

/-!
# The system time

Port of the clock of `HAL9000/src/iomu.c`. The uptime is one 64-bit word with the seconds in its low and
the microseconds in its high half. Every CPU takes the timer interrupt, which adds to the microseconds;
one CPU takes the RTC interrupt, which loads the seconds and later stores the next second over the whole
word. Readers load the word at once.
-/

namespace HAL9000.Iomu
open Lib

def secInUs : Nat := 1000 * 1000

/-- The low half of the word (C `UPTIME`). -/
def uptimeSeconds (raw : Nat) : Nat := raw % 2 ^ 32

/-- The high half of the word (C `UPTIME`). -/
def uptimeMicroseconds (raw : Nat) : Nat := raw / 2 ^ 32 % 2 ^ 32

/-- The time a reader computes from the word it has loaded (C `IomuGetSystemTimeUs`). -/
def iomuGetSystemTimeUs (raw : Nat) : Nat := uptimeSeconds raw * secInUs +
    if secInUs ≤ uptimeMicroseconds raw then secInUs else uptimeMicroseconds raw

/-- Add to the high half (C `_IomuUpdateSystemTime`). -/
def iomuUpdateSystemTime (raw timeUpdatePerCpuUs : Nat) : Nat :=
  uptimeSeconds raw + 2 ^ 32 * wadd 32 (uptimeMicroseconds raw) timeUpdatePerCpuUs

/-- The word, the second an RTC update has computed and not yet stored, and the times returned so far,
    the latest first. -/
structure Clock where
  raw : Nat
  newSecCount : Option Nat
  returned : List Nat

/-- What happens to the clock. An RTC update (C `IomuCmosUpdateOccurred`) is a load and an exchange. -/
inductive ClockEvent where
  | tick (timeUpdatePerCpuUs : Nat)
  | load
  | exchange
  | read

def Clock.step (s : Clock) : ClockEvent → Exec Clock
  | .tick timeUpdatePerCpuUs => pure { s with raw := iomuUpdateSystemTime s.raw timeUpdatePerCpuUs }
  | .load =>
    match s.newSecCount with
    | some _ => throw .disabled
    | none => do
      let newSecCount := uptimeSeconds s.raw + 1
      ensure (newSecCount ≤ maxDword)
      pure { s with newSecCount := some newSecCount }
  | .exchange =>
    match s.newSecCount with
    | none => throw .disabled
    | some newSecCount => pure { s with raw := newSecCount, newSecCount := none }
  | .read => pure { s with returned := iomuGetSystemTimeUs s.raw :: s.returned }

/-- The microseconds since the last RTC update stay below `2 ^ 32`. -/
def Clock.Counts (s : Clock) : ClockEvent → Prop
  | .tick timeUpdatePerCpuUs => uptimeMicroseconds s.raw + timeUpdatePerCpuUs < 2 ^ 32
  | _ => True

/-- The clock as `IomuPreinitSystem` leaves it. -/
def Clock.Initial (s : Clock) : Prop := s = ⟨0, none, []⟩

/-- No time returned so far is ahead of the word, and an update in progress stores the next second. -/
structure Clock.Ordered (s : Clock) : Prop where
  past : ∀ t ∈ s.returned, t ≤ iomuGetSystemTimeUs s.raw
  next : ∀ n ∈ s.newSecCount, n = uptimeSeconds s.raw + 1 ∧ n < 2 ^ 32
  sorted : s.returned.Pairwise (· ≥ ·)

variable {s s' : Clock} {e : ClockEvent} {raw us : Nat}

lemma uptimeSeconds_update : uptimeSeconds (iomuUpdateSystemTime raw us) = uptimeSeconds raw := by
  unfold iomuUpdateSystemTime uptimeSeconds
  omega

lemma iomuGetSystemTimeUs_update (h : uptimeMicroseconds raw + us < 2 ^ 32) :
    iomuGetSystemTimeUs raw ≤ iomuGetSystemTimeUs (iomuUpdateSystemTime raw us) := by
  have hus : uptimeMicroseconds (iomuUpdateSystemTime raw us) = uptimeMicroseconds raw + us := by
    have := Nat.mod_lt raw (show 0 < 2 ^ 32 by decide)
    simp only [iomuUpdateSystemTime, uptimeSeconds, wadd, Nat.mod_eq_of_lt h]
    simp only [uptimeMicroseconds] at h ⊢
    omega
  unfold iomuGetSystemTimeUs
  rw [uptimeSeconds_update, hus]
  split <;> split <;> omega

lemma iomuGetSystemTimeUs_next (h : uptimeSeconds raw + 1 < 2 ^ 32) :
    iomuGetSystemTimeUs raw ≤ iomuGetSystemTimeUs (uptimeSeconds raw + 1) := by
  have hs : uptimeSeconds (uptimeSeconds raw + 1) = uptimeSeconds raw + 1 := Nat.mod_eq_of_lt h
  unfold iomuGetSystemTimeUs
  rw [hs, Nat.add_mul, Nat.one_mul]
  split <;> omega

lemma Clock.Ordered.step (h : s.Ordered) (hc : s.Counts e) (hst : s.step e = .ok s') : s'.Ordered := by
  cases e with
  | tick us =>
    cases hst
    refine ⟨fun t ht => (h.past t ht).trans (iomuGetSystemTimeUs_update hc), ?_, h.sorted⟩
    simp only [uptimeSeconds_update]
    exact h.next
  | load =>
    obtain ⟨raw, n, returned⟩ := s
    cases n with
    | some n => cases hst
    | none =>
      obtain ⟨_, hle, hst⟩ := bind_ok.mp hst
      cases hst
      refine ⟨h.past, ?_, h.sorted⟩
      rintro _ ⟨⟩
      exact ⟨rfl, Nat.lt_succ_of_le (ensure_ok.mp hle)⟩
  | exchange =>
    obtain ⟨raw, n, returned⟩ := s
    cases n with
    | none => cases hst
    | some n =>
      cases hst
      have hn : n = uptimeSeconds raw + 1 := (h.next n rfl).1
      have hlt := (h.next n rfl).2
      subst hn
      exact ⟨fun t ht => (h.past t ht).trans (iomuGetSystemTimeUs_next hlt), by simp, h.sorted⟩
  | read =>
    cases hst
    refine ⟨?_, h.next, List.pairwise_cons.mpr ⟨h.past, h.sorted⟩⟩
    intro t ht
    rcases List.mem_cons.mp ht with rfl | ht
    · exact le_refl _
    · exact h.past t ht

/-- However ticks, RTC updates and readers interleave, the times returned never decrease. -/
theorem iomuGetSystemTimeUs_monotone {s : Clock}
    (hr : Reach Clock.Initial (fun s e s' => s.step e = .ok s') Clock.Counts s) :
    s.returned.Pairwise (· ≥ ·) := by
  refine (hr.invariant (I := Clock.Ordered) ?_ fun s e s' h hc hst => h.step hc hst).sorted
  rintro s rfl
  exact ⟨by simp, by simp, .nil⟩

instance (s : Clock) (e : ClockEvent) : Decidable (s.Counts e) := by
  cases e <;> unfold Clock.Counts <;> infer_instance

/-- The RTC is late, and a tick comes between the halves of its update. -/
theorem iomuGetSystemTimeUs_late_update : ∃ s : Clock,
    s.returned = [1000005, 1000000, 1000000, 999999] ∧ s.returned.Pairwise (· ≥ ·) := by
  obtain ⟨s, hr, hs⟩ : ∃ s, Reach Clock.Initial (fun s e s' => s.step e = .ok s') Clock.Counts s ∧
      s.returned = [1000005, 1000000, 1000000, 999999] :=
    exists_reach (f := Clock.step) rfl [.tick 999999, .read, .tick 40000, .read, .load, .tick 40000,
      .exchange, .read, .tick 5, .read] (by decide)
  exact ⟨s, hs, iomuGetSystemTimeUs_monotone hr⟩

end HAL9000.Iomu
