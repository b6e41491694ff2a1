import Mathlib.Data.Fintype.Card
import HAL9000.Lib.Inherit
import HAL9000.Thread.Ownership

/-!
# Threads: how far a donation goes

`ThreadDonatePriority` and `ThreadUpdatePriority` call each other along the chain of holders, which may
come back to where it started. Every call raises one thread to the priority of the donor, and goes on
only to a thread that is still below it, so there are at most as many calls as there are such threads.

A list of donations is a sequence of threads when its links form a ring; here all of them are empty
when `ThreadDonatePriority` is called and again when it returns.
-/

namespace HAL9000.Thread
open Lib LinkMem Function

variable {T X E : Type}

def System.holderFor (s : System T X E) (t : T) : Option T := (s.lockWaitedOn t).bind s.holder

def System.Held (s : System T X E) : Prop := ∀ t x, s.lockWaitedOn t = some x → s.holder x ≠ none

variable [DecidableEq T] [DecidableEq X] [DecidableEq E]

def System.NoDonations (s : System T X E) : Prop := ∀ t, Ring (LinkMem.links s.links) (.head (.donations t)) []

variable {s : System T X E} {d r t u : T} {fuel : Nat}

lemma noDonations_receive (h : s.NoDonations) : (s.receive d r).NoDonations := by
  intro t
  refine ring_frame (h t) ?_
  intro x hx
  rw [List.mem_singleton.mp hx]
  exact receive_same (h r) _ (by simp)

lemma donate_none (h : s.NoDonations) (hheld : s.Held) (hn : s.holderFor r = none) :
    threadDonatePriority (fuel + 1) s d r = .ok (s.receive d r) := by
  rw [threadDonatePriority_eq (h r)]
  cases hw : s.lockWaitedOn r with
  | none => rfl
  | some y =>
    rw [System.holderFor, hw] at hn
    exact absurd hn (hheld r y hw)

lemma donate_some (h : s.NoDonations) (hn : s.holderFor r = some u) : threadDonatePriority (fuel + 1) s d r =
      if (s.receive d r).priority u < s.priority d then threadDonatePriority fuel (s.receive d r) r u
      else .ok (s.receive d r) := by
  rw [threadDonatePriority_eq (h r)]
  obtain ⟨y, hy, hu⟩ := Option.bind_eq_some_iff.mp hn
  simp only [hy, hu]
  rfl

structure Donated (s s' : System T X E) (d r : T) : Prop where
  raised : ∀ t, OnChain s.holderFor s.priority (s.priority d) r t → s'.priority t = s.priority d
  kept : ∀ t, ¬ OnChain s.holderFor s.priority (s.priority d) r t → s'.priority t = s.priority t
  noDonations : s'.NoDonations

lemma Donated.last (h : s.NoDonations) (hchain : ∀ t, OnChain s.holderFor s.priority (s.priority d) r t ↔ t = r) :
    Donated s (s.receive d r) d r where
  raised := by
    intro t ht
    rw [(hchain t).mp ht]
    exact update_self ..
  kept := by
    intro t ht
    exact update_of_ne (fun e => ht ((hchain t).mpr e)) ..
  noDonations := noDonations_receive h

lemma Donated.cons {s' : System T X E} (hlt : s.priority r < s.priority d)
    (hn : s.holderFor r = some u) (h : Donated (s.receive d r) s' r u) : Donated s s' d r := by
  have hm : (s.receive d r).priority r = s.priority d := update_self ..
  have hchain : ∀ t, OnChain s.holderFor s.priority (s.priority d) r t ↔
      t = r ∨ OnChain (s.receive d r).holderFor (s.receive d r).priority
        ((s.receive d r).priority r) u t := by
    intro t
    rw [hm]
    exact onChain_iff_of_next hlt hn
  refine ⟨?_, ?_, h.noDonations⟩
  · intro t ht
    by_cases hu : OnChain (s.receive d r).holderFor (s.receive d r).priority
        ((s.receive d r).priority r) u t
    · rw [h.raised t hu, hm]
    · rw [h.kept t hu, ((hchain t).mp ht).resolve_right hu, hm]
  · intro t ht
    obtain ⟨hne, hu⟩ := not_or.mp (mt (hchain t).mpr ht)
    rw [h.kept t hu]
    exact update_of_ne hne ..

lemma donated_of_fuel [Fintype T] (hempty : s.NoDonations) (hheld : s.Held) (hlt : s.priority r < s.priority d) :
    ∃ s', Donated s s' d r ∧ ∀ fuel,
      (Finset.univ.filter (s.priority · < s.priority d)).card ≤ fuel →
        threadDonatePriority fuel s d r = .ok s' := by
  -- induction on the number of threads below the donor, which the receiver leaves
  generalize hk : (Finset.univ.filter (s.priority · < s.priority d)).card = k
  induction k using Nat.strong_induction_on generalizing s d r with
  | _ k ih =>
  subst hk
  have hpos : 0 < (Finset.univ.filter (s.priority · < s.priority d)).card :=
    Finset.card_pos.mpr ⟨r, by simpa using hlt⟩
  cases hn : s.holderFor r with
  | none =>
    refine ⟨_, .last hempty fun t => onChain_iff_of_none hlt hn, ?_⟩
    intro fuel hfuel
    obtain ⟨fuel, rfl⟩ := Nat.exists_eq_succ_of_ne_zero (hpos.trans_le hfuel).ne'
    exact donate_none hempty hheld hn
  | some u =>
    by_cases hu : (s.receive d r).priority u < s.priority d
    · have hm : (s.receive d r).priority r = s.priority d := update_self ..
      have hless := card_below_lt hlt
      obtain ⟨s', hs', hrun⟩ := ih _ hless (s := s.receive d r) (d := r) (r := u)
        (noDonations_receive hempty) hheld (by rwa [hm]) (by rw [hm]; rfl)
      refine ⟨s', .cons hlt hn hs', ?_⟩
      intro fuel hfuel
      obtain ⟨fuel, rfl⟩ := Nat.exists_eq_succ_of_ne_zero (hpos.trans_le hfuel).ne'
      rw [donate_some hempty hn, if_pos hu]
      exact hrun fuel (Nat.le_of_lt_succ (hless.trans_le hfuel))
    · refine ⟨_, .last hempty fun t => onChain_iff_of_le hlt hn (Nat.not_lt.mp hu), ?_⟩
      intro fuel hfuel
      obtain ⟨fuel, rfl⟩ := Nat.exists_eq_succ_of_ne_zero (hpos.trans_le hfuel).ne'
      rw [donate_some hempty hn, if_neg hu]

/-- A donation to a thread below the donor ends, whatever the chain of holders looks like. It raises
    the threads on the chain up to the first that is not below the donor, and no others, and leaves no
    donation behind. -/
theorem donation_raises_chain [Fintype T] (s : System T X E) (d r : T) (hempty : s.NoDonations)
    (hheld : s.Held) (hlt : s.priority r < s.priority d) :
    ∃ s', (∀ fuel, Fintype.card T ≤ fuel → threadDonatePriority fuel s d r = .ok s') ∧
      (∀ t, OnChain s.holderFor s.priority (s.priority d) r t → s'.priority t = s.priority d) ∧
      (∀ t, ¬ OnChain s.holderFor s.priority (s.priority d) r t → s'.priority t = s.priority t) ∧
      (∀ t, s.priority t ≤ s'.priority t) ∧ s'.NoDonations := by
  obtain ⟨s', hs', hrun⟩ := donated_of_fuel hempty hheld hlt
  refine ⟨s', fun fuel hfuel => hrun fuel ((Finset.card_le_univ _).trans hfuel), hs'.raised, hs'.kept,
    ?_, hs'.noDonations⟩
  intro t
  by_cases ht : OnChain s.holderFor s.priority (s.priority d) r t
  · rw [hs'.raised t ht]
    exact ht.lt.le
  · rw [hs'.kept t ht]

def deadlocked (t u : T) (priority : T → Nat) : System T Bool Empty where
  links := ⟨id, id⟩
  priority := priority
  initialPriority := priority
  lockWaitedOn v := if v = t then some true else if v = u then some false else none
  state _ := .blocked
  acquiring _ := none
  holder x := if x then some u else some t
  currentRecursivityDepth _ := 1
  maxRecursivityDepth _ := 1

/-- A donation into a cycle raises its threads and stops. -/
theorem donation_raises_cycle : ∃ s', (∀ fuel, 3 ≤ fuel → threadDonatePriority fuel
        (deadlocked (0 : Fin 3) 1 (fun t => t.val)) 2 0 = .ok s') ∧
      (∀ t, s'.priority t = 2) := by
  obtain ⟨s', hrun, hraised, hkept, -⟩ := donation_raises_chain
    (deadlocked (0 : Fin 3) 1 (fun t => t.val)) 2 0
    (fun _ => ring_nil_iff.mpr ⟨rfl, rfl⟩) (fun t x _ => by cases x <;> simp [deadlocked])
    (by decide)
  have h0 : OnChain (deadlocked (0 : Fin 3) 1 (fun t => t.val)).holderFor
      (deadlocked (0 : Fin 3) 1 (fun t => t.val)).priority 2 0 0 := .start (by decide)
  have h1 := h0.pass (u := 1) rfl (by decide)
  have h2 : s'.priority 2 = 2 := by
    by_cases h : OnChain (deadlocked (0 : Fin 3) 1 (fun t => t.val)).holderFor
        (deadlocked (0 : Fin 3) 1 (fun t => t.val)).priority 2 0 2
    · exact hraised 2 h
    · exact hkept 2 h
  refine ⟨s', hrun, fun t => ?_⟩
  match t with
  | 0 => exact hraised 0 h0
  | 1 => exact hraised 1 h1
  | 2 => exact h2

end HAL9000.Thread
