import HAL9000.Thread.Model

/-!
# Threads: the lists

`Linked l ok lists` says which threads are in which list: no thread is in two lists, and the links of
every list in `ok` form a ring. Of the other lists, whose rings are broken, only the last entry is
known, which is what an insertion at the end needs.
-/

namespace HAL9000.Thread
open Lib LinkMem Function List

variable {T X E : Type}

def entries (ts : List T) : List (Link T X E) := ts.map .thread

lemma mem_entries {ts : List T} {x : Link T X E} :
    x ∈ (entries ts : List (Link T X E)) ↔ ∃ t ∈ ts, .thread t = x := mem_map

lemma getLastD_entries (h : Head T X E) (ts : List T) : (entries ts).getLastD (.head h) = .head h ∨
      ∃ t ∈ ts, (entries ts).getLastD (.head h) = .thread t := by
  rcases List.mem_cons.mp (getLastD_mem (.head h) (entries ts)) with e | e
  · exact .inl e
  · obtain ⟨t, ht, e⟩ := mem_entries.mp e
    exact .inr ⟨t, ht, e.symm⟩

variable [DecidableEq T] [DecidableEq X] [DecidableEq E]

structure Linked (l : Links (Link T X E)) (ok : Head T X E → Prop) (lists : Head T X E → List T) :
    Prop where
  ring : ∀ {h}, ok h → Ring (links l) (.head h) (entries (lists h))
  last : ∀ h, blink l (.head h) = (entries (lists h)).getLastD (.head h)
  single : ∀ {t h h'}, t ∈ lists h → t ∈ lists h' → h = h'

variable {l l' : Links (Link T X E)} {ok : Head T X E → Prop} {lists : Head T X E → List T}
  {h : Head T X E} {t d r : T} {ts : List T} {x : Link T X E}

section

variable (hl : Linked l ok lists)
include hl

lemma Linked.ne_last {h' : Head T X E} (hne : h' ≠ h)
    (hx : x ∈ .head h' :: entries (lists h')) : x ≠ (entries (lists h)).getLastD (.head h) := by
  rintro rfl
  rcases getLastD_entries h (lists h) with e | ⟨t, ht, e⟩
  · rw [e] at hx
    rcases List.mem_cons.mp hx with e' | e'
    · cases e'
      exact hne rfl
    · obtain ⟨_, _, e'⟩ := mem_entries.mp e'
      cases e'
  · rw [e] at hx
    rcases List.mem_cons.mp hx with e' | e'
    · cases e'
    · obtain ⟨_, ht', e'⟩ := mem_entries.mp e'
      cases e'
      exact hne (hl.single ht' ht)

lemma Linked.off (hs : ∀ x, x ≠ .thread d → SameLinks l l' x) :
    Linked l' (fun h => ok h ∧ d ∉ lists h) lists where
  ring := by
    rintro h ⟨hok, hd⟩
    refine (hl.ring hok).congr fun x hx => hs x ?_
    rintro rfl
    rcases List.mem_cons.mp hx with e | e
    · cases e
    · obtain ⟨t, ht, e⟩ := mem_entries.mp e
      cases e
      exact hd ht
  last := fun h => (hs (.head h) (by simp)).2.trans (hl.last h)
  single := hl.single

lemma Linked.same (hs : ∀ x, SameLinks l l' x) : Linked l' ok lists where
  ring := fun hok => (hl.ring hok).congr fun x _ => hs x
  last := fun h => (hs (.head h)).2.trans (hl.last h)
  single := hl.single

lemma Linked.mono {ok' : Head T X E → Prop} (hle : ∀ h, ok' h → ok h) : Linked l ok' lists :=
  ⟨fun hok => hl.ring (hle _ hok), hl.last, hl.single⟩

lemma Linked.insertTail (ht : ∀ h', t ∉ lists h') (h : Head T X E) :
    Linked (insertTailList l (.head h) (.thread t)) ok
      (update lists h (lists h ++ [t])) := by
  have hlast : ∀ h', (entries (lists h')).getLastD (.head h') ≠ .thread t := by
    intro h' e
    rcases getLastD_entries h' (lists h') with e' | ⟨u, hu, e'⟩
    · rw [e'] at e
      cases e
    · rw [e'] at e
      cases e
      exact ht h' hu
  have hin := insertTailList_linkedIn (m := l) (q := .head h) (e := .thread t) separate_links trivial
    trivial trivial (by simp) (by rw [hl.last h]; exact hlast h)
  rw [hl.last h] at hin
  have hnew : ∀ h', (.thread t : Link T X E) ∉ .head h' :: entries (lists h') := by
    intro h' hm
    rcases List.mem_cons.mp hm with e | e
    · cases e
    · obtain ⟨u, hu, e⟩ := mem_entries.mp e
      cases e
      exact ht h' hu
  refine ⟨?_, ?_, ?_⟩
  · intro h' hok
    by_cases e : h' = h
    · subst e
      have := LinkedIn.ring (y := entries (lists h')) (z := []) hin (by simpa using hl.ring hok)
        (fun _ _ => trivial) (by simpa using hnew h')
      simpa [entries] using this
    · rw [update_of_ne e]
      refine (hl.ring hok).congr fun x hx => ⟨?_, ?_⟩
      · refine hin.flink x trivial (hl.ne_last e hx) fun e' => hnew h' (e' ▸ hx)
      · refine hin.blink x trivial ?_ fun e' => hnew h' (e' ▸ hx)
        rintro rfl
        rcases List.mem_cons.mp hx with e' | e'
        · cases e'
          exact e rfl
        · obtain ⟨_, _, e'⟩ := mem_entries.mp e'
          cases e'
  · intro h'
    by_cases e : h' = h
    · subst e
      rw [update_self]
      refine hin.right.2.trans ?_
      simp [entries]
    · rw [update_of_ne e]
      refine (hin.blink _ trivial ?_ (by simp)).trans (hl.last h')
      intro e'
      cases e'
      exact e rfl
  · -- only the new thread has changed its lists, and it was in none
    have hmem : ∀ {u h'}, u ∈ update lists h (lists h ++ [t]) h' →
        u ∈ lists h' ∨ (u = t ∧ h' = h) := by
      intro u h' hu
      by_cases e : h' = h
      · subst e
        simpa using hu
      · rw [update_of_ne e] at hu
        exact .inl hu
    intro u h1 h2 hu1 hu2
    rcases hmem hu1 with hu1 | ⟨e1, h1⟩ <;> rcases hmem hu2 with hu2 | ⟨e2, h2⟩
    · exact hl.single hu1 hu2
    · exact absurd (e2 ▸ hu1) (ht _)
    · exact absurd (e1 ▸ hu2) (ht _)
    · exact h1.trans h2.symm

lemma Linked.removeHead (hok : ok h) (hs : lists h = t :: ts) : (removeHeadList l (.head h)).2 = .thread t ∧
      Linked (removeHeadList l (.head h)).1 ok (update lists h ts) := by
  have hr := hl.ring hok
  rw [hs] at hr
  obtain ⟨h2, hun⟩ := removeHeadList_ring (m := l) (h := .head h) (e := .thread t)
    (z := entries ts) separate_links hr (fun _ _ => trivial)
  refine ⟨h2, ?_, ?_, ?_⟩
  · intro h' hok'
    by_cases e : h' = h
    · subst e
      rw [update_self]
      exact Unlinked.ring (y := []) (z := entries ts) hun hr (fun _ _ => trivial)
    · rw [update_of_ne e]
      refine (hl.ring hok').congr fun x hx => ?_
      refine Unlinked.same (y := []) (z := entries ts) hun trivial fun hx' => ?_
      rcases List.mem_cons.mp hx with e1 | e1 <;> rcases List.mem_cons.mp hx' with e2 | e2
      · rw [e1] at e2
        cases e2
        exact e rfl
      · obtain ⟨_, _, e2⟩ := mem_entries.mp e2
        cases e2.trans e1
      · obtain ⟨_, _, e1⟩ := mem_entries.mp e1
        cases e1.trans e2
      · obtain ⟨u, hu, e1⟩ := mem_entries.mp e1
        obtain ⟨v, hv, e2⟩ := mem_entries.mp e2
        cases e1.trans e2.symm
        exact e (hl.single hu (by rw [hs]; exact mem_cons_of_mem _ hv))
  · intro h'
    by_cases e : h' = h
    · subst e
      rw [update_self]
      have hr' := Unlinked.ring (y := []) (z := entries ts) hun hr (fun _ _ => trivial)
      exact (Ring.joined (l := links _) (y := entries ts) (z := []) (by simpa using hr')).2
    · rw [update_of_ne e]
      refine (hun.blink _ trivial ?_).trans (hl.last h')
      intro e'
      have := headD_mem (Link.head h) (entries ts)
      rw [← e', mem_append] at this
      rcases this with e1 | e1
      · obtain ⟨_, _, e1⟩ := mem_entries.mp e1
        cases e1
      · rw [mem_singleton] at e1
        cases e1
        exact e rfl
  · have hmem : ∀ {u h'}, u ∈ update lists h ts h' → u ∈ lists h' := by
      intro u h' hu
      by_cases e : h' = h
      · subst e
        rw [update_self] at hu
        rw [hs]
        exact mem_cons_of_mem _ hu
      · rwa [update_of_ne e] at hu
    intro u h1 h2 hu1 hu2
    exact hl.single (hmem hu1) (hmem hu2)

lemma Linked.head_not_mem (hok : ok h) (hs : lists h = t :: ts)
    (h' : Head T X E) : t ∉ update lists h ts h' := by
  intro hm
  by_cases e : h' = h
  · subst e
    rw [update_self] at hm
    have hnd := (hl.ring hok).nodup
    rw [hs] at hnd
    exact (List.nodup_cons.mp (List.nodup_cons.mp hnd).2).1 (mem_entries.mpr ⟨t, hm, rfl⟩)
  · rw [update_of_ne e] at hm
    exact e (hl.single hm (by rw [hs]; exact mem_cons_self))

lemma Linked.removeHead_nil (hok : ok h) (hs : lists h = []) :
    (removeHeadList l (.head h)).2 = .head h ∧ Linked (removeHeadList l (.head h)).1 ok lists := by
  have hr := hl.ring hok
  rw [hs] at hr
  obtain ⟨h2, hsame⟩ := removeHeadList_empty (m := l) separate_links hr trivial
  exact ⟨h2, hl.same fun x => hsame x trivial⟩

end

lemma insert_remove_donation (hr : Ring (links l) (.head h) []) (fuel : Nat) (before : Link T X E → Exec Bool) :
    let l1 := insertTailList l (.head h) (.thread d)
    insertOrderedList (fuel + 1) l (.head h) (.thread d) before = .ok l1 ∧
      (removeHeadList l1 (.head h)).2 = .thread d ∧
      ∀ x, x ≠ .thread d → SameLinks l (removeHeadList l1 (.head h)).1 x := by
  obtain ⟨hf, hb⟩ := ring_nil_iff.mp hr
  have hin := insertTailList_ring (m := l) (h := .head h) (y := []) (z := []) (e := .thread d)
    separate_links hr (fun _ _ => trivial) (by simp) trivial
  have hr1 := LinkedIn.ring (y := []) (z := []) hin hr (fun _ _ => trivial) (by simp)
  obtain ⟨h2, hun⟩ := removeHeadList_ring (z := []) separate_links hr1 (fun _ _ => trivial)
  refine ⟨?_, h2, ?_⟩
  · have e : flink l (.head h) = .head h := hf
    simp [insertOrderedList, insertOrderedFrom, e]
  · intro x hx
    by_cases e : x = .head h
    · subst e
      exact ⟨hun.joined.1.trans hf.symm, hun.joined.2.trans hb.symm⟩
    · exact ⟨(hun.flink x trivial e).trans (hin.flink x trivial e hx),
        (hun.blink x trivial e).trans (hin.blink x trivial e hx)⟩

end HAL9000.Thread
