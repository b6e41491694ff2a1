import HAL9000.Paging.Tables

/-!
# Page tables: one page of the walk

What the three walks do to one page, by induction down the levels. The induction is on the levels
still to come; the invariant is that the table reached so far sits in the tree at the slots already
passed (`Tables` with `path n = some p`).
-/

namespace HAL9000.Paging
open Lib

variable {s s' : PagingState} {path : Nat → Option (List (Fin 512))}

/-- The levels of the walk below a table whose path has length `d`. -/
def LevelsBelow : Nat → List (Nat × Fin 512) → Prop
  | d, [] => d = 4
  | d, (level, _) :: ls => level = d + 1 ∧ LevelsBelow (d + 1) ls

variable {ls : List (Nat × Fin 512)} {a b : Nat} {k : Fin 512}

lemma levelsBelow_walkLevels (va : Nat) : LevelsBelow 0 (walkLevels va) := ⟨rfl, rfl, rfl, rfl, rfl⟩

lemma walkLevels_keys (va : Nat) : (walkLevels va).map Prod.snd = pageKey va := rfl

lemma LevelsBelow.length {d : Nat} (h : LevelsBelow d ls) : d + ls.length = 4 := by
  induction ls generalizing d with
  | nil => exact h
  | cons l ls ih =>
    have := ih h.2
    simp only [List.length_cons]
    omega

/-- The pool after a walk: at most `used` frames fewer, nothing else changed. -/
def Drawn (s s' : PagingState) (used : Nat) : Prop :=
  ∃ i, s.data.currentIndex ≤ i ∧ i ≤ s.data.currentIndex + used ∧
    s'.data = { s.data with currentIndex := i }

lemma Drawn.refl (s : PagingState) : Drawn s s 0 := ⟨_, le_refl _, le_refl _, rfl⟩

lemma Drawn.trans {t : PagingState} (h₁ : Drawn s t a) (h₂ : Drawn t s' b) : Drawn s s' (a + b) := by
  obtain ⟨i, hi, hi', e⟩ := h₁
  obtain ⟨j, hj, hj', e'⟩ := h₂
  rw [e] at hj hj' e'
  exact ⟨j, by simp only at hj; omega, by simp only at hj'; omega, e'⟩

lemma Drawn.mono (h : Drawn s s' a) (hab : a ≤ b) : Drawn s s' b := by
  obtain ⟨i, hi, hi', e⟩ := h
  exact ⟨i, hi, by omega, e⟩

lemma Drawn.base (h : Drawn s s' a) : s'.data.basePhysicalAddress = s.data.basePhysicalAddress := by
  obtain ⟨i, _, _, e⟩ := h
  rw [e]

/-! ## Going down one level -/

lemma Tables.descend (tb : Tables s path) {n p} (hn : path n = some p)
    (hp : p.length + 1 < 4) (hk : (s.mem (n + 8 * k.val)).present = true) :
    path (pteGetPhysicalAddress (s.mem (n + 8 * k.val))) = some (p ++ [k]) :=
  tb.tree.child hn hp (slot_of_present hk)

lemma Tables.walk_slot (tb : Tables s path) {n p} (hn : path n = some p) (ks : List (Fin 512)) :
    walk (slot s.mem) s.data.basePhysicalAddress (p ++ k :: ks) =
      (slot s.mem n k).bind fun c => walk (slot s.mem) c ks := by
  rw [walk_append, tb.tree.walk_of_path hn]
  rfl

lemma Tables.mapLevel (tb : Tables s path) {vmm ctx va n p level} {b : Bool}
    (hn : path n = some p) (hl : level = p.length + 1) (hp : p.length + 1 < 4)
    (h : vmMapPage vmm ctx (n + 8 * k.val) va level s = .ok (s', b)) :
    b = true ∧ ∃ path', Tables s' path' ∧
      path' (pteGetPhysicalAddress (s'.mem (n + 8 * k.val))) = some (p ++ [k]) ∧
      (s'.mem (n + 8 * k.val)).pat = false ∧ Drawn s s' 1 ∧
      ∀ ks : List (Fin 512), ks.length = 4 →
        walk (slot s'.mem) s.data.basePhysicalAddress ks =
          walk (slot s.mem) s.data.basePhysicalAddress ks := by
  have hlast : ¬ level = pagingTablesLastLevel := by unfold pagingTablesLastLevel; omega
  unfold vmMapPage at h
  obtain ⟨_, _, h⟩ := bind_ok.mp h
  obtain ⟨_, _, h⟩ := bind_ok.mp h
  by_cases hpr : (s.mem (n + 8 * k.val)).present = true
  · rw [if_pos (by simp [hpr, hlast])] at h
    cases h
    exact ⟨rfl, path, tb, tb.descend hn hp hpr, tb.small hn hp k, (Drawn.refl s).mono (by omega), fun _ _ => rfl⟩
  · rw [if_neg (by simp [hpr]), if_neg hlast] at h
    obtain ⟨t, ht, h⟩ := bind_ok.mp h
    cases h
    have hnone := slot_of_not_present (Bool.eq_false_iff.mpr hpr)
    obtain ⟨path', tb', hn', hslot, hc, hdata, hwalk⟩ := tb.setup hn hp hnone ht
    refine ⟨rfl, path', tb', ?_, tb'.small hn' hp k, ⟨_, ?_, le_refl _, hdata⟩, hwalk⟩
    · have hpr' : (s'.mem (n + 8 * k.val)).present = true := by
        by_contra hneg
        rw [slot_of_not_present (Bool.eq_false_iff.mpr hneg)] at hslot
        cases hslot
      rw [slot_of_present hpr', Option.some_inj] at hslot
      rw [hslot]
      exact hc
    · omega

lemma Tables.mapLeaf (tb : Tables s path) {vmm ctx va n p} {b : Bool}
    (hn : path n = some p) (hp : p.length + 1 = 4)
    (h : vmMapPage vmm ctx (n + 8 * k.val) va 4 s = .ok (s', b)) :
    Tables s' path ∧ s'.data = s.data ∧
      ∀ ks : List (Fin 512), ks.length = 4 →
        walk (slot s'.mem) s.data.basePhysicalAddress ks =
          if ks = p ++ [k] ∧ (ctx.invalidate = true ∨ walk (slot s.mem) s.data.basePhysicalAddress ks = none) then
            some (pteGetPhysicalAddress (mappedEntry vmm ctx s.data.kernelSpace va))
          else walk (slot s.mem) s.data.basePhysicalAddress ks := by
  have hkey := tb.walk_slot (k := k) hn []
  simp only [walk, Option.bind_fun_some] at hkey
  unfold vmMapPage at h
  obtain ⟨_, _, h⟩ := bind_ok.mp h
  obtain ⟨_, _, h⟩ := bind_ok.mp h
  by_cases hkeep : (s.mem (n + 8 * k.val)).present = true ∧ ctx.invalidate = false
  · obtain ⟨hpr, hinv⟩ := hkeep
    rw [if_pos (by simp [hpr, hinv])] at h
    cases h
    refine ⟨tb, rfl, ?_⟩
    intro ks _
    rw [if_neg]
    rintro ⟨rfl, hor⟩
    rw [hkey, slot_of_present hpr, hinv] at hor
    simp at hor
  · rw [if_neg (by simpa [pagingTablesLastLevel] using hkeep),
      if_pos (show 4 = pagingTablesLastLevel from rfl)] at h
    cases h
    obtain ⟨tb', hwalk⟩ := tb.setLeaf (k := k)
      (mappedEntry vmm ctx s.data.kernelSpace va) hn hp s.released
    refine ⟨tb', rfl, ?_⟩
    intro ks hks
    rw [hwalk ks hks]
    by_cases e : ks = p ++ [k]
    · have hor : ctx.invalidate = true ∨
          walk (slot s.mem) s.data.basePhysicalAddress ks = none := by
        by_cases hinv : ctx.invalidate = true
        · exact .inl hinv
        · have hpr : (s.mem (n + 8 * k.val)).present = false := by simpa [hinv] using hkeep
          exact .inr (by rw [e, hkey, slot_of_not_present hpr])
      have hpr : (mappedEntry vmm ctx s.data.kernelSpace va).present = true := rfl
      rw [if_pos e, if_pos hpr, if_pos ⟨e, hor⟩]
    · rw [if_neg e, if_neg (fun h => e h.1)]

/-! ## Whole pages -/

lemma Tables.mapPage {vmm ctx va} (hls : ls ≠ []) :
    ∀ {s path n p}, Tables s path → path n = some p → LevelsBelow p.length ls →
      vmWalkPage PagingState.mem (vmMapPage vmm ctx) va ls n s = .ok s' →
      ∃ path', Tables s' path' ∧ Drawn s s' (ls.length - 1) ∧
        ∀ ks : List (Fin 512), ks.length = 4 →
          walk (slot s'.mem) s.data.basePhysicalAddress ks =
            if ks = p ++ ls.map Prod.snd ∧ (ctx.invalidate = true ∨
                walk (slot s.mem) s.data.basePhysicalAddress ks = none) then
              some (pteGetPhysicalAddress (mappedEntry vmm ctx s.data.kernelSpace va))
            else walk (slot s.mem) s.data.basePhysicalAddress ks := by
  induction ls with
  | nil => exact absurd rfl hls
  | cons l ls ih =>
    obtain ⟨level, k⟩ := l
    intro s path n p tb hn hbelow h
    have hlen := hbelow.length
    obtain ⟨rfl, hrest⟩ := hbelow
    simp only [List.length_cons] at hlen
    unfold vmWalkPage at h
    obtain ⟨⟨t, b⟩, ht, h⟩ := bind_ok.mp h
    cases ls with
    | nil =>
      have h4 : p.length + 1 = 4 := by simpa using hlen
      rw [h4] at ht h
      obtain ⟨tb', hdata, hwalk⟩ := tb.mapLeaf hn h4 ht
      -- behind the last level the walk is over, whatever the callback answers
      have e : s' = t := by
        cases b <;> simp [vmWalkPage, pagingTablesLastLevel] at h <;> exact h.symm
      subst e
      refine ⟨path, tb', ⟨_, le_refl _, le_refl _, hdata⟩, hwalk⟩
    | cons l' ls =>
      simp only [List.length_cons] at hlen
      have hp : p.length + 1 < 4 := by omega
      obtain ⟨rfl, path₁, tb₁, hc, hpat, hdrawn, hwalk₁⟩ := tb.mapLevel hn rfl hp ht
      have hne : p.length + 1 ≠ pagingTablesLastLevel := by unfold pagingTablesLastLevel; omega
      simp only [if_true, ne_eq, hne, not_false_eq_true, ensure_pos hpat, bind_okay] at h
      have hbelow' : LevelsBelow (p ++ [k]).length (l' :: ls) := by simpa using hrest
      obtain ⟨path₂, tb₂, hdrawn', hwalk₂⟩ := ih (by simp) tb₁ hc hbelow' h
      refine ⟨path₂, tb₂, ?_, ?_⟩
      · refine (hdrawn.trans hdrawn').mono ?_
        simp only [List.length_cons]
        omega
      · intro ks hks
        have := hwalk₂ ks hks
        obtain ⟨i, _, _, edata⟩ := hdrawn
        rw [edata] at this
        simp only [hwalk₁ ks hks] at this
        simpa using this

lemma vmMapPage_ok (vmm ctx level pageTable) {va} (hva : va ≠ 0) (hl : 1 ≤ level ∧ level ≤ 4)
    (hpool : level < 4 → s.data.currentIndex < s.data.numberOfFrames) :
    ∃ r, vmMapPage vmm ctx pageTable va level s = .ok r := by
  unfold vmMapPage
  rw [ensure_pos hva, bind_okay, ensure_pos (by exact hl), bind_okay]
  split
  · exact ⟨_, rfl⟩
  split
  · exact ⟨_, rfl⟩
  · have hlt : level < 4 := by unfold pagingTablesLastLevel at *; omega
    simp [vmSetupPagingStructure, vmRetrieveNextPhysicalAddressForPagingStructure, ensure_pos (hpool hlt)]

lemma Tables.mapPage_ok (vmm ctx) {va} (hva : va ≠ 0) :
    ∀ {s path n p}, Tables s path → path n = some p → LevelsBelow p.length ls →
      s.data.currentIndex + (ls.length - 1) ≤ s.data.numberOfFrames →
      ∃ s', vmWalkPage PagingState.mem (vmMapPage vmm ctx) va ls n s = .ok s' := by
  induction ls with
  | nil => exact fun _ _ _ _ => ⟨_, rfl⟩
  | cons l ls ih =>
    obtain ⟨level, k⟩ := l
    intro s path n p tb hn hbelow hpool
    have hlen := hbelow.length
    obtain ⟨rfl, hrest⟩ := hbelow
    simp only [List.length_cons] at hlen hpool
    obtain ⟨⟨t, b⟩, ht⟩ := vmMapPage_ok vmm ctx (p.length + 1) (n + 8 * k.val)
      (s := s) hva (by omega) (by omega)
    simp only [vmWalkPage, ht, bind_okay]
    cases ls with
    | nil =>
      have h4 : p.length + 1 = pagingTablesLastLevel := hlen
      cases b <;> simp [vmWalkPage, h4]
    | cons l' ls =>
      simp only [List.length_cons] at hlen hpool
      have hp : p.length + 1 < 4 := by omega
      obtain ⟨rfl, path₁, tb₁, hc, hpat, ⟨i, _, hi, edata⟩, _⟩ := tb.mapLevel hn rfl hp ht
      have hne : p.length + 1 ≠ pagingTablesLastLevel := by unfold pagingTablesLastLevel; omega
      simp only [if_true, ne_eq, hne, not_false_eq_true, ensure_pos hpat, bind_okay]
      refine ih tb₁ hc (by simpa using hrest) ?_
      rw [edata]
      simp only [List.length_cons]
      omega

lemma Tables.unmapPage (release) {va} (hva : va ≠ 0) (hls : ls ≠ []) :
    ∀ {n p}, Tables s path → path n = some p → LevelsBelow p.length ls →
      ∃ s', vmWalkPage PagingState.mem (vmUnmapPage release) va ls n s = .ok s' ∧
        Tables s' path ∧ s'.data = s.data ∧
        ∀ ks : List (Fin 512), ks.length = 4 →
          walk (slot s'.mem) s.data.basePhysicalAddress ks =
            if ks = p ++ ls.map Prod.snd then none
            else walk (slot s.mem) s.data.basePhysicalAddress ks := by
  induction ls with
  | nil => exact absurd rfl hls
  | cons l ls ih =>
    obtain ⟨level, k⟩ := l
    intro n p tb hn hbelow
    have hlen := hbelow.length
    obtain ⟨rfl, hrest⟩ := hbelow
    simp only [List.length_cons] at hlen
    have hl : pagingTablesFirstLevel ≤ p.length + 1 ∧ p.length + 1 ≤ pagingTablesLastLevel := by
      unfold pagingTablesFirstLevel pagingTablesLastLevel
      omega
    simp only [vmWalkPage, vmUnmapPage, ensure_pos hva, ensure_pos hl, bind_okay]
    by_cases hpr : (s.mem (n + 8 * k.val)).present = true
    · cases ls with
      | nil =>
        have h4 : p.length + 1 = pagingTablesLastLevel := hlen
        simp only [hpr, h4, Bool.not_true, Bool.false_eq_true, if_false, if_true, pure_okay,
          bind_okay, ne_eq, not_true_eq_false]
        obtain ⟨tb', hwalk⟩ := tb.setLeaf (k := k) pteUnmap hn h4
          (if release then s.released ++ [pteGetPhysicalAddress (s.mem (n + 8 * k.val))]
            else s.released)
        exact ⟨_, rfl, tb', rfl, hwalk⟩
      | cons l' ls =>
        simp only [List.length_cons] at hlen
        have hne : p.length + 1 ≠ pagingTablesLastLevel := by unfold pagingTablesLastLevel; omega
        have hp : p.length + 1 < 4 := by omega
        simp only [hpr, hne, Bool.not_true, Bool.false_eq_true, if_false, if_true, pure_okay,
          bind_okay, ne_eq, not_false_eq_true, ensure_pos (tb.small hn hp k)]
        have := ih (by simp) tb (tb.descend hn hp hpr) (by simpa using hrest)
        simpa using this
    · -- the page has no table at this level: it was not mapped
      simp only [hpr, Bool.not_false, if_true, pure_okay, bind_okay, Bool.false_eq_true, if_false]
      refine ⟨s, rfl, tb, rfl, ?_⟩
      intro ks _
      split
      · next e =>
        rw [e, List.map_cons, tb.walk_slot hn, slot_of_not_present (Bool.eq_false_iff.mpr hpr)]
        rfl
      · rfl

lemma Tables.clearAccessBits (tb : Tables s path) {n p} (hn : path n = some p)
    (hp : p.length + 1 = 4) (accessed dirty : Bool) (pa : Nat) :
    let a := Paging.clearAccessBits accessed dirty (n + 8 * k.val)
      { mem := s.mem, physicalAddress := pa }
    a.physicalAddress = pa ∧ Tables { s with mem := a.mem } path ∧
      ∀ ks : List (Fin 512), ks.length = 4 →
        walk (slot a.mem) s.data.basePhysicalAddress ks =
          walk (slot s.mem) s.data.basePhysicalAddress ks := by
  intro a
  set e := s.mem (n + 8 * k.val) with he
  obtain ⟨tb', hwalk⟩ := tb.setLeaf (k := k)
    { e with accessed := !accessed && e.accessed, dirty := !dirty && e.dirty } hn hp s.released
  refine ⟨rfl, tb', ?_⟩
  intro ks hks
  refine (hwalk ks hks).trans ?_
  split
  · next h =>
    rw [h, tb.walk_slot hn, slot, ← he]
    simp [walk, pteGetPhysicalAddress]
  · rfl

section Lookup

variable {mem : PhysMem} {accessed dirty : Bool} {va level n : Nat} {k : Fin 512} {ls : List (Nat × Fin 512)}

abbrev lookupFrom (mem : PhysMem) (accessed dirty : Bool) (va : Nat) (ls : List (Nat × Fin 512)) (n : Nat) :
    Exec PhysAccess :=
  vmWalkPage PhysAccess.mem (vmRetrievePhyAccess accessed dirty) va ls n { mem := mem }

lemma lookupFrom_cons (hva : va ≠ 0) (hl : 1 ≤ level ∧ level ≤ 4) :
    lookupFrom mem accessed dirty va ((level, k) :: ls) n =
      let e := mem (n + 8 * k.val)
      if !e.present then .ok { mem := mem }
      else if level < 4 ∧ !e.pat then lookupFrom mem accessed dirty va ls (pteGetPhysicalAddress e)
      else if level < 3 then .error .check
      else .ok (clearAccessBits accessed dirty (n + 8 * k.val) ⟨mem, if level = 3 then
        wadd 64 (pteLargePageGetPhysicalAddress e) (va % 2 ^ 21) else pteGetPhysicalAddress e, false, false⟩) := by
  have hl' : pagingTablesFirstLevel ≤ level ∧ level ≤ pagingTablesLastLevel := hl
  simp only [lookupFrom, vmWalkPage, vmRetrievePhyAccess, ensure_pos hva, ensure_pos hl', bind_okay]
  have hcases : level = 1 ∨ level = 2 ∨ level = 3 ∨ level = 4 := by omega
  cases hp : (mem (n + 8 * k.val)).present
  · simp
  · cases hpat : (mem (n + 8 * k.val)).pat <;> rcases hcases with rfl | rfl | rfl | rfl <;>
      simp [hpat, ensure_pos, ensure_neg, pagingTablesLastLevel]

end Lookup

lemma Tables.lookupPage (accessed dirty) {va} (hva : va ≠ 0) (hls : ls ≠ []) :
    ∀ {n p}, Tables s path → path n = some p → LevelsBelow p.length ls →
      ∃ r, lookupFrom s.mem accessed dirty va ls n = .ok r ∧
        r.physicalAddress =
          (walk (slot s.mem) s.data.basePhysicalAddress (p ++ ls.map Prod.snd)).getD 0 ∧
        Tables { s with mem := r.mem } path ∧
        ∀ ks : List (Fin 512), ks.length = 4 →
          walk (slot r.mem) s.data.basePhysicalAddress ks =
            walk (slot s.mem) s.data.basePhysicalAddress ks := by
  induction ls with
  | nil => exact absurd rfl hls
  | cons l ls ih =>
    obtain ⟨level, k⟩ := l
    intro n p tb hn hbelow
    have hlen := hbelow.length
    obtain ⟨rfl, hrest⟩ := hbelow
    simp only [List.length_cons] at hlen
    rw [lookupFrom_cons hva (by omega), List.map_cons, tb.walk_slot hn]
    dsimp only
    by_cases hpr : (s.mem (n + 8 * k.val)).present = true
    · rw [slot_of_present hpr, if_neg (by simp [hpr])]
      cases ls with
      | nil =>
        have h4 : p.length + 1 = 4 := hlen
        rw [if_neg (by omega), if_neg (by omega), if_neg (by omega)]
        obtain ⟨hpa, tb', hwalk⟩ := tb.clearAccessBits (k := k) hn h4 accessed dirty
          (pteGetPhysicalAddress (s.mem (n + 8 * k.val)))
        exact ⟨_, rfl, by rw [hpa]; simp [walk], tb', hwalk⟩
      | cons l' ls =>
        simp only [List.length_cons] at hlen
        have hp : p.length + 1 < 4 := by omega
        have htree := tb.tree.walk_of_path (tb.descend hn hp hpr)
        have := ih (by simp) tb (tb.descend hn hp hpr) (by simpa using hrest)
        rw [walk_append, htree] at this
        rw [if_pos ⟨hp, by simp [tb.small hn hp k]⟩]
        exact this
    · rw [slot_of_not_present (Bool.eq_false_iff.mpr hpr), if_pos (by simp [hpr])]
      exact ⟨_, rfl, rfl, tb, fun _ _ => rfl⟩

end HAL9000.Paging
