import HAL9000.Lib.Radix
import HAL9000.Paging.Model

/-!
# Page tables: the tables as a radix tree

The tables in physical memory are read as a `Lib.Tree` of depth 4: `slot mem n k` is what slot `k` of
the table at `n` points at, `pageKey va` the four slots a virtual address selects. `Tables s path` is
the invariant of the development: the tables form such a tree, all of them lie in the frames already
taken from the pool, and no entry above the last level maps a large page.

Each callback then has one lemma: what it does to the tree and to the map `translate`.
-/

namespace HAL9000.Paging
open Lib Function

/-- What slot `k` of the table at `n` points at. -/
def slot (mem : PhysMem) (n : Nat) (k : Fin 512) : Option Nat :=
  if (mem (n + 8 * k.val)).present then some (pteGetPhysicalAddress (mem (n + 8 * k.val))) else none

def pageKey (va : Nat) : List (Fin 512) := [maskOffset 39 va, maskOffset 30 va, maskOffset 21 va, maskOffset 12 va]

/-- The frame the tables under `root` assign to the page of `va`. -/
def translate (mem : PhysMem) (root va : Nat) : Option Nat := walk (slot mem) root (pageKey va)

/-- The tables form a tree inside the frames taken from the pool. -/
structure Tables (s : PagingState) (path : Nat → Option (List (Fin 512))) : Prop where
  tree : Tree (slot s.mem) s.data.basePhysicalAddress 4 path
  frames : ∀ {n p}, path n = some p →
    ∃ j < s.data.currentIndex, n = s.data.basePhysicalAddress + 4096 * j
  small : ∀ {n p}, path n = some p → p.length + 1 < 4 → ∀ k : Fin 512,
    (s.mem (n + 8 * k.val)).pat = false
  index : 1 ≤ s.data.currentIndex ∧ s.data.currentIndex ≤ s.data.numberOfFrames
  count : s.data.numberOfFrames ≤ 0xFFFFF
  aligned : s.data.basePhysicalAddress % 4096 = 0
  room : s.data.basePhysicalAddress + 4096 * s.data.numberOfFrames ≤ 2 ^ 52

variable {s s' : PagingState} {path : Nat → Option (List (Fin 512))}

/-! ## Entries and slots -/

variable {mem : PhysMem} {n : Nat} {k k' : Fin 512}

lemma pteGetPhysicalAddress_pteMap {pa : Nat} {flags : PteMapFlags} (ha : pa % 4096 = 0)
    (hl : pa < 2 ^ 52) : pteGetPhysicalAddress (pteMap pa flags) = pa := by
  simp only [pteGetPhysicalAddress, pteMap, BitVec.toNat_ofNat, Nat.shiftRight_eq_div_pow, Nat.shiftLeft_eq]
  omega

lemma slot_of_present (h : (mem (n + 8 * k.val)).present = true) :
    slot mem n k = some (pteGetPhysicalAddress (mem (n + 8 * k.val))) := if_pos h

lemma slot_of_not_present
    (h : (mem (n + 8 * k.val)).present = false) : slot mem n k = none := by
  simp [slot, h]

lemma slot_congr {mem' : PhysMem}
    (h : mem' (n + 8 * k.val) = mem (n + 8 * k.val)) : slot mem' n k = slot mem n k := by
  simp [slot, h]

lemma Tables.entry_inj (tb : Tables s path) {n n' p p'} (hn : path n = some p) (hn' : path n' = some p')
    (e : n' + 8 * k'.val = n + 8 * k.val) : n' = n ∧ k' = k := by
  obtain ⟨j, _, rfl⟩ := tb.frames hn
  obtain ⟨j', _, rfl⟩ := tb.frames hn'
  have hk := k.isLt
  have hk' := k'.isLt
  have hj : j' = j := by omega
  subst hj
  exact ⟨rfl, Fin.ext (by omega)⟩

lemma Tables.slot_setEntry (tb : Tables s path) {n p} {e : PtEntry} (hn : path n = some p) {n' p'}
    (hn' : path n' = some p') (hne : ¬ (n' = n ∧ k' = k)) :
    slot (setEntry s.mem (n + 8 * k.val) e) n' k' = slot s.mem n' k' := by
  apply slot_congr
  apply if_neg
  intro h
  exact hne (tb.entry_inj hn hn' h)

/-! ## Fresh tables -/

def freshFrame (s : PagingState) : Nat := s.data.basePhysicalAddress + 4096 * s.data.currentIndex

variable (tb : Tables s path)
include tb

lemma Tables.retrieveNext {r} (h : vmRetrieveNextPhysicalAddressForPagingStructure s.data = .ok r) :
    s.data.currentIndex < s.data.numberOfFrames ∧
      r = (freshFrame s, { s.data with currentIndex := s.data.currentIndex + 1 }) := by
  unfold vmRetrieveNextPhysicalAddressForPagingStructure at h
  obtain ⟨_, hg, h⟩ := bind_ok.mp h
  rw [ensure_ok] at hg
  refine ⟨hg, ?_⟩
  cases h
  have := tb.count
  have := tb.room
  simp only [wadd, pageSize, freshFrame, Prod.mk.injEq, PagingData.mk.injEq, and_true, true_and]
  omega

lemma Tables.fresh_path : path (freshFrame s) = none := by
  cases hp : path (freshFrame s) with
  | none => rfl
  | some p =>
    obtain ⟨j, hj, e⟩ := tb.frames hp
    unfold freshFrame at e
    omega

lemma Tables.setup_eq {pteAddr : Nat} (h : vmSetupPagingStructure pteAddr s = .ok s') :
    s.data.currentIndex < s.data.numberOfFrames ∧
      ∃ flags : PteMapFlags, flags.pagingStructure = true ∧ s' = { s with
      mem := zeroFrame (setEntry s.mem pteAddr (pteMap (freshFrame s) flags)) (freshFrame s)
      data := { s.data with currentIndex := s.data.currentIndex + 1 } } := by
  unfold vmSetupPagingStructure at h
  obtain ⟨r, hr, h⟩ := bind_ok.mp h
  obtain ⟨hlt, rfl⟩ := tb.retrieveNext hr
  cases h
  exact ⟨hlt, _, rfl, rfl⟩

lemma Tables.setup {n p} (hn : path n = some p) (hp : p.length + 1 < 4) (hk : slot s.mem n k = none)
    (h : vmSetupPagingStructure (n + 8 * k.val) s = .ok s') :
    ∃ path', Tables s' path' ∧ path' n = some p ∧ slot s'.mem n k = some (freshFrame s) ∧
      path' (freshFrame s) = some (p ++ [k]) ∧
      s'.data = { s.data with currentIndex := s.data.currentIndex + 1 } ∧
      ∀ ks : List (Fin 512), ks.length = 4 →
        walk (slot s'.mem) s.data.basePhysicalAddress ks =
          walk (slot s.mem) s.data.basePhysicalAddress ks := by
  obtain ⟨hlt, flags, hflags, rfl⟩ := tb.setup_eq h
  have hc := tb.fresh_path
  have hroom := tb.room
  have hal := tb.aligned
  -- the addresses of the tables in use lie below the new frame
  have below : ∀ {n' p'} (k' : Fin 512), path n' = some p' → n' + 8 * k'.val < freshFrame s := by
    intro n' p' k' hn'
    obtain ⟨j, hj, rfl⟩ := tb.frames hn'
    have := k'.isLt
    unfold freshFrame
    omega
  set c := freshFrame s with hcdef
  set mem' := zeroFrame (setEntry s.mem (n + 8 * k.val) (pteMap c flags)) c with hmem
  have hold : ∀ {n' p'} (k' : Fin 512), path n' = some p' →
      mem' (n' + 8 * k'.val) = setEntry s.mem (n + 8 * k.val) (pteMap c flags) (n' + 8 * k'.val) := by
    intro n' p' k' hn'
    apply if_neg
    have := below k' hn'
    omega
  have hnew : ∀ k' : Fin 512, mem' (c + 8 * k'.val) = {} := by
    intro k'
    apply if_pos
    have := k'.isLt
    unfold pageSize
    omega
  have hset : slot mem' n k = some c := by
    have e : mem' (n + 8 * k.val) = pteMap c flags := by
      rw [hold k hn, setEntry, if_pos rfl]
    have hca : c % 4096 = 0 := by rw [hcdef]; unfold freshFrame; omega
    have hcl : c < 2 ^ 52 := by rw [hcdef]; unfold freshFrame; omega
    rw [slot_of_present (by rw [e]; rfl), e, pteGetPhysicalAddress_pteMap hca hcl]
  have hsame : ∀ n' q k', path n' = some q → ¬ (n' = n ∧ k' = k) →
      slot mem' n' k' = slot s.mem n' k' := by
    intro n' q k' hq hne
    rw [slot_congr (hold k' hq), tb.slot_setEntry hn hq hne]
  have hempty : ∀ k', slot mem' c k' = none := by
    intro k'
    apply slot_of_not_present
    rw [hnew k']
  refine ⟨update path c (some (p ++ [k])), ?_, ?_, hset, by simp, rfl, ?_⟩
  · refine ⟨tb.tree.setFresh hn hp hk hc hset hsame hempty, ?_, ?_, ?_, tb.count, hal, hroom⟩
    · intro n' q hq
      by_cases e : n' = c
      · exact ⟨s.data.currentIndex, by simp, by rw [e, hcdef]; rfl⟩
      · rw [update_of_ne e] at hq
        obtain ⟨j, hj, ej⟩ := tb.frames hq
        exact ⟨j, Nat.lt_succ_of_lt hj, ej⟩
    · intro n' q hq hd k'
      show (mem' (n' + 8 * k'.val)).pat = false
      by_cases e : n' = c
      · rw [e, hnew k']
      · rw [update_of_ne e] at hq
        rw [hold k' hq, setEntry]
        split
        · simp [pteMap, hflags]
        · exact tb.small hq hd k'
    · have := tb.index
      exact ⟨by simp, hlt⟩
  · rw [update_of_ne, hn]
    rintro rfl
    rw [hc] at hn
    cases hn
  · intro ks hks
    exact tb.tree.walk_setFresh hn hp hk hset hsame hempty hks

/-! ## Leaves -/

lemma Tables.setLeaf {n p} (e : PtEntry) (hn : path n = some p) (hp : p.length + 1 = 4) (released : List Nat) :
    let s' : PagingState := { s with mem := setEntry s.mem (n + 8 * k.val) e, released := released }
    Tables s' path ∧ ∀ ks : List (Fin 512), ks.length = 4 →
      walk (slot s'.mem) s.data.basePhysicalAddress ks =
        if ks = p ++ [k] then
          (if e.present then some (pteGetPhysicalAddress e) else none)
        else walk (slot s.mem) s.data.basePhysicalAddress ks := by
  intro s'
  have hsame : ∀ n' q k', path n' = some q → ¬ (n' = n ∧ k' = k) →
      slot s'.mem n' k' = slot s.mem n' k' := fun n' q k' hq hne => tb.slot_setEntry hn hq hne
  refine ⟨⟨tb.tree.setLeaf hn hp hsame, tb.frames, ?_, tb.index, tb.count, tb.aligned, tb.room⟩, ?_⟩
  · intro n' q hq hd k'
    have hne : n' + 8 * k'.val ≠ n + 8 * k.val := by
      intro h
      obtain ⟨rfl, rfl⟩ := tb.entry_inj hn hq h
      rw [hn] at hq
      cases hq
      omega
    show (setEntry s.mem (n + 8 * k.val) e (n' + 8 * k'.val)).pat = false
    rw [setEntry, if_neg hne]
    exact tb.small hq hd k'
  · intro ks hks
    rw [tb.tree.walk_setLeaf hn hp hsame hks]
    simp [slot, s', setEntry]

end HAL9000.Paging
