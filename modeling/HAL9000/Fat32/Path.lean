import HAL9000.Fat32.Table

/-!
# FAT32: going along a path

`FatSearch` cuts the path at its backslashes while it goes along it. `resolve` is given the components: it looks
each of them up in the directory found so far.
-/

namespace HAL9000.Fat32
open Lib Prog List

def pathOf (components : List (List UInt8)) : List UInt8 := components.flatMap (fatDelimiter :: ·)

def IsComponent (c : List UInt8) : Prop := c ≠ [] ∧ c.length ≤ 254 ∧ fatDelimiter ∉ c

/-- Look up the components, one after the other: the last one has the type that is asked for, the others are
    directories. -/
def resolve (lookup : Nat → List UInt8 → Nat → Fs Found) (searchType sector : Nat) (c : List UInt8) :
    List (List UInt8) → Fs Found
  | [] => lookup sector c searchType
  | c' :: cs => do
    let found ← lookup sector c attrDirectory
    resolve lookup searchType found.sector c' cs

/-- Every component is found, and what is found for the last one is the result. -/
inductive Resolves (lookup : Nat → List UInt8 → Nat → Fs Found) (searchType : Nat) :
    Nat → List (List UInt8) → Volume → Found → Volume → Prop where
  | last {sector c v found v'} : lookup sector c searchType v = .ok (.ok found, v') →
    Resolves lookup searchType sector [c] v found v'
  | step {sector c cs v dir v₁ found v'} : lookup sector c attrDirectory v = .ok (.ok dir, v₁) →
    Resolves lookup searchType dir.sector cs v₁ found v' →
    Resolves lookup searchType sector (c :: cs) v found v'

variable {fd : FatData} {past : Nat → Option UInt8} {fuel n sector searchType : Nat} {wantInfo : Bool}
  {lookup : Nat → List UInt8 → Nat → Fs Found} {c : List UInt8} {cs : List (List UInt8)} {v v' : Volume}
  {found : Found} {d : UInt8}

lemma resolve_eq_ok : resolve lookup searchType sector c cs v = .ok (.ok found, v') ↔
      Resolves lookup searchType sector (c :: cs) v found v' := by
  induction cs generalizing sector c v with
  | nil =>
    refine ⟨.last, fun h => ?_⟩
    cases h with
    | last h => exact h
    | step _ h => cases h
  | cons c' cs ih =>
    rw [resolve, bind_eq_ok]
    constructor
    · rintro ⟨dir, v₁, hdir, h⟩
      exact .step hdir (ih.mp h)
    · intro h
      cases h with
      | step hdir h => exact ⟨_, _, hdir, ih.mpr h⟩

lemma findIdx?_of_not_mem (h : d ∉ c) : c.findIdx? (· = d) = none := by
  refine findIdx?_eq_none_iff.mpr fun x hx => decide_eq_false ?_
  rintro rfl
  exact h hx

lemma clStrchr_append (h : d ∉ c) (rest : List UInt8) : clStrchr (c ++ d :: rest) d = c.length := by
  rw [clStrchr, findIdx?_append, findIdx?_of_not_mem h]
  simp [findIdx?_cons]

lemma length_le_pathOf (cs : List (List UInt8)) : cs.length ≤ (pathOf cs).length := by
  induction cs with
  | nil => exact Nat.zero_le _
  | cons c cs ih =>
    rw [pathOf, flatMap_cons, length_append, length_cons, length_cons]
    rw [pathOf] at ih
    omega

lemma IsComponent.length_valid (hc : IsComponent c) : ¬ (c.length ≥ longNameMaxChars ∨ c.length = 0) := by
  have hpos := List.length_pos_iff.mpr hc.1
  have hle := hc.2.1
  rw [longNameMaxChars]
  omega

lemma searchPath_eq (hc : IsComponent c) (hcs : ∀ d ∈ cs, IsComponent d) (hn : cs.length < n) :
    searchPath fd past fuel searchType wantInfo n sector (c ++ pathOf cs) =
      resolve (fun sector name type => fatSearchDirectoryEntry fd past fuel sector name type wantInfo)
        searchType sector
        c cs := by
  induction cs generalizing c n sector with
  | nil =>
    obtain ⟨n, rfl⟩ := Nat.exists_eq_add_of_lt hn
    have hend : clStrchr c fatDelimiter = 0 := by
      rw [clStrchr, findIdx?_of_not_mem hc.2.2]
      rfl
    rw [searchPath, pathOf, flatMap_nil, append_nil, hend]
    simp only [if_true, if_neg hc.length_valid, take_length]
    exact bind_pure _
  | cons d cs ih =>
    obtain ⟨n, rfl⟩ : ∃ k, n = k + 1 := ⟨n - 1, by omega⟩
    rw [searchPath, pathOf, flatMap_cons, cons_append, clStrchr_append hc.2.2]
    simp only [if_neg fun h => hc.1 (eq_nil_of_length_eq_zero h), if_neg hc.length_valid, take_left]
    refine congrArg _ (funext fun found => ?_)
    rw [← ih (hcs d mem_cons_self) (fun e he => hcs e (mem_cons_of_mem d he)) (Nat.lt_of_succ_lt_succ hn),
      ← drop_drop, drop_left]
    rfl

/-- A search goes along the path component by component. It succeeds if and only if every component is found, and
    then the result is what has been found last. -/
theorem fatSearch_resolves (hc : IsComponent c) (hcs : ∀ d ∈ cs, IsComponent d) :
    fatSearch fd past fuel (pathOf (c :: cs)) searchType wantInfo =
      resolve (fun sector name type => fatSearchDirectoryEntry fd past fuel sector name type wantInfo) searchType
        fd.rootDirectoryStartSector c cs ∧
    ∀ v found v', fatSearch fd past fuel (pathOf (c :: cs)) searchType wantInfo v = .ok (.ok found, v') ↔
      Resolves (fun sector name type => fatSearchDirectoryEntry fd past fuel sector name type wantInfo) searchType
        fd.rootDirectoryStartSector (c :: cs) v found v' := by
  have heq : fatSearch fd past fuel (pathOf (c :: cs)) searchType wantInfo = resolve
      (fun sector name type => fatSearchDirectoryEntry fd past fuel sector name type wantInfo) searchType
      fd.rootDirectoryStartSector c cs := by
    have hpos := List.length_pos_iff.mpr hc.1
    have hle := length_le_pathOf cs
    have hpath : pathOf (c :: cs) = fatDelimiter :: (c ++ pathOf cs) := rfl
    have hlen : (fatDelimiter :: (c ++ pathOf cs)).length = c.length + (pathOf cs).length + 1 := by
      rw [length_cons, length_append]
    rw [hpath, fatSearch, if_neg (not_not.mpr rfl), hlen, if_neg (by omega)]
    exact searchPath_eq hc hcs (by omega)
  exact ⟨heq, fun v found v' => heq ▸ resolve_eq_ok⟩

/-- A path of two components. -/
theorem fatSearch_resolves_two : fatSearch sampleData (fun _ => none) 17 [92, 65, 92, 66] attrNormal false =
      resolve (fun sector name type => fatSearchDirectoryEntry sampleData (fun _ => none) 17 sector name type false)
        attrNormal sampleData.rootDirectoryStartSector [65] [[66]] := by
  have hfirst : IsComponent [65] := ⟨by decide, by decide, by decide⟩
  have hsecond : IsComponent [66] := ⟨by decide, by decide, by decide⟩
  exact (fatSearch_resolves hfirst (List.forall_mem_singleton.mpr hsecond)).1

end HAL9000.Fat32
