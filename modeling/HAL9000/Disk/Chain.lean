import HAL9000.Disk.Model
import HAL9000.Lib.Walk

/-!
# Partitions of a disk: the chain of boot records

A scan of a boot record ends there, or it leads on to one other record (`scanEntries_none`,
`scanEntries_some`). So a scan of the disk is a walk from record to record, along `link`. It comes to
an end, and trips no assertion, just if the first extended entry does not start at sector 0 and no
extended boot record is met twice.
-/

namespace HAL9000.Disk
open Lib

def leaving (extendedPartition : Bool) : List Entry → Option Entry
  | [] => none
  | e :: es =>
    if extendedPartition && e.unused then none
    else if !e.valid then leaving extendedPartition es
    else if e.extended then some e
    else leaving extendedPartition es

def record (disk : Device) (extendedPartition : Bool) (offset : Nat) : List Entry :=
  match disk offset with
  | .error _ => []
  | .ok mbr =>
    if bootSignature mbr ≠ mbrBootSignature then []
    else entries mbr (if extendedPartition then mbrExtPartitionNoOfEntries else mbrNoOfPartitions)

/-- The extended entry that leads from the master boot record to the first extended boot record. -/
def firstExtended (disk : Device) : Option Entry := leaving false (record disk false 0)

def link (disk : Device) (first offset : Nat) : Option Nat :=
  (leaving true (record disk true offset)).map fun e => wadd 32 e.firstSectorLba first

variable {disk : Device} {fill extendedPartition : Bool} {offset first count fuel n : Nat}
  {found : List PartitionInformation} {es : List Entry} {e : Entry}
  {recurse : Nat → Nat → Nat → List PartitionInformation → Exec Scan}

lemma scanEntries_none (h : leaving extendedPartition es = none) :
    ∃ r, scanEntries recurse offset extendedPartition first fill es count found = .ok r := by
  induction es generalizing count found with
  | nil => exact ⟨_, rfl⟩
  | cons e es ih =>
    rw [leaving] at h
    rw [scanEntries]
    split at h
    · next hu =>
      rw [if_pos hu]
      exact ⟨_, rfl⟩
    next hu =>
    rw [if_neg hu]
    split at h
    · next hv =>
      rw [if_pos hv]
      exact ih h
    next hv =>
    rw [if_neg hv]
    split at h
    · cases h
    · next hx =>
      rw [if_neg hx]
      exact ih h

lemma scanEntries_some (h : leaving extendedPartition es = some e) :
    ∃ count' found', scanEntries recurse offset extendedPartition first fill es count found =
      recurse (wadd 32 e.firstSectorLba first)
        (if extendedPartition then first else e.firstSectorLba) count' found' := by
  induction es generalizing count found with
  | nil => cases h
  | cons f es ih =>
    rw [leaving] at h
    rw [scanEntries]
    split at h
    · cases h
    next hu =>
    rw [if_neg hu]
    split at h
    · next hv =>
      rw [if_pos hv]
      exact ih h
    next hv =>
    rw [if_neg hv]
    split at h
    · next hx =>
      cases h
      rw [if_pos hx]
      exact ⟨_, _, rfl⟩
    · next hx =>
      rw [if_neg hx]
      exact ih h

lemma retrieve_none (hfirst : (extendedPartition ^^ decide (0 = first)) = true)
    (h : leaving extendedPartition (record disk extendedPartition offset) = none) :
    ∃ r, diskRetrievePartitionsFromDiskStartingAtOffset disk fill (fuel + 1) offset extendedPartition
      first count found = .ok r := by
  rw [diskRetrievePartitionsFromDiskStartingAtOffset, ensure_pos hfirst, bind_okay]
  rw [record] at h
  cases hd : disk offset with
  | error st => exact ⟨_, rfl⟩
  | ok mbr =>
    simp only [hd] at h ⊢
    split at h
    · next hs =>
      rw [if_pos hs]
      exact ⟨_, rfl⟩
    · next hs =>
      rw [if_neg hs]
      exact scanEntries_none h

variable (fill fuel count found) in
lemma retrieve_some (hfirst : (extendedPartition ^^ decide (0 = first)) = true)
    (h : leaving extendedPartition (record disk extendedPartition offset) = some e) :
    ∃ count' found', diskRetrievePartitionsFromDiskStartingAtOffset disk fill (fuel + 1) offset
        extendedPartition first count found =
      diskRetrievePartitionsFromDiskStartingAtOffset disk fill fuel (wadd 32 e.firstSectorLba first)
        true (if extendedPartition then first else e.firstSectorLba) count' found' := by
  rw [diskRetrievePartitionsFromDiskStartingAtOffset, ensure_pos hfirst, bind_okay]
  rw [record] at h
  cases hd : disk offset with
  | error st =>
    simp only [hd] at h
    cases h
  | ok mbr =>
    simp only [hd] at h ⊢
    split at h
    · cases h
    · next hs =>
      rw [if_neg hs]
      exact scanEntries_some h

lemma retrieve_of_follow (hfirst : first ≠ 0) (h : follow (link disk first) n offset = none) (hfuel : n ≤ fuel) :
    ∃ r, diskRetrievePartitionsFromDiskStartingAtOffset disk fill fuel offset true first count found =
      .ok r := by
  have hf : (true ^^ decide (0 = first)) = true := by simpa using Ne.symm hfirst
  induction n generalizing offset fuel count found with
  | zero => cases h
  | succ n ih =>
    obtain ⟨fuel, rfl⟩ := Nat.exists_eq_add_of_le' (Nat.le_trans (Nat.le_add_left 1 n) hfuel)
    cases hl : leaving true (record disk true offset) with
    | none => exact retrieve_none hf hl
    | some e =>
      obtain ⟨count', found', heq⟩ := retrieve_some fill count fuel found hf hl
      rw [heq]
      refine ih ?_ (by omega)
      rwa [follow_succ (b := wadd 32 e.firstSectorLba first) (by rw [link, hl]; rfl)] at h

variable (fill fuel count found) in
lemma retrieve_endless (hfirst : first ≠ 0) (h : ¬ Ends (link disk first) offset) :
    diskRetrievePartitionsFromDiskStartingAtOffset disk fill fuel offset true first count found =
      .error .fuel := by
  have hf : (true ^^ decide (0 = first)) = true := by simpa using Ne.symm hfirst
  induction fuel generalizing offset count found with
  | zero => rfl
  | succ fuel ih =>
    cases hl : leaving true (record disk true offset) with
    | none => exact absurd (ends_of_none (by rw [link, hl]; rfl)) h
    | some e =>
      obtain ⟨count', found', heq⟩ := retrieve_some fill count fuel found hf hl
      rw [heq]
      exact ih _ _ (mt (ends_succ_iff (by rw [link, hl]; rfl)).mpr h)

/-- The first extended entry does not start at sector 0, and no extended boot record is met twice. -/
def Unwinding (disk : Device) : Prop := ∀ e, firstExtended disk = some e →
    e.firstSectorLba ≠ 0 ∧ NoRepeat (link disk e.firstSectorLba) e.firstSectorLba

lemma leaving_mem (h : leaving extendedPartition es = some e) : e ∈ es := by
  induction es with
  | nil => cases h
  | cons f es ih =>
    rw [leaving] at h
    split at h
    · cases h
    split at h
    · exact List.mem_cons_of_mem _ (ih h)
    split at h
    · cases h
      exact List.mem_cons_self
    · exact List.mem_cons_of_mem _ (ih h)

lemma firstSectorLba_lt (h : e ∈ record disk extendedPartition offset) : e.firstSectorLba < 2 ^ 32 := by
  rw [record] at h
  split at h
  · cases h
  · next mbr _ =>
    split at h
    · cases h
    · obtain ⟨i, _, rfl⟩ := List.mem_map.mp h
      exact readLE_lt mbr _ 4

lemma follow_link_lt (h0 : offset < 2 ^ 32) {x : Nat} (h : follow (link disk first) n offset = some x) :
    x ∈ Finset.range (2 ^ 32) := by
  rw [Finset.mem_range]
  induction n generalizing offset with
  | zero =>
    cases h
    exact h0
  | succ n ih =>
    rw [follow] at h
    obtain ⟨y, hy, h⟩ := Option.bind_eq_some_iff.mp h
    obtain ⟨e, _, rfl⟩ := Option.map_eq_some_iff.mp hy
    exact ih (wadd_lt ..) h

lemma retrieve_disk (hu : Unwinding disk) :
    ∃ n, ∀ fuel ≥ n, ∀ fill, ∃ r, diskRetrievePartitionsFromDiskStartingAtOffset disk fill fuel 0
      false 0 0 [] = .ok r := by
  cases hl : firstExtended disk with
  | none =>
    refine ⟨1, fun fuel hfuel fill => ?_⟩
    obtain ⟨fuel, rfl⟩ := Nat.exists_eq_add_of_le' hfuel
    exact retrieve_none (by simp) hl
  | some e =>
    obtain ⟨h0, hfresh⟩ := hu e hl
    have hlt := firstSectorLba_lt (leaving_mem hl)
    obtain ⟨n, hn⟩ := (ends_iff_noRepeat fun n x => follow_link_lt hlt).mpr hfresh
    refine ⟨n + 1, fun fuel hfuel fill => ?_⟩
    obtain ⟨fuel, rfl⟩ := Nat.exists_eq_add_of_le' (Nat.le_trans (Nat.le_add_left 1 n) hfuel)
    obtain ⟨count', found', heq⟩ := retrieve_some fill 0 fuel [] (by simp : (false ^^ decide (0 = 0)) = true) hl
    rw [heq, wadd_eq (by omega)]
    exact retrieve_of_follow h0 hn (by omega)

/-- Finding the partitions of a disk comes to an end, and trips no assertion, just if the extended
    partition does not start at sector 0 and no extended boot record is met twice. -/
theorem enumeration_returns_iff (disk : Device) :
    (∃ n, ∀ fuel ≥ n, ∃ r, diskRetrievePartitionsFromDisk fuel disk = .ok r) ↔ Unwinding disk := by
  constructor
  · rintro ⟨n, hn⟩ e hl
    have hlt := firstSectorLba_lt (leaving_mem hl)
    obtain ⟨r, hr⟩ := hn (n + 2) (by omega)
    obtain ⟨s, hs, _⟩ := bind_ok.mp hr
    obtain ⟨count', found', heq⟩ := retrieve_some false 0 (n + 1) [] (by simp : (false ^^ decide (0 = 0)) = true) hl
    rw [heq, wadd_eq (by omega)] at hs
    have h0 : e.firstSectorLba ≠ 0 := by
      intro h0
      simp [diskRetrievePartitionsFromDiskStartingAtOffset, h0, ensure_neg] at hs
    refine ⟨h0, (ends_iff_noRepeat fun n x => follow_link_lt hlt).mp ?_⟩
    by_contra hends
    have := retrieve_endless false count' (n + 1) found' h0 hends
    have hs' := this.symm.trans hs
    cases hs'
  · intro hu
    obtain ⟨n, hn⟩ := retrieve_disk hu
    refine ⟨n, fun fuel hfuel => ?_⟩
    obtain ⟨s, hs⟩ := hn fuel hfuel false
    obtain ⟨s', hs'⟩ := hn fuel hfuel true
    rw [diskRetrievePartitionsFromDisk, hs, bind_okay, hs', bind_okay]
    split
    · exact ⟨_, rfl⟩
    · split
      · exact ⟨_, rfl⟩
      · exact ⟨_, rfl⟩

def putEntry (m : Mem) (i status type lba size : Nat) : Mem :=
  writeLE (writeLE (writeLE (writeLE m (entryOffset i) 1 status) (entryOffset i + 4) 1 type)
    (entryOffset i + 8) 4 lba) (entryOffset i + 12) 4 size

def emptyRecord : Mem := writeLE (fun _ => 0) 510 2 mbrBootSignature

def diskOf (records : List (Nat × Mem)) : Device := fun i =>
  match records.lookup i with
  | some m => .ok m
  | none => .error .deviceSectorOffsetExceeded

def selfDisk : Device := diskOf [(0, putEntry emptyRecord 0 0 0xF 1 8), (1, putEntry emptyRecord 0 0 0xF 0 8)]

def zeroDisk : Device := diskOf [(0, putEntry emptyRecord 0 0 0xF 0 8)]

/-- A chain that leads back to itself is followed for ever, and sector 0 trips the assertion. -/
theorem enumeration_fails : (∀ fuel, diskRetrievePartitionsFromDisk fuel selfDisk = .error .fuel) ∧
      ∀ fuel, diskRetrievePartitionsFromDisk (fuel + 2) zeroDisk = .error .check := by
  constructor
  · have hlink : link selfDisk 1 1 = some 1 := by decide
    have hfirst : (firstExtended selfDisk).map Entry.firstSectorLba = some 1 := by decide
    have hends : ¬ Ends (link selfDisk 1) 1 := by
      rintro ⟨n, hn⟩
      have hfollow : follow (link selfDisk 1) n 1 = some 1 := by
        clear hn
        induction n with
        | zero => rfl
        | succ n ih => rw [follow_succ hlink, ih]
      rw [hfollow] at hn
      cases hn
    intro fuel
    obtain ⟨e, he, hlba⟩ := Option.map_eq_some_iff.mp hfirst
    cases fuel with
    | zero => rfl
    | succ fuel =>
      obtain ⟨count', found', heq⟩ := retrieve_some false 0 fuel [] (by simp : (false ^^ decide (0 = 0)) = true) he
      rw [diskRetrievePartitionsFromDisk, heq, hlba]
      rw [show wadd 32 1 0 = 1 by decide]
      rw [if_neg (by decide), retrieve_endless _ _ _ _ (by decide) hends]
      rfl
  · have hfirst : (firstExtended zeroDisk).map Entry.firstSectorLba = some 0 := by decide
    intro fuel
    obtain ⟨e, he, hlba⟩ := Option.map_eq_some_iff.mp hfirst
    obtain ⟨count', found', heq⟩ :=
      retrieve_some false 0 (fuel + 1) [] (by simp : (false ^^ decide (0 = 0)) = true) he
    rw [diskRetrievePartitionsFromDisk, heq, hlba, if_neg (by decide),
      diskRetrievePartitionsFromDiskStartingAtOffset, ensure_neg (by decide)]
    rfl

end HAL9000.Disk
