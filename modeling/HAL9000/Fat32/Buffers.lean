import HAL9000.Fat32.Places

/-!
# FAT32: the buffers of the directory loop

`FatSearchDirectoryEntry` and `FatQueryDirectory` look at the first byte of the entry behind the current
one before they find out that the cluster is at its end, and write the zero byte behind a long name
wherever the ordinal of its last entry points to. A call leaves its buffers just if it gets to such an
ordinal, or goes on behind the last entry of the first cluster (`stays_in_buffers`).

To look at what is behind a buffer is a fault here: nothing is known of the memory there.
-/

namespace HAL9000.Fat32
open Lib Prog

variable {fd : FatData} {v : Volume} {disk entries : Mem} {a c : Nat}

/-- The number of a piece of a long name, without the mark of the last one. -/
def longOrdinal (entries : Mem) (a : Nat) : Nat := (entries a).toNat &&& wnot 32 longNameOrdEndMask

/-- Number of characters in a piece of a long name. -/
def longLength (entries : Mem) (a : Nat) : Nat := ((longChars entries a).takeWhile (· ≠ 0)).length

/-- Where the characters of a piece are written to. -/
def longIndex (entries : Mem) (a : Nat) : Nat := longNameTotalChars * wsub 32 (longOrdinal entries a) 1 % 2 ^ 32

/-- The piece has no characters, or they lie in the first 255 of the name. -/
def LongInside (entries : Mem) (a : Nat) : Prop := longLength entries a = 0 ∨ 1 ≤ longOrdinal entries a ∧
    longNameTotalChars * (longOrdinal entries a - 1) + longLength entries a ≤ longNameMaxChars

/-- The piece is marked as the last one and has no characters, and its ordinal is not one of a name that fits:
    the zero byte is written outside of the buffer. -/
def StrayEnd (entries : Mem) (a : Nat) : Prop :=
  isBooleanFlagOn (entries a).toNat longNameOrdEndMask = true ∧ longLength entries a = 0 ∧
    (longOrdinal entries a = 0 ∨ 20 < longOrdinal entries a)

instance : Decidable (LongInside entries a) := inferInstanceAs (Decidable (_ ∨ _))

instance : Decidable (StrayEnd entries a) := inferInstanceAs (Decidable (_ ∧ _))

/-- An ordinal is a byte. -/
lemma longOrdinal_lt (entries : Mem) (a : Nat) : longOrdinal entries a < 256 :=
  Nat.lt_of_le_of_lt Nat.and_le_left (entries a).toNat_lt

/-- The ordinal 0 wraps around. -/
lemma longIndex_eq (entries : Mem) (a : Nat) : longIndex entries a =
    if longOrdinal entries a = 0 then 2 ^ 32 - 13 else 13 * (longOrdinal entries a - 1) := by
  have hlt := longOrdinal_lt entries a
  rw [longIndex, longNameTotalChars]
  split
  · next h =>
    rw [h]
    decide
  · rw [wsub_eq (by omega) (by omega), Nat.mod_eq_of_lt (by omega)]

/-- The loops over the characters of a piece succeed just if it is empty or fits, and end behind it. -/
lemma writeLongChars_success (cs : List UInt8) (i : Nat) (buffer : Mem) :
    ((writeLongChars (longNameMaxChars + 1) cs i buffer).1 = .success ↔
      (cs.takeWhile (· ≠ 0)).length = 0 ∨ i + (cs.takeWhile (· ≠ 0)).length ≤ longNameMaxChars) ∧
    ((writeLongChars (longNameMaxChars + 1) cs i buffer).1 = .success →
      (writeLongChars (longNameMaxChars + 1) cs i buffer).2.1 = i + (cs.takeWhile (· ≠ 0)).length) := by
  have hsize : wsub 32 (longNameMaxChars + 1) 1 = longNameMaxChars := by decide
  induction cs generalizing i buffer with
  | nil => simp [writeLongChars]
  | cons c cs ih =>
    rw [writeLongChars, hsize]
    by_cases h0 : c = 0
    · simp [h0]
    · rw [if_neg h0, List.takeWhile_cons_of_pos (by simpa using h0), List.length_cons]
      split
      · exact ⟨iff_of_false (by simp) (by omega), by simp⟩
      · obtain ⟨h1, h2⟩ := ih (i + 1) (Function.update buffer i c)
        exact ⟨h1.trans (by omega), fun h => (h2 h).trans (by omega)⟩

/-- What becomes of a piece (C `WritePartialLongFatNameToName`). -/
lemma writePartialLongFatNameToName_cases (entries : Mem) (a : Nat) (buffer : Mem) :
    (¬ LongInside entries a ∧ ∃ st m, st ≠ .success ∧
      writePartialLongFatNameToName entries a (longNameMaxChars + 1) buffer = .ok (st, m)) ∨
    (StrayEnd entries a ∧ LongInside entries a ∧
      writePartialLongFatNameToName entries a (longNameMaxChars + 1) buffer = .error .wild) ∨
    (¬ StrayEnd entries a ∧ LongInside entries a ∧ ∃ m,
      writePartialLongFatNameToName entries a (longNameMaxChars + 1) buffer = .ok (.success, m)) := by
  obtain ⟨hsucc, hindex⟩ := writeLongChars_success (longChars entries a) (longIndex entries a) buffer
  have hlt := longOrdinal_lt entries a
  have heq := longIndex_eq entries a
  have hinside : LongInside entries a ↔
      longLength entries a = 0 ∨ longIndex entries a + longLength entries a ≤ longNameMaxChars := by
    rw [LongInside, heq, longNameTotalChars, longNameMaxChars]
    split <;> omega
  rcases hw : writeLongChars (longNameMaxChars + 1) (longChars entries a) (longIndex entries a) buffer with
    ⟨st, j, m⟩
  rw [hw, ← longLength, ← hinside] at hsucc
  rw [hw, ← longLength] at hindex
  rw [writePartialLongFatNameToName, ← longOrdinal, ← longIndex, hw]
  by_cases hst : st = .success
  · subst hst
    obtain rfl : j = _ := hindex rfl
    have hin := hsucc.mp rfl
    dsimp only
    by_cases hflag : isBooleanFlagOn (entries a).toNat longNameOrdEndMask = true
    · rw [if_pos hflag]
      by_cases hlt : longIndex entries a + longLength entries a < longNameMaxChars + 1
      · rw [if_pos hlt]
        refine .inr (.inr ⟨?_, hin, _, rfl⟩)
        rintro ⟨-, h0, hord⟩
        rw [longNameMaxChars] at hlt
        split at heq <;> omega
      · rw [if_neg hlt]
        refine .inr (.inl ⟨⟨hflag, ?_⟩, hin, rfl⟩)
        rw [hinside] at hin
        rw [longNameMaxChars] at hin hlt
        split at heq <;> omega
    · rw [if_neg hflag]
      exact .inr (.inr ⟨fun h => hflag h.1, hin, _, rfl⟩)
  · refine .inl ⟨mt hsucc.mpr hst, st, m, hst, ?_⟩
    split
    · next h => exact absurd (congrArg Prod.fst h) hst
    · next h =>
      cases h
      rfl

/-- The name ends within its eight characters. -/
lemma lastSpaceIndex_le (name : Mem) : lastSpaceIndex name ≤ shortNameName := by
  rw [lastSpaceIndex]
  refine List.foldlRecOn (motive := fun n => n ≤ shortNameName) _ _ le_rfl fun n hn i hi => ?_
  have hlt := List.mem_range.mp hi
  split
  · split
    · omega
    · exact hn
  · exact le_rfl

/-- A short name fits in its buffer. -/
lemma convertFatNameToName_length (fatName : Mem) :
    (convertFatNameToName fatName shortNameMaxLength).2 < shortNameMaxLength := by
  have hname := (stringOf_length_le (lastSpaceIndex fatName) fatName).trans (lastSpaceIndex_le fatName)
  have hext : (((List.range shortNameExt).map fun i => fatName (i + shortNameName)).takeWhile
      (· ≠ 32)).length ≤ 3 := by
    refine (List.takeWhile_prefix _).length_le.trans ?_
    rw [List.length_map, List.length_range]
    rfl
  have hlen : ∀ x y : Nat, x ≤ shortNameName → y ≤ 3 →
      x + y + (if 0 ≠ y then 1 else 0) < shortNameMaxLength := by
    intro x y hx hy
    unfold shortNameName at hx
    unfold shortNameMaxLength
    split
    · omega
    · omega
  have h := hlen _ _ hname hext
  simp only [convertFatNameToName, apply_ite Prod.snd, ite_self]
  exact h

section Calls

variable {ρ β : Type} {visit : Visitor ρ β} {q : Place ρ}

/-- At this place a call leaves its buffers: the zero byte behind a long name is written outside of the buffer
    for it, or the call goes on behind the last entry of the cluster. -/
def Place.Leaves (fd : FatData) (disk : Mem) (visit : Visitor ρ β)
    (q : Place ρ) : Prop :=
  isFree (q.entries fd disk) q.offset = false ∧ isLong (q.entries fd disk) q.offset = true ∧
      StrayEnd (q.entries fd disk) q.offset ∨
    q.goesOn fd disk visit = true ∧ q.index + 1 = entriesPerCluster fd

instance : Decidable (q.Leaves fd disk visit) := inferInstanceAs (Decidable (_ ∨ _))

/-- What stops a call at a place: a piece of a long name that does not fit, the zero byte behind a long name, or
    the visit of a short entry. -/
lemma Place.look_fault {e : Fault} : q.look fd disk visit = .error e ↔ isFree (q.entries fd disk) q.offset = false ∧
    (isLong (q.entries fd disk) q.offset = true ∧ (¬ LongInside (q.entries fd disk) q.offset ∧ e = .check ∨
        StrayEnd (q.entries fd disk) q.offset ∧ e = .wild) ∨
      isLong (q.entries fd disk) q.offset = false ∧ visit (sectorOf fd q.cluster) (q.entries fd disk) q.offset
        q.longName q.acc ⟨disk, q.reads⟩ = .error e) := by
  cases hf : isFree (q.entries fd disk) q.offset with
  | true => simp [Place.look_free hf]
  | false =>
    cases hl : isLong (q.entries fd disk) q.offset with
    | true =>
      rw [Place.look_long hf hl]
      rcases writePartialLongFatNameToName_cases (q.entries fd disk) q.offset q.longName with
        ⟨hno, st, m, hst, h⟩ | ⟨hend, hin, h⟩ | ⟨hend, hin, m, h⟩
      · have hend : ¬ StrayEnd (q.entries fd disk) q.offset := fun hs => hno (.inl hs.2.1)
        simp [h, Except.bind, hst, hno, hend, eq_comm]
      · simp [h, Except.bind, hend, hin, eq_comm]
      · simp [h, Except.bind, hend, hin]
    | false =>
      rw [Place.look_short hf hl]
      rcases h : visit (sectorOf fd q.cluster) (q.entries fd disk) q.offset q.longName q.acc ⟨disk, q.reads⟩ with
        e | r
      · simp [Except.map]
      · simp [Except.map]

/-- If nothing is known of the memory behind the buffers, leaving them is the fault. -/
lemma Place.faults_wild
    (hv : ∀ v sector m a name acc, Runs (· = .wild) (visit sector m a name acc) v fun _ v' => v' = v) :
    q.Faults fd (fun _ => none) disk visit .wild ↔ q.Leaves fd disk visit := by
  have hne : visit (sectorOf fd q.cluster) (q.entries fd disk) q.offset q.longName q.acc ⟨disk, q.reads⟩ ≠
      .error .wild := (hv ..).ne rfl
  rw [Place.Faults, Place.look_fault, Place.Leaves]
  simp [hne, and_comm]

/-- A search or a listing leaves its buffers just if it gets to a place where this happens. The buffer for short
    names is always large enough. -/
theorem stays_in_buffers (g : Geometry fd) (hc : IsData fd c) :
    (∀ name type info, StopsUnless fd
      (fatSearchDirectoryEntry fd (fun _ => none) · (sectorOf fd c) name type info) v .wild
      (∀ q, SearchGets fd (fun _ => none) v c name type info q →
        ¬ q.Leaves fd v.disk (searchVisit fd name type info))) ∧
    (∀ size, StopsUnless fd (fatQueryDirectory fd (fun _ => none) · (sectorOf fd c) size) v .wild
      (∀ q, QueryGets fd (fun _ => none) v c size q → ¬ q.Leaves fd v.disk (queryVisit fd size))) ∧
    ∀ fatName, (convertFatNameToName fatName shortNameMaxLength).2 < shortNameMaxLength := by
  refine ⟨fun name type info => ?_, fun size => ?_, convertFatNameToName_length⟩
  · have h := search_stops (e := .wild) g hc (by simp) (fun _ => none) v name type info
    simpa only [Place.faults_wild fun _ _ _ _ _ _ => searchVisit_runs (by simp)] using h
  · have h := query_stops (e := .wild) g hc (by simp) (fun _ => none) v size
    simpa only [Place.faults_wild fun _ _ _ _ _ _ => queryVisit_runs (by simp)] using h

/-- A short entry with valid dates. -/
def shortBytes (b cluster : UInt8) : List UInt8 :=
  b :: List.replicate 10 32 ++ [0, 0, 0, 0, 0, 33, 0, 0, 0, 0, 0, 0, 0, 33, 0, cluster, 0, 0, 0, 0, 0]

/-- The only piece of the long name "b". -/
def pieceBytes : List UInt8 := [0x41, 98, 0, 0, 0, 0, 0, 0, 0, 0, 0, 0x0F] ++ List.replicate 20 0

/-- A root directory with the file "A" and one that has the long name "b" and a short name of spaces. -/
def twoFiles : Mem := fun i =>
  if i < 545 * 512 then 0 else (shortBytes 65 3 ++ pieceBytes ++ shortBytes 32 4).getD (i - 545 * 512) 0

/-- A search for the long name and a listing stay in their buffers. -/
theorem stays_in_buffers_twoFiles :
    (∀ fuel, fatSearchDirectoryEntry sampleData (fun _ => none) fuel 545 [98] attrNormal true ⟨twoFiles, 0⟩ ≠
      .error .wild) ∧
    ∀ fuel, fatQueryDirectory sampleData (fun _ => none) fuel 545 1000 ⟨twoFiles, 0⟩ ≠ .error .wild := by
  obtain ⟨hsearch, hquery, -⟩ := stays_in_buffers (v := ⟨twoFiles, 0⟩) (c := 2) sampleData_geometry (by decide)
  refine ⟨(hsearch [98] attrNormal true).1 ?_, (hquery 1000).1 ?_⟩
  · rintro q ⟨k, hk⟩
    exact forall_follow (P := fun q =>
      ¬ q.Leaves sampleData twoFiles (searchVisit sampleData [98] attrNormal true)) 3
      (by decide) (by decide) k q hk
  · rintro q ⟨k, hk⟩
    exact forall_follow (P := fun q => ¬ q.Leaves sampleData twoFiles (queryVisit sampleData 1000)) 3 (by decide)
      (by decide) k q hk

def strayLongName : Mem := fun i => if i = 545 * 512 then 0x40 else if i = 545 * 512 + 11 then 0x0F else 0

/-- A search in a cluster full of entries looks behind its buffer, and one that meets a stray entry of
    a long name writes outside of the buffer for it. -/
theorem leaves_buffers :
    fatSearchDirectoryEntry sampleData (fun _ => none) 17 545 [66] attrNormal false ⟨fun _ => 0x41, 0⟩ =
      .error .wild ∧
    fatQueryDirectory sampleData (fun _ => none) 1 545 0 ⟨strayLongName, 0⟩ = .error .wild := by
  constructor
  · rfl
  · rfl

end Calls

end HAL9000.Fat32
