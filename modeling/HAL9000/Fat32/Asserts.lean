import HAL9000.Fat32.Buffers

/-!
# FAT32: assertions on what is stored in a directory

`FatSearchDirectoryEntry` and `FatQueryDirectory` assert that the pieces of long names fit into their buffer
and that the dates of a file are valid, and `strncpy` asserts that a name is not empty. The dates matter only
where the call returns them, and the short name only where no long name has been put together. `never_asserts`
says exactly at which places an assertion fails.
-/

namespace HAL9000.Fat32
open Lib Prog

variable {fd : FatData} {v : Volume} {disk : Mem} {c type size : Nat} {entries : Mem} {a : Nat}
  {name : List UInt8} {info : Bool}

/-- The day and the month are not 0, and nothing is too large (C `ConvertFatDateTimeToDateTime`). -/
def ValidDateTime (fatDate fatTime : Nat) : Prop :=
  1 ≤ fatDate % 2 ^ 5 ∧ 1 ≤ fatDate / 2 ^ 5 % 2 ^ 4 ∧ fatDate / 2 ^ 5 % 2 ^ 4 ≤ 12 ∧
    fatTime % 2 ^ 5 ≤ 29 ∧ fatTime / 2 ^ 5 % 2 ^ 6 ≤ 59 ∧ fatTime / 2 ^ 11 % 2 ^ 5 ≤ 23

instance {x y : Nat} : Decidable (ValidDateTime x y) := inferInstanceAs (Decidable (_ ∧ _))

/-- The entry is not the one of the volume, and its creation or its last change has no valid date. -/
def BadDates (entries : Mem) (a : Nat) : Prop :=
  isBooleanFlagOn (dirAttr entries a) attrVolumeId = false ∧
    ¬ (ValidDateTime (readLE entries (a + 0x10) 2) (readLE entries (a + 0xE) 2) ∧
      ValidDateTime (readLE entries (a + 0x18) 2) (readLE entries (a + 0x16) 2))

instance : Decidable (BadDates entries a) := inferInstanceAs (Decidable (_ ∧ _))

/-- The short name of an entry. -/
def shortNameAt (entries : Mem) (a : Nat) : List UInt8 :=
  (convertFatNameToName (fun i => entries (a + i)) shortNameMaxLength).1.toOption.getD []

/-- The length of the short name of an entry. -/
def shortLengthAt (entries : Mem) (a : Nat) : Nat :=
  (convertFatNameToName (fun i => entries (a + i)) shortNameMaxLength).2

/-- A date is refused just if it is not valid. -/
lemma demandDateTime_cases (x y : Nat) : (¬ ValidDateTime x y ∧ demandDateTime x y = .error .check) ∨
    (ValidDateTime x y ∧ ∃ t, demandDateTime x y = .ok t) := by
  rw [demandDateTime, convertFatDateTimeToDateTime, ValidDateTime]
  dsimp only
  split_ifs with h1 h2
  · exact .inl ⟨by omega, rfl⟩
  · exact .inl ⟨by omega, rfl⟩
  · exact .inr ⟨by omega, _, rfl⟩

/-- The assertion on the dates (C `_FatPopulateFileInformationFromFatEntry`). -/
lemma fatPopulate_check : fatPopulateFileInformationFromFatEntry fd entries a = .error .check ↔
    BadDates entries a := by
  rw [fatPopulateFileInformationFromFatEntry, BadDates]
  cases hvol : isBooleanFlagOn (dirAttr entries a) attrVolumeId with
  | true => simp
  | false =>
    rw [if_neg (by simp)]
    rcases demandDateTime_cases (readLE entries (a + 0x10) 2) (readLE entries (a + 0xE) 2) with
      ⟨h1, ht1⟩ | ⟨h1, t1, ht1⟩
    · rw [ht1]
      exact iff_of_true rfl ⟨rfl, fun h => h1 h.1⟩
    · rcases demandDateTime_cases (readLE entries (a + 0x18) 2) (readLE entries (a + 0x16) 2) with
        ⟨h2, ht2⟩ | ⟨h2, t2, ht2⟩
      · rw [ht1, bind_okay, ht2]
        exact iff_of_true rfl ⟨rfl, fun h => h2 h.2⟩
      · rw [ht1, bind_okay, ht2, bind_okay]
        exact iff_of_false (by simp) fun h => h.2 ⟨h1, h2⟩

/-- The buffer for short names is large enough. -/
lemma convertFatNameToName_ok (fatName : Mem) {st : Status} {n : Nat} :
    convertFatNameToName fatName shortNameMaxLength ≠ (.error st, n) := by
  intro h
  have hlen := convertFatNameToName_length fatName
  simp only [convertFatNameToName, apply_ite Prod.snd, ite_self] at hlen
  rw [convertFatNameToName] at h
  rw [if_neg (Nat.not_le.mpr hlen)] at h
  split at h
  · cases h
  · cases h

/-- A short name can always be converted. -/
lemma convertFatNameToName_eq (entries : Mem) (a : Nat) :
    convertFatNameToName (fun i => entries (a + i)) shortNameMaxLength =
      (.ok (shortNameAt entries a), shortLengthAt entries a) := by
  rw [shortNameAt, shortLengthAt]
  rcases h : convertFatNameToName (fun i => entries (a + i)) shortNameMaxLength with ⟨st | l, n⟩
  · exact absurd h (convertFatNameToName_ok _)
  · rfl

/-- An assertion fails in a search at this place: a piece of a long name does not fit, or the information about the
    file that is found is asked for and its dates are not valid. -/
def Place.SearchAsserts (fd : FatData) (disk : Mem) (name : List UInt8) (type : Nat) (info : Bool)
    (q : Place Unit) : Prop :=
  isFree (q.entries fd disk) q.offset = false ∧
    (isLong (q.entries fd disk) q.offset = true ∧ ¬ LongInside (q.entries fd disk) q.offset ∨
      isLong (q.entries fd disk) q.offset = false ∧
        (clStricmp (stringOf (longNameMaxChars + 1) q.longName) name = 0 ∨
          clStricmp (shortNameAt (q.entries fd disk) q.offset) name = 0) ∧
        dirAttr (q.entries fd disk) q.offset &&& (attrDirectory ||| attrVolumeId) = type ∧
        IsData fd (dirCluster (q.entries fd disk) q.offset) ∧ info = true ∧ BadDates (q.entries fd disk) q.offset)

/-- The length of the name in a listing: the one of the short name if there is no long one. -/
def Place.nameLength (fd : FatData) (disk : Mem) (q : Place Listing) : Nat :=
  if stringOf longNameMaxChars q.longName = [] then shortLengthAt (q.entries fd disk) q.offset
  else (stringOf longNameMaxChars q.longName).length

/-- An assertion fails in a listing at this place: a piece of a long name does not fit, the file has no name, or
    there is room for its information and its dates are not valid. -/
def Place.QueryAsserts (fd : FatData) (disk : Mem) (size : Nat) (q : Place Listing) : Prop :=
  isFree (q.entries fd disk) q.offset = false ∧
    (isLong (q.entries fd disk) q.offset = true ∧ ¬ LongInside (q.entries fd disk) q.offset ∨
      isLong (q.entries fd disk) q.offset = false ∧
        (q.nameLength fd disk = 0 ∨
          wadd 32 q.acc.requiredSize (sizeofDirectoryRecord + q.nameLength fd disk) ≤ size ∧
            BadDates (q.entries fd disk) q.offset))

instance {q : Place Unit} : Decidable (q.SearchAsserts fd disk name type info) :=
  inferInstanceAs (Decidable (_ ∧ _))

instance {q : Place Listing} : Decidable (q.QueryAsserts fd disk size) := inferInstanceAs (Decidable (_ ∧ _))

/-- The assertion at a short entry (C `FatSearchDirectoryEntry`). -/
lemma searchVisit_check (g : Geometry fd) {sector : Nat} {longName : Mem} :
    searchVisit fd name type info sector entries a longName () v = .error .check ↔
      (clStricmp (stringOf (longNameMaxChars + 1) longName) name = 0 ∨ clStricmp (shortNameAt entries a) name = 0) ∧
        dirAttr entries a &&& (attrDirectory ||| attrVolumeId) = type ∧
        IsData fd (dirCluster entries a) ∧ info = true ∧ BadDates entries a := by
  rw [searchVisit, convertFatNameToName_eq]
  dsimp only
  by_cases hname : clStricmp (stringOf (longNameMaxChars + 1) longName) name = 0 ∨
      clStricmp (shortNameAt entries a) name = 0
  swap
  · rw [if_neg hname]
    exact iff_of_false (by simp) fun h => hname h.1
  rw [if_pos hname]
  by_cases htype : dirAttr entries a &&& (attrDirectory ||| attrVolumeId) = type
  swap
  · rw [if_pos htype]
    exact iff_of_false (by simp) fun h => htype h.2.1
  rw [if_neg (not_not.mpr htype)]
  cases hs : firstSectorOfCluster fd (dirCluster entries a) with
  | error st =>
    refine iff_of_false ?_ fun h => ?_
    · rw [bind_of_fail (show ofExcept (.error st) v = .ok (.error st, v) from rfl)]
      simp
    · rw [firstSectorOfCluster_ok g.clustered h.2.2.1] at hs
      cases hs
  | ok sector =>
    have hdata := ((firstSectorOfCluster_eq_ok g).mp hs).1
    rw [ofExcept_ok_bind]
    cases info with
    | false => exact iff_of_false (by simp) (by simp)
    | true =>
      rw [if_pos rfl, bind_eq_fault, ofExec_eq_fault, fatPopulate_check]
      simp [hname, htype, hdata]

/-- The assertions at a short entry (C `FatQueryDirectory`). -/
lemma queryVisit_check {sector : Nat} {q : Place Listing} :
    queryVisit fd size sector (q.entries fd disk) q.offset q.longName q.acc v = .error .check ↔
      q.nameLength fd disk = 0 ∨ wadd 32 q.acc.requiredSize (sizeofDirectoryRecord + q.nameLength fd disk) ≤ size ∧
        BadDates (q.entries fd disk) q.offset := by
  rw [queryVisit, convertFatNameToName_eq]
  dsimp only
  have hname : (stringOf longNameMaxChars q.longName = [] → shortLengthAt (q.entries fd disk) q.offset ≠ 0) ↔
      q.nameLength fd disk ≠ 0 := by
    rw [Place.nameLength]
    split <;> simp_all
  by_cases h0 : q.nameLength fd disk = 0
  · rw [assert_neg (fun h => hname.mp h h0), fault_bind]
    exact iff_of_true rfl (.inl h0)
  rw [assert_pos (hname.mpr h0), pure_bind]
  by_cases hle : wadd 32 q.acc.requiredSize (sizeofDirectoryRecord + q.nameLength fd disk) ≤ size
  · refine (iff_of_eq (congrArg (· = _) (congrFun (if_pos hle) v))).trans ?_
    rw [bind_eq_fault, ofExec_eq_fault, fatPopulate_check]
    simp [h0, hle]
  · refine (iff_of_eq (congrArg (· = _) (congrFun (if_neg hle) v))).trans ?_
    simp [h0, hle]

/-- An assertion fails in a search or in a listing just if it gets to a place where this happens, whatever lies
    behind the buffers. -/
theorem never_asserts (g : Geometry fd) (hc : IsData fd c) :
    (∀ past name type info, StopsUnless fd
      (fatSearchDirectoryEntry fd past · (sectorOf fd c) name type info) v .check
      (∀ q, SearchGets fd past v c name type info q → ¬ q.SearchAsserts fd v.disk name type info)) ∧
    ∀ past size, StopsUnless fd (fatQueryDirectory fd past · (sectorOf fd c) size) v .check
      (∀ q, QueryGets fd past v c size q → ¬ q.QueryAsserts fd v.disk size) := by
  refine ⟨fun past name type info => ?_, fun past size => ?_⟩
  · have hfault : ∀ q : Place Unit, q.Faults fd past v.disk (searchVisit fd name type info) .check ↔
        q.SearchAsserts fd v.disk name type info := by
      intro q
      rw [Place.Faults, Place.look_fault, searchVisit_check g, Place.SearchAsserts]
      simp
    have h := search_stops (e := .check) g hc (by simp) past v name type info
    simpa only [hfault] using h
  · have hfault : ∀ q : Place Listing, q.Faults fd past v.disk (queryVisit fd size) .check ↔
        q.QueryAsserts fd v.disk size := by
      intro q
      rw [Place.Faults, Place.look_fault, queryVisit_check, Place.QueryAsserts]
      simp
    have h := query_stops (e := .check) g hc (by simp) past v size
    simpa only [hfault] using h

/-- In a directory with a long name in front of a short name of spaces no assertion fails. -/
theorem never_asserts_twoFiles :
    (∀ fuel, fatSearchDirectoryEntry sampleData (fun _ => none) fuel 545 [98] attrNormal true ⟨twoFiles, 0⟩ ≠
      .error .check) ∧
    ∀ fuel, fatQueryDirectory sampleData (fun _ => none) fuel 545 1000 ⟨twoFiles, 0⟩ ≠ .error .check := by
  obtain ⟨hsearch, hquery⟩ := never_asserts (v := ⟨twoFiles, 0⟩) (c := 2) sampleData_geometry (by decide)
  refine ⟨(hsearch (fun _ => none) [98] attrNormal true).1 ?_, (hquery (fun _ => none) 1000).1 ?_⟩
  · rintro q ⟨k, hk⟩
    exact forall_follow (P := fun q => ¬ q.SearchAsserts sampleData twoFiles [98] attrNormal true) 3
      (by decide) (by decide) k q hk
  · rintro q ⟨k, hk⟩
    exact forall_follow (P := fun q => ¬ q.QueryAsserts sampleData twoFiles 1000) 3 (by decide) (by decide) k q hk

def undatedFile : Mem := fun i =>
  if i = 545 * 512 then 65 else if i = 545 * 512 + 0x1A then 2
  else if 545 * 512 < i ∧ i < 545 * 512 + 11 then 32 else 0

def strayPiece : Mem := fun i =>
  if i = 545 * 512 then 0x40 else if i = 545 * 512 + 1 then 65
  else if i = 545 * 512 + 11 then 0x0F else 0

/-- A search for a file without dates, the listing of its directory, and a search in a directory with a stray
    piece of a long name: an assertion fails in each. -/
theorem undated_file_asserts :
    fatSearchDirectoryEntry sampleData (fun _ => none) 1 545 [65] attrNormal true ⟨undatedFile, 0⟩ =
      .error .check ∧
    fatQueryDirectory sampleData (fun _ => none) 1 545 100 ⟨undatedFile, 0⟩ = .error .check ∧
    fatSearchDirectoryEntry sampleData (fun _ => none) 1 545 [65] attrNormal false ⟨strayPiece, 0⟩ =
      .error .check := by
  refine ⟨?_, ?_, ?_⟩
  · rfl
  · rfl
  · rfl

end HAL9000.Fat32
