import Mathlib.Data.List.TakeWhile
import HAL9000.Fat32.Asserts

/-!
# FAT32: files with long names

A long name is stored in pieces of 13 characters, the last one first, before the short entry of the file.
The loop of `FatSearchDirectoryEntry` puts the pieces together again. It takes an entry for a free one if
its first byte is 5, and this is the ordinal of the fifth piece of a name that has more of them. Names of
up to 65 characters are found. Longer ones are passed over, unless the buffer happens to hold their fifth
piece from before (`long_name_found`).

Entries are counted through the clusters of a directory.
-/

namespace HAL9000.Fat32
open Lib Prog Function List

variable {fd : FatData} {v : Volume} {disk : Mem} {past : Nat → Option UInt8} {cs : List Nat}
  {c d fuel j k n p type : Nat} {info : Bool} {name : List UInt8} {m m' m0 : Mem}

/-- The cluster with entry `j` of a directory. -/
def entryCluster (fd : FatData) (cs : List Nat) (j : Nat) : Nat := cs.getD (j / entriesPerCluster fd) 0

/-- The buffer with entry `j` of a directory. -/
def entriesAt (fd : FatData) (disk : Mem) (cs : List Nat) (j : Nat) : Mem :=
  clusterBytes fd disk (entryCluster fd cs j)

/-- Where entry `j` of a directory is in the buffer. -/
def entryOffset (fd : FatData) (j : Nat) : Nat := sizeofDirEntry * (j % entriesPerCluster fd)

/-- A search that has made `n` reads before is at entry `j`: two more for every cluster. -/
def placeAt (fd : FatData) (cs : List Nat) (n j : Nat) (longName : Mem) : Place Unit :=
  ⟨entryCluster fd cs j, j % entriesPerCluster fd, n + 1 + 2 * (j / entriesPerCluster fd), longName, ()⟩

/-- Where a cluster ends between the entries `j` and `k`, the byte behind its buffer is not zero. -/
def Padded (fd : FatData) (past : Nat → Option UInt8) (n j k : Nat) : Prop :=
  ∀ t, j / entriesPerCluster fd ≤ t → t < k / entriesPerCluster fd → (past (n + 1 + 2 * t)).getD freeAll ≠ freeAll

/-- The next entry is in the same cluster. -/
lemma succ_inside (h : j % entriesPerCluster fd + 1 < entriesPerCluster fd) :
    (j + 1) / entriesPerCluster fd = j / entriesPerCluster fd ∧
      (j + 1) % entriesPerCluster fd = j % entriesPerCluster fd + 1 := by
  refine (Nat.div_mod_unique (by omega)).mpr ⟨?_, h⟩
  have := Nat.mod_add_div j (entriesPerCluster fd)
  omega

/-- The next entry is the first one of a cluster. -/
lemma succ_behind (fd : FatData) (j : Nat) (h : j % entriesPerCluster fd + 1 = entriesPerCluster fd) :
    (j + 1) / entriesPerCluster fd = j / entriesPerCluster fd + 1 ∧ (j + 1) % entriesPerCluster fd = 0 := by
  refine (Nat.div_mod_unique (by omega)).mpr ⟨?_, by omega⟩
  have := Nat.mod_add_div j (entriesPerCluster fd)
  rw [Nat.mul_add]
  omega

/-- Behind an entry a search goes on with the next one. -/
lemma behind_placeAt (g : Geometry fd) (hch : Chain fd disk cs) (hj : j + 1 < cs.length * entriesPerCluster fd)
    (hmark : entriesAt fd disk cs (j + 1) (entryOffset fd (j + 1)) ≠ freeAll) (hpast : Padded fd past n j (j + 1)) :
    (placeAt fd cs n j m).behind fd past disk () m' = some (placeAt fd cs n (j + 1) m') := by
  have hlt := Nat.mod_lt j (entriesPerCluster_pos g)
  rw [Place.behind, placeAt, placeAt]
  dsimp only
  by_cases hin : j % entriesPerCluster fd + 1 < entriesPerCluster fd
  · obtain ⟨hdiv, hmod⟩ := succ_inside hin
    rw [entriesAt, entryCluster, entryOffset, hdiv, hmod] at hmark
    rw [if_pos hin, entryCluster, entryCluster, hdiv, hmod, if_neg hmark]
  · obtain ⟨hdiv, hmod⟩ := succ_behind fd j (by omega)
    have hk : j / entriesPerCluster fd + 1 < cs.length := by
      rw [← hdiv]
      exact Nat.div_lt_of_lt_mul (by rwa [Nat.mul_comm])
    have hb := hpast (j / entriesPerCluster fd) le_rfl (by omega)
    rw [if_neg hin, if_neg hb, entryCluster, hch.linked _ hk, Option.filter_some,
      if_pos (decide_eq_true (hch.isData hk)), entryCluster, hdiv, hmod, Nat.mul_add, ← Nat.add_assoc]
    rfl

/-- A search that passes over an entry gets to the next one. -/
lemma nextPlace_placeAt (g : Geometry fd) (hch : Chain fd disk cs) (hj : j + 1 < cs.length * entriesPerCluster fd)
    (hmark : entriesAt fd disk cs (j + 1) (entryOffset fd (j + 1)) ≠ freeAll) (hpast : Padded fd past n j (j + 1))
    (hl : (placeAt fd cs n j m).look fd disk (searchVisit fd name type info) = .ok (.ok (.next () m'))) :
    nextPlace fd past disk (searchVisit fd name type info) (placeAt fd cs n j m) =
      some (placeAt fd cs n (j + 1) m') := by
  rw [nextPlace, hl]
  exact behind_placeAt g hch hj hmark hpast

/-- Number of pieces of a long name. -/
def pieces (name : List UInt8) : Nat := (name.length + 12) / 13

/-- The characters of a piece: behind the end of the name there is a zero, and then nothing but ones. -/
def pieceChars (name : List UInt8) (k : Nat) : List UInt8 :=
  ((name.drop (13 * k)).take 13 ++ 0 :: List.replicate 12 0xFF).take 13

/-- The entry with a piece of a long name. Its ordinal is one more than the number of the piece, and the last
    one is marked. -/
structure LongPiece (name : List UInt8) (k : Nat) (entries : Mem) (a : Nat) : Prop where
  ordinal : (entries a).toNat = k + 1 + if k + 1 = pieces name then longNameOrdEndMask else 0
  long : isLong entries a = true
  chars : longChars entries a = pieceChars name k

instance {entries : Mem} {a : Nat} : Decidable (LongPiece name k entries a) :=
  decidable_of_iff ((entries a).toNat = k + 1 + (if k + 1 = pieces name then longNameOrdEndMask else 0) ∧
      isLong entries a = true ∧ longChars entries a = pieceChars name k)
    ⟨fun h => ⟨h.1, h.2.1, h.2.2⟩, fun h => ⟨h.1, h.2, h.3⟩⟩

/-- The characters of a piece end with the name. -/
lemma takeWhile_pieceChars (hname : ∀ b ∈ name, b ≠ 0) (k : Nat) :
    (pieceChars name k).takeWhile (· ≠ 0) = (name.drop (13 * k)).take 13 := by
  have hne : ∀ b ∈ (name.drop (13 * k)).take 13, decide (b ≠ 0) = true := fun b hb =>
    decide_eq_true (hname b (mem_of_mem_drop (mem_of_mem_take hb)))
  have hrest : ∀ n, ((0 :: List.replicate 12 (0xFF : UInt8)).take n).takeWhile (· ≠ 0) = [] := by
    intro n
    cases n <;> rfl
  rw [pieceChars, take_append, take_take, Nat.min_self, takeWhile_append_of_pos hne, hrest,
    append_nil]

/-- The characters of a piece are written one after the other, and nothing else changes. -/
lemma writeLongChars_eq {l : List UInt8} {i : Nat} (h : (l.takeWhile (· ≠ 0)).length = 0 ∨
      i + (l.takeWhile (· ≠ 0)).length ≤ longNameMaxChars) :
    ∃ m', writeLongChars (longNameMaxChars + 1) l i m = (.success, i + (l.takeWhile (· ≠ 0)).length, m') ∧
      (∀ x, i ≤ x → x < i + (l.takeWhile (· ≠ 0)).length → m' x = (l.takeWhile (· ≠ 0)).getD (x - i) 0) ∧
      ∀ x, x < i ∨ i + (l.takeWhile (· ≠ 0)).length ≤ x → m' x = m x := by
  have hsize : wsub 32 (longNameMaxChars + 1) 1 = longNameMaxChars := by decide
  induction l generalizing i m with
  | nil => exact ⟨m, rfl, fun x h1 h2 => absurd h2 (Nat.not_lt.mpr h1), fun _ _ => rfl⟩
  | cons b l ih =>
    by_cases hb : b = 0
    · subst hb
      refine ⟨m, rfl, fun x h1 h2 => absurd h2 (Nat.not_lt.mpr h1), fun _ _ => rfl⟩
    · rw [takeWhile_cons_of_pos (by simpa using hb), length_cons] at h ⊢
      obtain ⟨m', hw, hin, hout⟩ := ih (m := update m i b) (i := i + 1) (by omega)
      refine ⟨m', ?_, fun x h1 h2 => ?_, fun x hx => ?_⟩
      · rw [writeLongChars, if_neg hb, hsize, if_neg (by omega), hw]
        congr 2
        omega
      · rcases Nat.lt_or_eq_of_le h1 with h1 | rfl
        · rw [hin x h1 (by omega), show x - i = (x - (i + 1)) + 1 by omega, getD_cons_succ]
        · rw [hout i (.inl (Nat.lt_succ_self i)), update_self, Nat.sub_self, getD_cons_zero]
      · rw [hout x (by omega), update_of_ne (by omega)]

/-- The character at a place after all pieces: those of a fifth piece that is not the last one are left as they
    were. -/
def assembledChar (name : List UInt8) (before : Mem) (x : Nat) : UInt8 :=
  if 65 < name.length ∧ 52 ≤ x ∧ x < 65 then before x else name.getD x 0

/-- The pieces from `k` on have been put together, and the zero is behind them. -/
structure Assembled (name : List UInt8) (before : Mem) (k : Nat) (longName : Mem) : Prop where
  frame : ∀ x < 13 * k, longName x = before x
  chars : ∀ x, 13 * k ≤ x → x < name.length → longName x = assembledChar name before x
  zero : 13 * k < name.length → longName name.length = 0

/-- The first byte of a piece: it is taken for a free entry if it is the fifth and not the last one. -/
lemma LongPiece.byte {entries : Mem} {a : Nat} (h : LongPiece name k entries a) (hk : k < pieces name)
    (hlen : name.length ≤ 254) :
    (isFree entries a = true ↔ k = 4 ∧ 65 < name.length) ∧ longOrdinal entries a = k + 1 ∧
      (isBooleanFlagOn (entries a).toNat longNameOrdEndMask = true ↔ k + 1 = pieces name) := by
  have h20 : pieces name ≤ 20 := by
    unfold pieces
    omega
  have hord := h.ordinal
  have hbits : ∀ k < 20, (k + 1 + longNameOrdEndMask) &&& wnot 32 longNameOrdEndMask = k + 1 ∧
      (k + 1) &&& wnot 32 longNameOrdEndMask = k + 1 ∧
      isBooleanFlagOn (k + 1 + longNameOrdEndMask) longNameOrdEndMask = true ∧
      isBooleanFlagOn (k + 1) longNameOrdEndMask = false := by decide
  obtain ⟨b1, b2, b3, b4⟩ := hbits k (by omega)
  have hfree : isFree entries a = true ↔ (entries a).toNat = 0xE5 ∨ (entries a).toNat = 5 := by
    rw [isFree, decide_eq_true_iff, ← UInt8.toNat_inj, ← UInt8.toNat_inj]
    rfl
  rw [hfree, longOrdinal, hord]
  split
  · next hlast =>
    rw [longNameOrdEndMask] at *
    refine ⟨⟨fun h => by omega, fun h => ?_⟩, b1, iff_of_true b3 hlast⟩
    unfold pieces at hlast
    omega
  · next hlast =>
    rw [Nat.add_zero]
    refine ⟨⟨fun h => ?_, fun h => by omega⟩, b2, iff_of_false (by simp [b4]) hlast⟩
    unfold pieces at hk hlast
    omega

/-- A search passes over a piece, and puts its characters in their place. -/
lemma LongPiece.look {q : Place Unit} (h : LongPiece name k (q.entries fd disk) q.offset) (hk : k < pieces name)
    (hlen : name.length ≤ 254) (hname : ∀ b ∈ name, b ≠ 0) (hm : Assembled name m0 (k + 1) q.longName) :
    ∃ m', q.look fd disk (searchVisit fd name type info) = .ok (.ok (.next () m')) ∧ Assembled name m0 k m' := by
  obtain ⟨hfree, hord, hlast⟩ := h.byte hk hlen
  have hpk : 13 * k < name.length := by
    unfold pieces at hk
    omega
  by_cases hskip : k = 4 ∧ 65 < name.length
  · -- taken for a free entry
    refine ⟨q.longName, Place.look_free (hfree.mpr hskip), fun x hx => hm.frame x (by omega), fun x h1 h2 => ?_,
      fun _ => hm.zero (by omega)⟩
    by_cases hx : x < 65
    · rw [hm.frame x (by omega), assembledChar, if_pos (by omega)]
    · exact hm.chars x (by omega) h2
  have hchars : (longChars (q.entries fd disk) q.offset).takeWhile (· ≠ 0) = (name.drop (13 * k)).take 13 := by
    rw [h.chars, takeWhile_pieceChars hname]
  have hcount : ((longChars (q.entries fd disk) q.offset).takeWhile (· ≠ 0)).length =
      min 13 (name.length - 13 * k) := by
    rw [hchars, length_take, length_drop]
  have hindex : longNameTotalChars * wsub 32 (longOrdinal (q.entries fd disk) q.offset) 1 % 2 ^ 32 = 13 * k := by
    rw [← longIndex, longIndex_eq, hord, if_neg (Nat.succ_ne_zero k), Nat.add_sub_cancel]
  obtain ⟨m1, hw, hin, hout⟩ := writeLongChars_eq (m := q.longName) (l := longChars (q.entries fd disk) q.offset)
    (i := 13 * k) (by
      rw [hcount, longNameMaxChars]
      omega)
  have hget : ∀ x, 13 * k ≤ x → x < 13 * k + min 13 (name.length - 13 * k) →
      m1 x = assembledChar name m0 x := by
    intro x h1 h2
    rw [hin x h1 (by rwa [hcount]), hchars, getD_eq_getElem?_getD, getElem?_take_of_lt (by omega),
      getElem?_drop, Nat.add_sub_cancel' h1, ← getD_eq_getElem?_getD, assembledChar, if_neg (by omega)]
  rw [hcount] at hw hout
  rw [Place.look_long (Bool.eq_false_iff.mpr (mt hfree.mp hskip)) h.long, writePartialLongFatNameToName,
    ← longOrdinal, hindex, hw]
  by_cases hend : k + 1 = pieces name
  · have hstop : 13 * k + min 13 (name.length - 13 * k) = name.length := by
      unfold pieces at hend
      omega
    rw [hstop] at hget hout ⊢
    dsimp only
    rw [if_pos (hlast.mpr hend), if_pos (by rw [longNameMaxChars]; omega)]
    refine ⟨update m1 name.length 0, rfl, fun x hx => ?_, fun x h1 h2 => ?_, fun _ => update_self ..⟩
    · rw [update_of_ne (by omega), hout x (.inl hx), hm.frame x (by omega)]
    · rw [update_of_ne (by omega), hget x h1 h2]
  · have hmore : 13 * (k + 1) < name.length := by
      unfold pieces at hk hend
      omega
    dsimp only
    rw [if_neg (mt hlast.mp hend)]
    refine ⟨m1, rfl, fun x hx => ?_, fun x h1 h2 => ?_, fun _ => ?_⟩
    · rw [hout x (.inl hx), hm.frame x (by omega)]
    · by_cases hx : x < 13 * (k + 1)
      · exact hget x h1 (by omega)
      · rw [hout x (.inr (by omega)), hm.chars x (by omega) h2]
    · rw [hout _ (.inr (by omega)), hm.zero hmore]

/-- The fifth piece is the last one, or what is in the buffer in its place is the same. -/
def Legible (name : List UInt8) (before : Mem) : Prop :=
  name.length ≤ 65 ∨ ∀ x, 52 ≤ x → x < 65 → before x ≠ 0 ∧ toLower (before x) = toLower (name.getD x 0)

/-- A string in the buffer that ends where the name does is the name just if all characters are. -/
lemma stricmp_stringOf (hlen : name.length ≤ 254) (hzero : m name.length = 0) :
    clStricmp (stringOf (longNameMaxChars + 1) m) name = 0 ↔
      ∀ x < name.length, m x ≠ 0 ∧ toLower (m x) = toLower (name.getD x 0) := by
  have hrange : List.range (longNameMaxChars + 1) =
      List.range name.length ++ (List.range (255 - name.length + 1)).map (name.length + ·) := by
    rw [← range_add]
    congr 1
    rw [longNameMaxChars]
    omega
  have hstring : stringOf (longNameMaxChars + 1) m = ((List.range name.length).map m).takeWhile (· ≠ 0) := by
    rw [stringOf, hrange, map_append, takeWhile_append]
    split
    · next hfull =>
      rw [range_succ_eq_map, map_cons, map_cons, takeWhile_cons_of_neg (by simp [hzero]), append_nil]
      exact ((List.takeWhile_prefix _).eq_of_length hfull).symm
    · rfl
  rw [hstring, clStricmp_eq_zero]
  constructor
  · intro h
    have hfull : ((List.range name.length).map m).takeWhile (· ≠ 0) = (List.range name.length).map m := by
      refine (List.takeWhile_prefix _).eq_of_length ?_
      simpa using congrArg length h
    intro x hx
    refine ⟨?_, ?_⟩
    · exact of_decide_eq_true (takeWhile_eq_self_iff.mp hfull (m x) (mem_map.mpr ⟨x, mem_range.mpr hx, rfl⟩))
    · rw [hfull] at h
      simpa [hx] using congrArg (fun l : List UInt8 => l.getD x 0) h
  · intro h
    rw [takeWhile_eq_self_iff.mpr fun b hb => ?_]
    · refine ext_getElem (by simp) fun i h1 h2 => ?_
      have hi : i < name.length := by simpa using h2
      rw [getElem_map, getElem_map, getElem_map, getElem_range, (h i hi).2, getD_eq_getElem _ _ hi]
    · obtain ⟨x, hx, rfl⟩ := mem_map.mp hb
      exact decide_eq_true (h x (mem_range.mp hx)).1

/-- After all pieces the buffer holds the name just if it is legible. -/
lemma Assembled.stricmp (hm : Assembled name m0 0 m) (hpos : 0 < name.length) (hlen : name.length ≤ 254)
    (hname : ∀ b ∈ name, b ≠ 0) :
    clStricmp (stringOf (longNameMaxChars + 1) m) name = 0 ↔ Legible name m0 := by
  rw [stricmp_stringOf hlen (hm.zero (by omega)), Legible]
  have hchar : ∀ x < name.length, m x = assembledChar name m0 x := fun x hx => hm.chars x (Nat.zero_le _) hx
  constructor
  · intro h
    refine or_iff_not_imp_left.mpr fun hlong x h1 h2 => ?_
    have hx := h x (by omega)
    rwa [hchar x (by omega), assembledChar, if_pos (by omega)] at hx
  · intro h x hx
    rw [hchar x hx, assembledChar]
    split
    · next hskip => exact h.resolve_left (by omega) x hskip.2.1 hskip.2.2
    · rw [getD_eq_getElem _ _ hx]
      exact ⟨hname _ (getElem_mem hx), rfl⟩

/-- A file with a long name: its pieces from the entry with number `p` on, the last one first, and its short
    entry behind them. There is no end mark before. -/
structure LongNamed (fd : FatData) (disk : Mem) (cs : List Nat) (p : Nat) (name : List UInt8) : Prop where
  chain : Chain fd disk cs
  pos : 0 < name.length
  length : name.length ≤ 254
  chars : ∀ b ∈ name, b ≠ 0
  inside : p + pieces name < cs.length * entriesPerCluster fd
  marks : ∀ j ≤ p + pieces name, entriesAt fd disk cs j (entryOffset fd j) ≠ freeAll
  piece : ∀ k < pieces name, LongPiece name k (entriesAt fd disk cs (p + (pieces name - 1 - k)))
    (entryOffset fd (p + (pieces name - 1 - k)))
  used : isFree (entriesAt fd disk cs (p + pieces name)) (entryOffset fd (p + pieces name)) = false
  short : isLong (entriesAt fd disk cs (p + pieces name)) (entryOffset fd (p + pieces name)) = false
  cluster : IsData fd (dirCluster (entriesAt fd disk cs (p + pieces name)) (entryOffset fd (p + pieces name)))

/-- The search finds the file: its first sector, and the cluster its short entry is in. -/
def Finds (fd : FatData) (past : Nat → Option UInt8) (cs : List Nat) (p : Nat) (name : List UInt8)
    (type : Nat) (info : Bool) (v : Volume) : Prop :=
  ∀ fuel, p + pieces name < fuel → ∃ found v',
    fatSearchDirectoryEntry fd past fuel (sectorOf fd (cs.getD 0 0)) name type info v =
      .ok (.ok found, v') ∧
    found.sector = sectorOf fd (dirCluster (entriesAt fd v.disk cs (p + pieces name))
      (entryOffset fd (p + pieces name))) ∧
    found.parentSector = sectorOf fd (entryCluster fd cs (p + pieces name))

/-- The search passes over the file, and does not find it if there is an end mark behind it. -/
structure Loses (fd : FatData) (past : Nat → Option UInt8) (cs : List Nat) (p : Nat) (name : List UInt8)
    (type : Nat) (info : Bool) (v : Volume) : Prop where
  passes : ∃ m, SearchGets fd past v (cs.getD 0 0) name type info (placeAt fd cs v.reads (p + pieces name) m) ∧
    (placeAt fd cs v.reads (p + pieces name) m).goesOn fd v.disk (searchVisit fd name type info) = true
  last : (p + pieces name) % entriesPerCluster fd + 1 < entriesPerCluster fd →
    entriesAt fd v.disk cs (p + pieces name) (entryOffset fd (p + pieces name) + sizeofDirEntry) = freeAll →
    ∀ fuel, p + pieces name < fuel → ∃ v',
      fatSearchDirectoryEntry fd past fuel (sectorOf fd (cs.getD 0 0)) name type info v =
        .ok (.error .fileNotFound, v')

/-- A search passes over the pieces of the name. -/
lemma LongNamed.follow (hst : LongNamed fd disk cs p name) (m0 : Mem) (type : Nat) (info : Bool) (g : Geometry fd)
    (hpast : Padded fd past n p (p + pieces name)) (hk : k ≤ pieces name) :
    ∃ m', Lib.follow (nextPlace fd past disk (searchVisit fd name type info)) k (placeAt fd cs n p m0) =
      some (placeAt fd cs n (p + k) m') ∧ Assembled name m0 (pieces name - k) m' := by
  have hinside := hst.inside
  induction k with
  | zero =>
    refine ⟨m0, rfl, fun _ _ => rfl, fun x h1 h2 => ?_, fun h => ?_⟩
    · unfold pieces at h1
      omega
    · unfold pieces at h
      omega
  | succ k ih =>
    obtain ⟨m1, hfollow, hm1⟩ := ih (Nat.le_of_succ_le hk)
    have hpiece := hst.piece (pieces name - 1 - k) (by omega)
    rw [show pieces name - 1 - (pieces name - 1 - k) = k by omega] at hpiece
    rw [show pieces name - k = pieces name - 1 - k + 1 by omega] at hm1
    obtain ⟨m', hl, hm'⟩ := LongPiece.look (q := placeAt fd cs n (p + k) m1) hpiece (by omega) hst.length
      hst.chars hm1
    have hpast' : Padded fd past n (p + k) (p + k + 1) := fun t h1 h2 =>
      hpast t ((Nat.div_le_div_right (Nat.le_add_right p k)).trans h1)
        (h2.trans_le (Nat.div_le_div_right (by omega)))
    have hnext := nextPlace_placeAt g hst.chain (by omega) (hst.marks _ (by omega)) hpast' hl
    refine ⟨m', ?_, ?_⟩
    · rw [follow_add, hfollow]
      exact (congrArg (Option.bind · _) hnext).trans rfl
    · rwa [show pieces name - (k + 1) = pieces name - 1 - k by omega]

/-- A short name has at most 12 characters. -/
lemma shortNameAt_length (entries : Mem) (a : Nat) : (shortNameAt entries a).length < shortNameMaxLength := by
  refine Nat.lt_of_le_of_lt ?_ (convertFatNameToName_length fun i => entries (a + i))
  rw [shortNameAt, convertFatNameToName]
  generalize (List.range shortNameExt).map _ = ext
  generalize stringOf _ _ = normal
  have hext := (List.takeWhile_prefix (p := fun b : UInt8 => decide (b ≠ 0))
    (l := ext.takeWhile (· ≠ 32))).length_le
  split_ifs
  all_goals simp only [Except.toOption, Option.getD_none, Option.getD_some, length_append, length_cons, length_nil]
  all_goals omega

/-- At a short entry with another name a search goes on. -/
lemma searchVisit_other {entries longName : Mem} {a sector : Nat}
    (h : ¬ (clStricmp (stringOf (longNameMaxChars + 1) longName) name = 0 ∨
      clStricmp (shortNameAt entries a) name = 0)) :
    searchVisit fd name type info sector entries a longName () v = .ok (.ok (.next () longName), v) := by
  rw [searchVisit, convertFatNameToName_eq]
  exact congrFun (if_neg h) v

/-- At a short entry with the name a search finds the file. -/
lemma searchVisit_matches {entries longName : Mem} {a : Nat} (sector : Nat) (g : Geometry fd)
    (h : clStricmp (stringOf (longNameMaxChars + 1) longName) name = 0) (hcl : IsData fd (dirCluster entries a))
    (htype : dirAttr entries a &&& (attrDirectory ||| attrVolumeId) = type)
    (hinfo : info = true → ¬ BadDates entries a) :
    ∃ i, searchVisit fd name type info sector entries a longName () v =
      .ok (.ok (.leave ⟨sectorOf fd (dirCluster entries a), i, sector⟩), v) := by
  rw [searchVisit, convertFatNameToName_eq]
  dsimp only
  rw [if_pos (.inl h), if_neg (not_not.mpr htype), firstSectorOfCluster_ok g.clustered hcl, ofExcept_ok_bind]
  cases info with
  | false => exact ⟨none, rfl⟩
  | true =>
    rw [if_pos rfl]
    cases hi : fatPopulateFileInformationFromFatEntry fd entries a with
    | error e =>
      rw [fatPopulate_error hi, fatPopulate_check] at hi
      exact absurd hi (hinfo rfl)
    | ok i => exact ⟨some i, bind_of_ok rfl⟩

/-- A byte of a piece. -/
def pieceByte (name : List UInt8) (k offset : Nat) : UInt8 :=
  if offset = 0 then UInt8.ofNat (k + 1 + if k + 1 = pieces name then longNameOrdEndMask else 0)
  else if offset = 0xB then 0x0F
  else
    match [1, 3, 5, 7, 9, 14, 16, 18, 20, 22, 24, 28, 30].idxOf? offset with
    | some i => (pieceChars name k).getD i 0
    | none => 0

/-- A root directory with a file that has a long name and the first cluster 3. -/
def longFile (name : List UInt8) : Mem := fun x =>
  if x < 545 * 512 then 0
  else
    let e := (x - 545 * 512) / sizeofDirEntry
    let offset := (x - 545 * 512) % sizeofDirEntry
    if e < pieces name then pieceByte name (pieces name - 1 - e) offset
    else if e = pieces name then
      if offset = 0 then 65 else if offset < 11 then 32 else if offset = 0x1A then 3 else 0
    else 0

/-- The root directory is one cluster. -/
lemma longFile_chain (name : List UInt8) : Chain sampleData (longFile name) [2] where
  data := by
    simp only [mem_singleton]
    rintro c rfl
    exact ⟨by decide, by decide⟩
  linked := fun k hk => absurd hk (by simp)
  ends := by
    simp only [getLast?_singleton, Option.mem_some_iff]
    rintro c rfl
    have hzero : tableEntry sampleData (longFile name) 2 = tableEntry sampleData (fun _ => 0) 2 := by
      have haddr : fatAddr sampleData 2 = 16392 := rfl
      refine congrArg (· &&& clusterMask) (readLE_congr fun i hi => if_pos ?_)
      unfold Span at hi
      omega
    rw [successor, hzero]
    decide
  nodup := nodup_singleton 2

/-- A name of letters. -/
def lettersName (n : Nat) : List UInt8 := List.replicate n 97

end HAL9000.Fat32
