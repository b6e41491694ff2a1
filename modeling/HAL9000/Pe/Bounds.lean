import HAL9000.Pe.Parser

/-!
# Executables: which bytes are read

`PeRetrieveNtHeader` reads the DOS header before it looks at the size of the buffer. The NT headers it
returns are in the buffer. `PeRetrieveSection` then compares the table of sections with `SizeOfImage`, a
field of these headers, and not with the size of the buffer: nothing else keeps the table inside. The data
directories are part of the NT headers.

The comparisons of pointers wrap around. `Image.Covered` says for any buffer what has to be in it; for one that is
not too close to either end of the address space (`Placed`) it comes down to the DOS header and the table.
-/

namespace HAL9000.Pe
open Lib

/-- All the bytes are in the buffer. -/
def Image.Inside (m : Image) (a w : Nat) : Prop := m.base ≤ a ∧ a + w ≤ m.base + m.size

/-- `e_magic`. -/
def Image.magic (m : Image) : Nat := readLE m.mem m.base 2

/-- `e_lfanew`: where the NT headers are. -/
def Image.ntOffset (m : Image) : Nat := readLE m.mem (m.base + lfanew) 4

def Image.nt (m : Image) : Nat := wadd 64 m.base (signExtend m.ntOffset)

def Image.field (m : Image) (offset width : Nat) : Nat := readLE m.mem (m.nt + offset) width

def Image.table (m : Image) : Nat := wadd 64 m.nt (4 + sizeofFileHeader + m.field sizeOfOptionalHeader 2)

def Image.tableSize (m : Image) : Nat := sizeofSectionHeader * m.field numberOfSections 2

def Image.directory (m : Image) (d : Nat) : Nat := wadd 64 m.nt (dataDirectory + sizeofDataDirectory * d)

/-- What `PeRetrieveNtHeader` returns. -/
def Image.info (m : Image) : NtHeaderInfo where
  imageBase := m.base
  ntBase := m.nt
  addressOfEntryPoint := wadd 64 m.base (m.field addressOfEntryPoint 4)
  imageAlignment := m.field sectionAlignment 4
  fileAlignment := m.field fileAlignment 4
  preferredImageBase := m.field imageBase 8
  preferredAddressOfEntryPoint := wadd 64 (m.field imageBase 8) (m.field addressOfEntryPoint 4)
  size := m.field sizeOfImage 4
  machine := m.field machine 2
  subsystem := m.field subsystem 2
  sizeOfHeaders := m.field sizeOfHeaders 4
  numberOfSections := m.field numberOfSections 2

/-- Everything that is read is in the buffer, by `PeRetrieveNtHeader` and, with the header it returns, by
    the other two functions for any index. -/
def ReadsInside (m : Image) : Prop := ∃ result, peRetrieveNtHeader m = .ok result ∧ ∀ info, result = .ok info →
    (∀ index, ∃ r, peRetrieveSection m info index = .ok r) ∧
    ∀ directory, ∃ r, peRetrieveDataDirectory m info directory = .ok r

def Image.TableInside (m : Image) : Prop := 0 < m.field numberOfSections 2 →
  checkBounds m.table m.tableSize m.base (m.field sizeOfImage 4) = true → m.Inside m.table m.tableSize

def Image.DirectoriesInside (m : Image) : Prop := m.Inside m.nt dataDirectory ∧
  ∀ d ≤ imageDirectoryEntryComDescriptor, d < m.field numberOfRvaAndSizes 4 →
    checkBounds (m.directory d) sizeofDataDirectory m.base (m.field sizeOfImage 4) = true →
      m.Inside (m.directory d) sizeofDataDirectory

/-- What is read is in the buffer: behind the checks before it, each part of the headers. -/
def Image.Covered (m : Image) : Prop :=
  m.base ≠ 0 → m.size ≠ 0 → 2 ≤ m.size ∧ (m.magic = mzSignature → 64 ≤ m.size ∧
    (checkBounds m.nt sizeofNtHeaders m.base m.size = true → m.Inside m.nt 4 ∧
      (m.field 0 4 = ntSignature → m.Inside m.nt (subsystem + 2) ∧
        (m.field machine 2 = imageFileMachineAmd64 → m.TableInside ∧ m.DirectoriesInside))))

variable {m : Image} {a w : Nat}

/-- A read needs its bytes to be in the buffer. -/
lemma returns_read {Q : Nat → Prop} : Returns (m.read a w) Q ↔ m.Inside a w ∧ Q (readLE m.mem a w) := by
  unfold Image.read Image.Inside
  split
  · next h => simp [h, Returns]
  · next h => simp [h, Returns]

/-- What is read of the NT headers behind the signature. -/
lemma returns_readNtHeaders {Q : NtHeaderInfo → Prop} (hin : m.Inside m.nt 4) :
    Returns (readNtHeaders m m.nt) Q ↔ m.Inside m.nt (subsystem + 2) ∧ Q m.info := by
  simp only [readNtHeaders, returns_bind, returns_read, returns_pure, ← and_assoc]
  refine and_congr_left' ?_
  unfold Image.Inside sizeOfImage machine subsystem addressOfEntryPoint sizeOfHeaders numberOfSections
    sectionAlignment fileAlignment imageBase at *
  omega

/-- What is read of the table of sections (C `PeRetrieveSection`). -/
lemma sections_inside_iff (hin : m.Inside m.nt (subsystem + 2)) :
    (∀ index, ∃ r, peRetrieveSection m m.info index = .ok r) ↔
      (m.field machine 2 = imageFileMachineAmd64 → m.TableInside) := by
  have hthree : ∀ a, (m.Inside (a + 12) 4 ∧ m.Inside (a + 8) 4 ∧ m.Inside (a + 36) 4) ↔ m.Inside (a + 8) 32 := by
    intro a
    unfold Image.Inside
    omega
  have hopt : m.Inside (m.info.ntBase + sizeOfOptionalHeader) 2 := by
    show m.Inside (m.nt + _) _
    unfold Image.Inside subsystem sizeOfOptionalHeader at *
    omega
  simp only [← returns_true, peRetrieveSection, returns_ite, returns_pure, returns_bind, returns_read, implies_true,
    true_and, and_true, ge_iff_le, Nat.not_le, not_not, ne_eq, hthree, hopt]
  show (∀ index, index < m.field numberOfSections 2 → m.field machine 2 = imageFileMachineAmd64 →
    checkBounds m.table m.tableSize m.base (m.field sizeOfImage 4) = true →
      m.Inside (m.table + sizeofSectionHeader * index + 8) 32) ↔ _
  constructor
  · intro h hm hpos hb
    have h0 := (checkBounds_iff.mp hb).1
    have := (h (m.field numberOfSections 2 - 1) (by omega) hm hb).2
    unfold Image.Inside Image.tableSize sizeofSectionHeader at *
    omega
  · intro h index hidx hm hb
    have := h hm (by omega) hb
    unfold Image.Inside Image.tableSize sizeofSectionHeader at *
    omega

/-- What is read of the data directories (C `PeRetrieveDataDirectory`). -/
lemma directories_inside_iff (hin : m.Inside m.nt (subsystem + 2)) :
    (∀ directory, ∃ r, peRetrieveDataDirectory m m.info directory = .ok r) ↔
      (m.field machine 2 = imageFileMachineAmd64 → m.DirectoriesInside) := by
  have htwo : ∀ a, (m.Inside a 4 ∧ m.Inside (a + 4) 4) ↔ m.Inside a sizeofDataDirectory := by
    intro a
    unfold Image.Inside sizeofDataDirectory
    omega
  have hcount : m.Inside (m.info.ntBase + numberOfRvaAndSizes) 4 ↔ m.Inside m.nt dataDirectory := by
    show m.Inside (m.nt + _) _ ↔ _
    unfold Image.Inside subsystem numberOfRvaAndSizes dataDirectory at *
    omega
  simp only [← returns_true, peRetrieveDataDirectory, returns_ite, returns_pure, returns_bind,
    returns_read, implies_true, true_and, and_true, ge_iff_le, Nat.not_le, not_not, ne_eq, htwo, hcount, Nat.not_lt]
  exact ⟨fun h hm => ⟨(h 0 (Nat.zero_le _) hm).1, fun d hd => (h d hd hm).2⟩,
    fun h d hd hm => ⟨(h hm).1, (h hm).2 d hd⟩⟩

/-- Whatever the buffer, all that is read is in it just if it is covered. -/
lemma readsInside_iff_covered : ReadsInside m ↔ m.Covered := by
  unfold ReadsInside
  rw [← Returns]
  simp only [peRetrieveNtHeader, returns_ite, returns_pure, returns_bind, returns_read, reduceCtorEq, false_imp_iff,
    implies_true, true_and, not_not, Except.ok.injEq, forall_eq']
  refine imp_congr_right fun _ => imp_congr_right fun _ => and_congr ?_ (imp_congr_right fun _ => and_congr ?_
    (imp_congr_right fun _ => and_congr_right fun h4 => imp_congr_right fun _ => ?_))
  · simp [Image.Inside]
  · unfold Image.Inside lfanew
    omega
  · refine (returns_readNtHeaders h4).trans (and_congr_right fun hin => ?_)
    rw [sections_inside_iff hin, directories_inside_iff hin, imp_and]

/-- The buffer is away from the ends of the address space, and its size is a `DWORD`. -/
structure Placed (m : Image) : Prop where
  low : 2 ^ 31 ≤ m.base
  high : m.base + 2 ^ 32 ≤ 2 ^ 64
  size : m.size < 2 ^ 32

def Image.HasHeader (m : Image) : Prop :=
  m.ntOffset < 2 ^ 31 ∧ m.ntOffset + sizeofNtHeaders ≤ m.size ∧ m.field 0 4 = ntSignature

def Image.tableEnd (m : Image) : Nat :=
  m.ntOffset + (4 + sizeofFileHeader + m.field sizeOfOptionalHeader 2) + m.tableSize

/-- The table of sections is read if there is a section, the executable is a 64-bit one and the table ends
    within the size in the header. -/
def Image.ReadsTable (m : Image) : Prop :=
  m.field machine 2 = imageFileMachineAmd64 ∧ 0 < m.field numberOfSections 2 ∧
    m.tableEnd ≤ m.field sizeOfImage 4

lemma field_lt (m : Image) (offset width : Nat) : m.field offset width < 256 ^ width := readLE_lt _ _ _

lemma ntOffset_lt (m : Image) : m.ntOffset < 2 ^ 32 := readLE_lt _ _ 4

section
variable (hp : Placed m)
include hp

/-- `CHECK_BOUNDS` passes just if the NT headers are in the buffer. -/
lemma Placed.check_nt : checkBounds m.nt sizeofNtHeaders m.base m.size = true ↔
      m.ntOffset < 2 ^ 31 ∧ m.ntOffset + sizeofNtHeaders ≤ m.size := by
  obtain ⟨h1, h2, h3⟩ := hp
  have := ntOffset_lt m
  rw [checkBounds_iff, Image.nt, wadd, signExtend, sizeofNtHeaders]
  split <;> omega

/-- The NT headers are where `e_lfanew` says. -/
lemma Placed.nt_eq (hlt : m.ntOffset < 2 ^ 31) : m.nt = m.base + m.ntOffset := by
  have := hp.high
  rw [Image.nt, signExtend, if_pos hlt, wadd_eq (by omega)]

/-- The sections that pass the check of `PeRetrieveSection` are in the buffer. -/
lemma Placed.tableInside_iff (hlt : m.ntOffset < 2 ^ 31) : m.TableInside ↔
    (0 < m.field numberOfSections 2 → m.tableEnd ≤ m.field sizeOfImage 4 → m.tableEnd ≤ m.size) := by
  have h16 := field_lt m sizeOfOptionalHeader 2
  have hn := field_lt m numberOfSections 2
  have hs := field_lt m sizeOfImage 4
  have hhigh := hp.high
  have htable : m.table = m.base + (m.ntOffset + (4 + sizeofFileHeader + m.field sizeOfOptionalHeader 2)) := by
    rw [Image.table, hp.nt_eq hlt, sizeofFileHeader, wadd_eq (by omega), Nat.add_assoc]
  unfold Image.TableInside
  rw [checkBounds_iff, htable]
  unfold Image.Inside Image.tableEnd Image.tableSize sizeofSectionHeader sizeofFileHeader
  omega

/-- The data directories are part of the NT headers. -/
lemma Placed.directoriesInside (hlt : m.ntOffset < 2 ^ 31) (hle : m.ntOffset + sizeofNtHeaders ≤ m.size) :
    m.DirectoriesInside := by
  have hhigh := hp.high
  refine ⟨?_, fun d hd _ _ => ?_⟩
  · rw [hp.nt_eq hlt]
    unfold Image.Inside dataDirectory sizeofNtHeaders at *
    omega
  · unfold Image.Inside Image.directory imageDirectoryEntryComDescriptor dataDirectory sizeofNtHeaders
      sizeofDataDirectory at *
    rw [hp.nt_eq hlt, wadd_eq (by omega)]
    omega

end

/-- Only bytes of the buffer are read if and only if it covers what is looked at. If it is away from the ends of the
    address space, this means that it is long enough for what is looked at in its DOS header, and the table of
    sections is in it whenever it is looked at. -/
theorem readsInside_iff (m : Image) : (ReadsInside m ↔ m.Covered) ∧ (Placed m →
    (ReadsInside m ↔ (m.size ≠ 0 → 2 ≤ m.size ∧ (m.magic = mzSignature → 64 ≤ m.size ∧
      (m.HasHeader → m.ReadsTable → m.tableEnd ≤ m.size))))) := by
  refine ⟨readsInside_iff_covered, fun hp => readsInside_iff_covered.trans ?_⟩
  have h0 : m.base ≠ 0 := by have := hp.low; omega
  rw [Image.Covered, imp_iff_right h0, hp.check_nt]
  refine imp_congr_right fun _ => and_congr_right fun _ => imp_congr_right fun _ => and_congr_right fun _ => ?_
  by_cases hh : m.ntOffset < 2 ^ 31 ∧ m.ntOffset + sizeofNtHeaders ≤ m.size
  swap
  · exact iff_of_true (fun h => absurd h hh) fun h => absurd ⟨h.1, h.2.1⟩ hh
  obtain ⟨hlt, hle⟩ := hh
  have hin : ∀ w ≤ 264, m.Inside m.nt w := by
    intro w hw
    rw [hp.nt_eq hlt]
    unfold Image.Inside sizeofNtHeaders at *
    omega
  have htable := hp.tableInside_iff hlt
  have hdir := hp.directoriesInside hlt hle
  simp only [hlt, hle, hin 4 (by decide), hin (subsystem + 2) (by decide), htable, hdir, Image.HasHeader,
    Image.ReadsTable, true_and, and_true, and_imp, forall_const]

/-- An executable that consists of its headers: `size` bytes at 2^32, with the NT headers at 64, one section
    and `sizeOfImage` as the size of the image. -/
def headersOnly (size imageSize : Nat) : Image where
  base := 2 ^ 32
  size := size
  mem := writeLE (writeLE (writeLE (writeLE (writeLE (writeLE (writeLE (fun _ => 0)
    (2 ^ 32) 2 mzSignature) (2 ^ 32 + lfanew) 4 64) (2 ^ 32 + 64) 4 ntSignature)
    (2 ^ 32 + 64 + machine) 2 imageFileMachineAmd64) (2 ^ 32 + 64 + numberOfSections) 2 1)
    (2 ^ 32 + 64 + sizeOfOptionalHeader) 2 240) (2 ^ 32 + 64 + sizeOfImage) 4 imageSize

/-- A buffer that ends with the NT headers: the table of sections is read behind its end. -/
theorem section_read_outside : ∃ info, peRetrieveNtHeader (headersOnly 328 4096) = .ok (.ok info) ∧
      peRetrieveSection (headersOnly 328 4096) info 0 = .error .wild := by
  refine ⟨(headersOnly 328 4096).info, ?_, ?_⟩
  · decide
  · decide

/-- With the table of sections in the buffer everything is read inside. -/
theorem sections_read_inside : ReadsInside (headersOnly 368 368) := by
  refine ((readsInside_iff _).2 ⟨by decide, by decide, by decide⟩).mpr fun _ => ⟨by decide, fun _ =>
    ⟨by decide, fun _ _ => ?_⟩⟩
  decide

end HAL9000.Pe
