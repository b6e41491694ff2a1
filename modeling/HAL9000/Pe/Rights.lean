import HAL9000.Pe.Mapping

/-!
# Mapping an executable: the rights of its pages

A page should get the rights of the sections that have bytes in it. The loop of `_MmuMapPeInMemory` comes
close: a section that starts on a page boundary gets the rights of the section before it in its first page
(`remaining` is then a whole page, never zero), and so do those behind an empty section. The last page, if the
image does not fill it, is mapped behind the page in which the last section that reached the end of a page started,
and not at all behind an empty section. `Inv` says exactly what is mapped after some sections.
-/

namespace HAL9000.Pe
open Lib Paging

/-! ## Sections and pages -/

def NtHeaderInfo.first (info : NtHeaderInfo) (s : SectionInfo) : Nat := s.baseAddress - info.imageBase

def NtHeaderInfo.extent (info : NtHeaderInfo) (s : SectionInfo) : Nat :=
  alignAddressUpper s.size info.imageAlignment

def NtHeaderInfo.stop (info : NtHeaderInfo) (s : SectionInfo) : Nat := info.first s + info.extent s

/-- The section has a byte in the page `q`. -/
def NtHeaderInfo.HasByte (info : NtHeaderInfo) (q : Nat) (s : SectionInfo) : Prop :=
  0 < s.size ∧ info.first s < 4096 * (q + 1) ∧ 4096 * q < info.first s + s.size

/-- The section reaches the page `q`: it has a byte in it, or ends where the page starts, or is empty there. -/
def NtHeaderInfo.Reaches (info : NtHeaderInfo) (q : Nat) (s : SectionInfo) : Prop :=
  info.first s < 4096 * (q + 1) ∧ 4096 * q ≤ info.stop s

instance (info : NtHeaderInfo) (q : Nat) : DecidablePred (info.HasByte q) := fun _ =>
  inferInstanceAs (Decidable (_ ∧ _))

instance (info : NtHeaderInfo) (q : Nat) : DecidablePred (info.Reaches q) := fun _ =>
  inferInstanceAs (Decidable (_ ∧ _))

def rightsOf (P : SectionInfo → Prop) [DecidablePred P] : List SectionInfo → Nat
  | [] => 0
  | s :: ss => if P s then s.rights ||| rightsOf P ss else rightsOf P ss

/-- The sections follow each other, from `b` on. -/
def NtHeaderInfo.Contiguous (info : NtHeaderInfo) : Nat → List SectionInfo → Prop
  | _, [] => True
  | b, s :: ss => s.baseAddress = info.imageBase + b ∧ info.Contiguous (b + info.extent s) ss

/-- Where sections that start at `b` end. -/
def NtHeaderInfo.endOf (info : NtHeaderInfo) : Nat → List SectionInfo → Nat
  | b, [] => b
  | b, s :: ss => info.endOf (b + info.extent s) ss

/-- Where the first section starts. -/
def NtHeaderInfo.start (info : NtHeaderInfo) : List SectionInfo → Nat
  | [] => info.sizeOfHeaders
  | s :: _ => info.first s

/-- Where the last section ends. -/
def NtHeaderInfo.imageEnd (info : NtHeaderInfo) (secs : List SectionInfo) : Nat := info.endOf (info.start secs) secs

/-- An image as it should be: the alignment is a power of two, the sections follow each other behind the headers,
    with whole pages between at most, none is both writable and executable, and nothing is at the end of the
    address space. -/
structure WellFormed (info : NtHeaderInfo) (secs : List SectionInfo) (addressToMap : Nat) : Prop where
  alignment : ∃ k, k < 32 ∧ info.imageAlignment = 2 ^ k
  aligned : info.imageAlignment ∣ info.start secs
  headers : info.sizeOfHeaders ≤ info.start secs ∧ info.start secs % 4096 = info.sizeOfHeaders % 4096
  contiguous : info.Contiguous (info.start secs) secs
  size : ∀ s ∈ secs, s.size < 2 ^ 32
  rights : ∀ s ∈ secs, isBooleanFlagOn s.rights (pageRightsWrite ||| pageRightsExecute) = false
  fits : info.imageEnd secs < 2 ^ 32
  base : info.imageBase + 2 ^ 32 ≤ 2 ^ 64
  room : addressToMap + 2 ^ 32 < 2 ^ 64

def NtHeaderInfo.headerRights (info : NtHeaderInfo) (q : Nat) : Nat :=
  if 4096 * q < info.sizeOfHeaders then pageRightsRead else 0

/-- Every page with a byte of a section is mapped with the union of the rights of the headers and the
    sections in it, and not both writable and executable if there is only one section in it. -/
def MapsRights (info : NtHeaderInfo) (secs : List SectionInfo) (addressToMap : Nat) (pages : Pages) : Prop :=
  ∀ q, (∃ s ∈ secs, info.HasByte q s) → ∃ f, pages (addressToMap + 4096 * q) = some f ∧
    f.rights = info.headerRights q ||| rightsOf (info.HasByte q) secs ∧
    ∀ s, (∀ s' ∈ secs, info.HasByte q s' → s' = s) →
      isBooleanFlagOn f.rights (pageRightsWrite ||| pageRightsExecute) = false

/-- A section that ends on a page boundary, or an empty one, has no rights that the sections with bytes in the
    page do not have. -/
def NoLeaks (info : NtHeaderInfo) (secs : List SectionInfo) : Prop := ∀ q, (∃ s ∈ secs, info.HasByte q s) →
  rightsOf (info.Reaches q) secs = rightsOf (info.HasByte q) secs

/-- The image ends on a page boundary, or its last section is not empty and one starts in the last page but one. -/
def LastPage (info : NtHeaderInfo) (secs : List SectionInfo) : Prop :=
  (∃ s ∈ secs, 0 < s.size) → info.imageEnd secs % 4096 = 0 ∨
    (∀ s ∈ secs.getLast?, 0 < s.size) ∧ ∃ s ∈ secs, info.first s / 4096 + 1 = info.imageEnd secs / 4096

variable {info : NtHeaderInfo} {secs ys zs : List SectionInfo} {s r : SectionInfo} {P : SectionInfo → Prop}
  [DecidablePred P]
  {b q : Nat}

lemma rightsOf_concat : rightsOf P (ys ++ [s]) = if P s then rightsOf P ys ||| s.rights else rightsOf P ys := by
  induction ys with
  | nil => simp [rightsOf]
  | cons r ys ih =>
    simp only [List.cons_append, rightsOf, ih]
    split <;> split <;> simp [Nat.or_assoc]

omit [DecidablePred P] in
lemma exists_init (hs : ¬ P s) (hex : ∃ r ∈ ys ++ [s], P r) : ∃ r ∈ ys, P r := by
  obtain ⟨r, hr, hp⟩ := hex
  rcases List.mem_append.mp hr with hr | hr
  · exact ⟨r, hr, hp⟩
  · exact absurd (List.mem_singleton.mp hr ▸ hp) hs

lemma rightsOf_none (h : ∀ s ∈ ys, ¬ P s) : rightsOf P ys = 0 := by
  induction ys with
  | nil => rfl
  | cons r ys ih =>
    rw [rightsOf, if_neg (h r List.mem_cons_self), ih fun s hs => h s (List.mem_cons_of_mem _ hs)]

lemma rightsOf_only (h : ∀ r ∈ ys, P r → r = s) (hex : ∃ r ∈ ys, P r) : rightsOf P ys = s.rights := by
  induction ys with
  | nil => simp at hex
  | cons r ys ih =>
    have ih := ih fun r hr => h r (List.mem_cons_of_mem _ hr)
    by_cases hys : ∃ r ∈ ys, P r
    · rw [rightsOf, ih hys]
      split
      · next hp => rw [h r List.mem_cons_self hp, Nat.or_self]
      · rfl
    · have hr : P r := by
        obtain ⟨r', hr', hp⟩ := hex
        rcases List.mem_cons.mp hr' with rfl | hm
        · exact hp
        · exact absurd ⟨r', hm, hp⟩ hys
      rw [rightsOf, if_pos hr, rightsOf_none fun r' hr' hp => hys ⟨r', hr', hp⟩, Nat.or_zero,
        h r List.mem_cons_self hr]

lemma endOf_concat : info.endOf b (ys ++ [s]) = info.endOf b ys + info.extent s := by
  induction ys generalizing b with
  | nil => rfl
  | cons r ys ih => exact ih

lemma le_endOf : b ≤ info.endOf b ys := by
  induction ys generalizing b with
  | nil => exact Nat.le_refl _
  | cons r ys ih => exact Nat.le_trans (Nat.le_add_right _ _) ih

/-- A section starts where those in front of it end. -/
lemma contiguous_split (h : info.Contiguous b (ys ++ s :: zs)) :
    s.baseAddress = info.imageBase + info.endOf b ys := by
  induction ys generalizing b with
  | nil => exact h.1
  | cons r ys ih => exact ih h.2

lemma contiguous_left (h : info.Contiguous b (ys ++ zs)) : info.Contiguous b ys := by
  induction ys generalizing b with
  | nil => trivial
  | cons r ys ih => exact ⟨h.1, ih h.2⟩

lemma contiguous_first (h : s.baseAddress = info.imageBase + b) : info.first s = b := by
  rw [NtHeaderInfo.first, h, Nat.add_sub_cancel_left]

/-- Every section lies between the start of the first and the end of the last. -/
lemma contiguous_within (h : info.Contiguous b ys) (hs : s ∈ ys) :
    b ≤ info.first s ∧ info.stop s ≤ info.endOf b ys := by
  induction ys generalizing b with
  | nil => cases hs
  | cons r ys ih =>
    rcases List.mem_cons.mp hs with rfl | hm
    · rw [NtHeaderInfo.stop, contiguous_first h.1]
      exact ⟨Nat.le_refl _, le_endOf⟩
    · obtain ⟨h1, h2⟩ := ih h.2 hm
      exact ⟨by omega, h2⟩

lemma contiguous_dvd {d : Nat} (h : info.Contiguous b ys) (hb : d ∣ b) (hd : ∀ s ∈ ys, d ∣ info.extent s)
    (hs : s ∈ ys) : d ∣ info.first s := by
  induction ys generalizing b with
  | nil => cases hs
  | cons r ys ih =>
    rcases List.mem_cons.mp hs with rfl | hm
    · rwa [contiguous_first h.1]
    · exact ih h.2 (Nat.dvd_add hb (hd r List.mem_cons_self)) (fun s hs => hd s (List.mem_cons_of_mem _ hs)) hm

/-- Empty sections take no room. -/
lemma endOf_of_empty (h : ∀ s ∈ ys, info.extent s = 0) : info.endOf b ys = b := by
  induction ys generalizing b with
  | nil => rfl
  | cons r ys ih =>
    obtain ⟨hr, hys⟩ := List.forall_mem_cons.mp h
    rw [NtHeaderInfo.endOf, ih hys, hr, Nat.add_zero]

/-- The last section that is not empty ends where all of them do. -/
lemma contiguous_last (h : info.Contiguous b ys) (hex : ∃ s ∈ ys, 0 < info.extent s) :
    ∃ s ∈ ys, 0 < info.extent s ∧ info.stop s = info.endOf b ys := by
  induction ys generalizing b with
  | nil => simp at hex
  | cons r ys ih =>
    by_cases hys : ∃ s ∈ ys, 0 < info.extent s
    · obtain ⟨s, hs, hlast⟩ := ih h.2 hys
      exact ⟨s, List.mem_cons_of_mem _ hs, hlast⟩
    · have hempty : ∀ s ∈ ys, info.extent s = 0 := fun s hs => Nat.eq_zero_of_not_pos fun hp => hys ⟨s, hs, hp⟩
      refine ⟨r, List.mem_cons_self, ?_, ?_⟩
      · obtain ⟨s, hs, hp⟩ := hex
        rcases List.mem_cons.mp hs with rfl | hm
        · exact hp
        · exact absurd ⟨s, hm, hp⟩ hys
      · rw [NtHeaderInfo.endOf, endOf_of_empty hempty, NtHeaderInfo.stop, contiguous_first h.1]

/-! ## Bytes and alignment -/

variable {addressToMap : Nat}

section

variable (h : WellFormed info secs addressToMap)
include h

/-- The extent is the size, rounded up to the alignment. -/
lemma WellFormed.extent_eq (hs : s ∈ secs) :
    ∃ k n, k < 32 ∧ info.imageAlignment = 2 ^ k ∧ info.extent s = n * 2 ^ k ∧ s.size ≤ n * 2 ^ k ∧
      n * 2 ^ k < s.size + 2 ^ k := by
  obtain ⟨k, hk, hal⟩ := h.alignment
  have h1 : 1 ≤ 2 ^ k := Nat.one_le_two_pow
  have h2 : 2 ^ k < 2 ^ 32 := Nat.pow_lt_pow_right (by decide) hk
  have hsz := h.size s hs
  have hbound := alignAddressUpper_bounds (a := s.size) h1 (by omega) (by omega)
  have he := alignAddressUpper_eq (a := s.size) (k := k) (by omega)
  rw [he] at hbound
  exact ⟨k, _, hk, hal, by rw [NtHeaderInfo.extent, hal, he], hbound⟩

lemma WellFormed.extent_pos_iff (hs : s ∈ secs) : 0 < info.extent s ↔ 0 < s.size := by
  obtain ⟨k, n, -, -, he, hle, hlt⟩ := h.extent_eq hs
  rw [he]
  refine ⟨fun hpos => Nat.pos_of_ne_zero fun h0 => ?_, fun hpos => Nat.lt_of_lt_of_le hpos hle⟩
  rw [h0, Nat.zero_add] at hlt
  have := Nat.pos_of_mul_pos_right hpos
  exact absurd (Nat.le_mul_of_pos_left (2 ^ k) this) (Nat.not_le.mpr hlt)

lemma WellFormed.stop_le (hs : s ∈ secs) : info.stop s ≤ info.imageEnd secs :=
  (contiguous_within h.contiguous hs).2

lemma WellFormed.dvd (hs : s ∈ secs) :
    info.imageAlignment ∣ info.first s ∧ info.imageAlignment ∣ info.stop s := by
  have hext : ∀ r ∈ secs, info.imageAlignment ∣ info.extent r := by
    intro r hr
    obtain ⟨k, n, -, hal, he, -⟩ := h.extent_eq hr
    rw [hal, he]
    exact Nat.dvd_mul_left _ _
  have hf := contiguous_dvd h.contiguous h.aligned hext hs
  exact ⟨hf, Nat.dvd_add hf (hext s hs)⟩

/-- One of a page and the alignment is a multiple of the other. -/
lemma WellFormed.alignment_cases : info.imageAlignment ∣ 4096 ∨ 4096 ∣ info.imageAlignment := by
  obtain ⟨k, -, hal⟩ := h.alignment
  rw [hal]
  rcases Nat.le_total k 12 with hk | hk
  · exact .inl (Nat.pow_dvd_pow 2 hk)
  · exact .inr (Nat.pow_dvd_pow 2 hk)

/-- If the alignment divides a page, there is a byte in every page in which a section that is not empty lies. -/
lemma WellFormed.hasByte (hdvd : info.imageAlignment ∣ 4096) (hs : s ∈ secs) (hpos : 0 < s.size)
    (hfirst : info.first s < 4096 * (q + 1)) (hstop : 4096 * q < info.stop s) : info.HasByte q s := by
  obtain ⟨k, n, -, hal, he, -, hlt⟩ := h.extent_eq hs
  refine ⟨hpos, hfirst, ?_⟩
  obtain ⟨c, hc⟩ := (h.dvd hs).2
  obtain ⟨d, hd⟩ := Nat.dvd_trans hdvd (Nat.dvd_mul_right _ q)
  rw [hal] at hc hd
  have hcd : d + 1 ≤ c := by
    rw [hc, hd] at hstop
    exact Nat.lt_of_mul_lt_mul_left hstop
  have := Nat.mul_le_mul_left (2 ^ k) hcd
  rw [NtHeaderInfo.stop] at hc
  rw [Nat.mul_add, Nat.mul_one] at this
  omega

/-- A page that is not mapped has a byte of a section. -/
lemma WellFormed.last_hasByte (hno : ¬ LastPage info secs) :
    ∃ s ∈ secs, info.HasByte (info.imageEnd secs / 4096) s := by
  obtain ⟨⟨r, hr, hpos⟩, hno⟩ := Classical.not_imp.mp hno
  have h0 : info.imageEnd secs % 4096 ≠ 0 := fun h => hno (.inl h)
  obtain ⟨s, hs, hpos, hstop⟩ : ∃ s ∈ secs, 0 < info.extent s ∧ info.stop s = info.imageEnd secs :=
    contiguous_last h.contiguous ⟨r, hr, (h.extent_pos_iff hr).mpr hpos⟩
  have hdvd : info.imageAlignment ∣ 4096 := by
    refine h.alignment_cases.resolve_right fun hd => h0 ?_
    rw [← hstop]
    exact Nat.mod_eq_zero_of_dvd (Nat.dvd_trans hd (h.dvd hs).2)
  have hle : info.first s ≤ info.stop s := Nat.le_add_right ..
  exact ⟨s, hs, h.hasByte hdvd hs ((h.extent_pos_iff hs).mp hpos) (by omega) (by omega)⟩

end

/-! ## Runs of pages -/

/-- The rights of the page `q` pages behind `addressToMap`. -/
def rightsAt (addressToMap : Nat) (pages : Pages) (q : Nat) : Option Nat :=
  (pages (addressToMap + 4096 * q)).map Mapping.rights

variable {mmuGetPhysicalAddress : Nat → Nat} {rights c n fuel : Nat} {pages pages' : Pages}
  {more : Nat → Bool} {st st' : MapState}

/-- A page gets the rights, and the others keep theirs. -/
lemma mapImagePage_ok (h : mapImagePage mmuGetPhysicalAddress addressToMap info rights
      (addressToMap + 4096 * c) pages = .ok pages') :
    ∀ q, rightsAt addressToMap pages' q = if q = c then some rights else rightsAt addressToMap pages q := by
  intro q
  obtain ⟨_, -, h⟩ := bind_ok.mp h
  obtain ⟨_, -, h⟩ := bind_ok.mp h
  cases h
  by_cases hq : q = c
  · simp [rightsAt, hq]
  · simp only [rightsAt, hq, if_false]
    rw [if_neg (by omega)]

lemma next_page (addressToMap c : Nat) (h : 4096 * (c + 1) + addressToMap < 2 ^ 64) :
    wadd 64 (addressToMap + 4096 * c) pageSize = addressToMap + 4096 * (c + 1) := by
  unfold wadd pageSize
  omega

/-- The loop maps the pages up to the one at which it stops. -/
lemma mapWhile_ok (h : mapWhile mmuGetPhysicalAddress addressToMap info more rights fuel
      (addressToMap + 4096 * c) pages = .ok pages')
    (hmore : ∀ i < n, more (addressToMap + 4096 * (c + i)) = true)
    (hstop : more (addressToMap + 4096 * (c + n)) = false) (hlt : addressToMap + 4096 * (c + n) < 2 ^ 64) :
    ∀ q, rightsAt addressToMap pages' q =
      if c ≤ q ∧ q < c + n then some rights else rightsAt addressToMap pages q := by
  induction n generalizing c fuel pages with
  | zero =>
    intro q
    cases fuel with
    | zero => cases h
    | succ fuel =>
      rw [mapWhile, if_neg (by rw [← Nat.add_zero c, hstop]; decide)] at h
      cases h
      rw [if_neg (by omega)]
  | succ n ih =>
    intro q
    cases fuel with
    | zero => cases h
    | succ fuel =>
      have h0 := hmore 0 (by omega)
      rw [Nat.add_zero] at h0
      rw [mapWhile, if_pos h0] at h
      obtain ⟨pages1, h1, h2⟩ := bind_ok.mp h
      rw [next_page addressToMap c (by omega)] at h2
      rw [ih h2 (fun i hi => by rw [Nat.add_assoc, Nat.add_comm 1]; exact hmore (i + 1) (by omega))
        (by rw [Nat.add_assoc, Nat.add_comm 1]; exact hstop) (by omega) q, mapImagePage_ok h1 q]
      split <;> split <;> first | rfl | (split <;> first | rfl | omega) | omega

/-! ## The loop over the sections -/

/-- What is known after the sections `ys`, which end at `b`. The page tables were empty at the start if
    `F` holds. -/
structure Inv (info : NtHeaderInfo) (addressToMap : Nat) (F : Prop) (ys : List SectionInfo) (b : Nat)
    (st : MapState) : Prop where
  remaining : st.remaining = 4096 - b % 4096
  below : ∀ q < b / 4096, (∃ s ∈ ys, info.Reaches q s) →
    rightsAt addressToMap st.pages q = some (rightsOf (info.Reaches q) ys)
  above : F → ∀ q, b / 4096 ≤ q → rightsAt addressToMap st.pages q = none
  prev : st.prevSectionRequiredRights = rightsOf (info.Reaches (b / 4096)) ys
  address : (∀ s ∈ ys, b / 4096 ≤ info.first s / 4096) ∧ st.pAlignedAddress = 0 ∨
    ∃ s ∈ ys, st.pAlignedAddress = addressToMap + 4096 * (info.first s / 4096 + 1) ∧
      info.first s / 4096 < b / 4096 ∧
      ∀ r ∈ ys, info.first r / 4096 < b / 4096 → info.first r / 4096 ≤ info.first s / 4096
  unfinished : b % 4096 ≠ 0 → ∀ s ∈ ys.getLast?, st.sectionSize ≠ 0 ↔ 0 < info.extent s
  finished : b % 4096 = 0 → st.sectionSize ≠ 0 → ∃ q, st.pAlignedAddress = addressToMap + 4096 * q ∧
    rightsAt addressToMap st.pages q = some st.prevSectionRequiredRights

variable {F : Prop}

/-- A section that ends in the page where it starts. -/
lemma Inv.small (hI : Inv info addressToMap F ys b st) (hs : info.first s = b)
    (hsz : info.sectionSize s = info.extent s) (hlt : info.extent s < st.remaining) :
    Inv info addressToMap F (ys ++ [s]) (b + info.extent s)
      { st with
        sectionSize := info.sectionSize s
        remaining := st.remaining - info.sectionSize s
        prevSectionRequiredRights := st.prevSectionRequiredRights ||| s.rights } := by
  have hrem := hI.remaining
  have hq : (b + info.extent s) / 4096 = b / 4096 := by omega
  have hmod : (b + info.extent s) % 4096 = b % 4096 + info.extent s := by omega
  constructor
  · show st.remaining - info.sectionSize s = _
    omega
  · intro q hlt hex
    rw [hq] at hlt
    have ht : ¬ info.Reaches q s := fun h => by
      have := h.1
      omega
    rw [rightsOf_concat, if_neg ht]
    exact hI.below q hlt (exists_init ht hex)
  · intro hF q hle
    exact hI.above hF q (by omega)
  · have ht : info.Reaches (b / 4096) s := by
      rw [NtHeaderInfo.Reaches, NtHeaderInfo.stop]
      omega
    show st.prevSectionRequiredRights ||| s.rights = _
    rw [hq, rightsOf_concat, if_pos ht, hI.prev]
  · rw [hq]
    rcases hI.address with ⟨hall, h0⟩ | ⟨r, hr, ha, hlt, hmax⟩
    · exact .inl ⟨List.forall_mem_append.mpr ⟨hall, by simp [hs]⟩, h0⟩
    · refine .inr ⟨r, List.mem_append_left _ hr, ha, hlt, List.forall_mem_append.mpr ⟨hmax, ?_⟩⟩
      rw [List.forall_mem_singleton, hs]
      omega
  · simp [hsz, Nat.pos_iff_ne_zero]
  · intro h0 (hne : info.sectionSize s ≠ 0)
    omega

/-- What is mapped for a section that goes up to the end of its first page. -/
lemma mapSection_big (h : mapSection mmuGetPhysicalAddress addressToMap info s st = .ok st')
    (hb : s.baseAddress = info.imageBase + b) (hsz : info.sectionSize s = info.extent s)
    (hrem : st.remaining = 4096 - b % 4096) (hle : st.remaining ≤ info.extent s)
    (hT : addressToMap % 4096 = 0) (hroom : addressToMap + 2 ^ 32 < 2 ^ 64)
    (hbase : info.imageBase + 2 ^ 32 ≤ 2 ^ 64) (hfits : b + info.extent s < 2 ^ 32) :
    st'.prevSectionRequiredRights = s.rights ∧
      st'.remaining = 4096 - (b + info.extent s) % 4096 ∧
      st'.sectionSize = b + info.extent s - 4096 * (b / 4096 + 1) ∧
      st'.pAlignedAddress = addressToMap + 4096 * (b / 4096 + 1) ∧
      ∀ q, rightsAt addressToMap st'.pages q =
        if q = b / 4096 then some (st.prevSectionRequiredRights ||| s.rights)
        else if b / 4096 < q ∧ q < (b + info.extent s) / 4096 then some s.rights
        else rightsAt addressToMap st.pages q := by
  obtain ⟨_, -, h⟩ := bind_ok.mp h
  rw [hsz, if_neg (by omega)] at h
  obtain ⟨st1, h1, h2⟩ := bind_ok.mp h
  have haddr : alignAddressLower (wadd 64 addressToMap (wsub 64 s.baseAddress info.imageBase)) pageSize =
      addressToMap + 4096 * (b / 4096) := by
    rw [hb, wsub_eq (by omega) (by omega), Nat.add_sub_cancel_left, wadd_eq (by omega),
      alignAddressLower_page (by omega)]
    omega
  rw [haddr] at h1
  simp only [mapSharedPage] at h1
  rw [if_pos (by omega)] at h1
  obtain ⟨pages1, hp1, h1⟩ := bind_ok.mp h1
  cases h1
  have hnext : wadd 64 (addressToMap + 4096 * (b / 4096)) pageSize = addressToMap + 4096 * (b / 4096 + 1) :=
    next_page _ _ (by omega)
  have hleft : wsub 32 (info.extent s) st.remaining = b + info.extent s - 4096 * (b / 4096 + 1) := by
    rw [wsub_eq (by omega) hle]
    omega
  obtain ⟨pages2, hp2, h2⟩ := bind_ok.mp h2
  cases h2
  rw [hnext, hleft] at hp2
  have hstop : wadd 64 (addressToMap + 4096 * (b / 4096 + 1)) (b + info.extent s - 4096 * (b / 4096 + 1)) =
      addressToMap + (b + info.extent s) := by
    rw [wadd_eq (by omega)]
    omega
  rw [hstop] at hp2
  refine ⟨rfl, ?_, hleft, hnext, fun q => ?_⟩
  · show pageSize - addressOffset (wsub 32 (info.extent s) st.remaining) pageSize = _
    rw [addressOffset_page, hleft, pageSize]
    omega
  rw [mapWhile_ok (n := (b + info.extent s) / 4096 - (b / 4096 + 1)) hp2, mapImagePage_ok hp1]
  · by_cases h1 : q = b / 4096
    · rw [if_neg (by omega), if_pos h1, if_pos h1]
    · rw [if_neg h1, if_neg h1]
      exact if_congr (by omega) rfl rfl
  · intro i hi
    rw [decide_eq_true_iff, next_page _ (b / 4096 + 1 + i) (by omega)]
    exact Nat.add_le_add_left (by omega) addressToMap
  · rw [decide_eq_false_iff_not, next_page _ (b / 4096 + 1 + ((b + info.extent s) / 4096 - (b / 4096 + 1)))
      (by omega)]
    omega
  · omega

/-- Such a section keeps the invariant. -/
lemma Inv.big (hI : Inv info addressToMap F ys b st)
    (h : mapSection mmuGetPhysicalAddress addressToMap info s st = .ok st')
    (hb : s.baseAddress = info.imageBase + b) (hsz : info.sectionSize s = info.extent s)
    (hle : st.remaining ≤ info.extent s) (hys : ∀ r ∈ ys, info.first r ≤ b ∧ info.stop r ≤ b)
    (hT : addressToMap % 4096 = 0) (hroom : addressToMap + 2 ^ 32 < 2 ^ 64)
    (hbase : info.imageBase + 2 ^ 32 ≤ 2 ^ 64) (hfits : b + info.extent s < 2 ^ 32) :
    Inv info addressToMap F (ys ++ [s]) (b + info.extent s) st' := by
  have hrem := hI.remaining
  obtain ⟨hprev, hrem', hsize, haddr, hpages⟩ := mapSection_big h hb hsz hrem hle hT hroom hbase hfits
  have hfirst : info.first s = b := contiguous_first hb
  have hstop : info.stop s = b + info.extent s := by rw [NtHeaderInfo.stop, hfirst]
  -- behind the page the section starts in there is nothing but this section
  have hclear : ∀ q, b / 4096 < q → rightsOf (info.Reaches q) ys = 0 := by
    intro q hq
    refine rightsOf_none fun r hr ht => ?_
    have := (hys r hr).2
    have := ht.2
    omega
  have hreach : ∀ q, info.Reaches q s ↔ b / 4096 ≤ q ∧ 4096 * q ≤ b + info.extent s := by
    intro q
    rw [NtHeaderInfo.Reaches, hstop, hfirst]
    omega
  constructor
  · exact hrem'
  · intro q hlt hex
    rw [hpages, rightsOf_concat]
    by_cases h1 : q = b / 4096
    · rw [if_pos h1, if_pos ((hreach q).mpr (by omega)), h1, hI.prev]
    rw [if_neg h1]
    by_cases h2 : b / 4096 < q
    · rw [if_pos ⟨h2, hlt⟩, if_pos ((hreach q).mpr (by omega)), hclear q h2, Nat.zero_or]
    · have ht : ¬ info.Reaches q s := fun h => by
        have := (hreach q).mp h
        omega
      rw [if_neg (by omega), if_neg ht]
      exact hI.below q (by omega) (exists_init ht hex)
  · intro hF q hle
    rw [hpages, if_neg (by omega), if_neg (by omega)]
    exact hI.above hF q (by omega)
  · rw [hprev, rightsOf_concat, if_pos ((hreach _).mpr (by omega)), hclear _ (by omega), Nat.zero_or]
  · refine .inr ⟨s, by simp, by rw [haddr, hfirst], by omega,
      List.forall_mem_append.mpr ⟨fun r hr _ => ?_, by simp⟩⟩
    have := (hys r hr).1
    omega
  · intro h0
    simp only [List.getLast?_concat, Option.mem_some_iff, forall_eq']
    omega
  · intro h0 hne
    refine ⟨b / 4096 + 1, haddr, ?_⟩
    rw [hpages, if_neg (by omega), if_pos (by omega), hprev]

section

variable (hwf : WellFormed info secs addressToMap)
include hwf

/-- Every section keeps the invariant. -/
lemma WellFormed.section_inv (hT : addressToMap % 4096 = 0)
    (hsplit : secs = ys ++ s :: zs) (hI : Inv info addressToMap F ys (info.endOf (info.start secs) ys) st)
    (h : mapSection mmuGetPhysicalAddress addressToMap info s st = .ok st') :
    Inv info addressToMap F (ys ++ [s]) (info.endOf (info.start secs) (ys ++ [s])) st' := by
  have hs : s ∈ secs := by simp [hsplit]
  have hcont : info.Contiguous (info.start secs) (ys ++ s :: zs) := by
    rw [← hsplit]
    exact hwf.contiguous
  have hb := contiguous_split hcont
  have hfits : info.endOf (info.start secs) ys + info.extent s < 2 ^ 32 := by
    have := Nat.lt_of_le_of_lt (hwf.stop_le hs) hwf.fits
    rwa [NtHeaderInfo.stop, contiguous_first hb] at this
  have hsz : info.sectionSize s = info.extent s := by
    rw [NtHeaderInfo.sectionSize, ← NtHeaderInfo.extent, Nat.mod_eq_of_lt (by omega)]
  rw [endOf_concat]
  by_cases hlt : info.extent s < st.remaining
  · obtain ⟨_, -, h⟩ := bind_ok.mp h
    rw [if_pos (by rwa [hsz])] at h
    cases h
    exact hI.small (contiguous_first hb) hsz hlt
  · refine hI.big h hb hsz (by omega) (fun r hr => ?_) hT hwf.room hwf.base hfits
    have h2 := (contiguous_within (contiguous_left hcont) hr).2
    refine ⟨?_, h2⟩
    rw [NtHeaderInfo.stop] at h2
    omega

/-- The loop over the sections succeeds and keeps the invariant. -/
lemma WellFormed.sections_inv {m : Image} (ys : List SectionInfo) (hT : addressToMap % 4096 = 0)
    (hget : ∀ i s, secs[i]? = some s → peRetrieveSection m info i = .ok (.ok s)) {status : Status}
    (hsplit : secs = ys ++ zs) (hI : Inv info addressToMap F ys (info.endOf (info.start secs) ys) st)
    (h : mapSections mmuGetPhysicalAddress addressToMap info m zs.length ys.length st = .ok (status, st')) :
    status = .success ∧ Inv info addressToMap F secs (info.imageEnd secs) st' := by
  induction zs generalizing ys st with
  | nil =>
    cases h
    rw [List.append_nil] at hsplit
    exact ⟨rfl, hsplit ▸ hI⟩
  | cons s zs ih =>
    rw [List.length_cons, mapSections, hget ys.length s (by simp [hsplit]), bind_okay] at h
    obtain ⟨st1, h1, h2⟩ := bind_ok.mp h
    refine ih (ys ++ [s]) (by simp [hsplit]) (hwf.section_inv hT hsplit hI h1) ?_
    rwa [List.length_append]

/-- The invariant holds once the headers are mapped. -/
lemma WellFormed.headers_inv (h0 : addressToMap ≠ 0) (hT : addressToMap % 4096 = 0)
    (h : mapHeaders mmuGetPhysicalAddress addressToMap info pages = .ok pages') :
    Inv info addressToMap (∀ q, pages (addressToMap + 4096 * q) = none) [] (info.start secs)
      { pages := pages'
        prevSectionRequiredRights := pageRightsRead
        remaining := pageSize - addressOffset info.sizeOfHeaders pageSize
        sectionSize := 0
        pAlignedAddress := 0 } := by
  obtain ⟨hle, hmod⟩ := hwf.headers
  have hH : info.sizeOfHeaders < 2 ^ 32 := Nat.lt_of_le_of_lt (Nat.le_trans hle le_endOf) hwf.fits
  have hroom := hwf.room
  have hlast : wsub 64 (wadd 64 addressToMap info.sizeOfHeaders) pageSize =
      addressToMap + info.sizeOfHeaders - 4096 := by
    rw [wadd_eq (by omega), pageSize, wsub_eq (by omega) (by omega)]
  rw [mapHeaders, hlast] at h
  have hpages := mapWhile_ok (c := 0) (n := (info.sizeOfHeaders - 1) / 4096) h
    (fun i hi => by rw [decide_eq_true_iff]; omega) (by rw [decide_eq_false_iff_not]; omega) (by omega)
  refine ⟨by rw [addressOffset_page, hmod, pageSize], by simp,
    fun hF q hq => ?_, by simp [rightsOf, pageRightsRead], .inl ⟨by simp, rfl⟩, by simp, fun _ h => absurd rfl h⟩
  show rightsAt addressToMap pages' q = none
  rw [hpages, if_neg (by omega), rightsAt, hF q]
  rfl

lemma WellFormed.reaches (hs : s ∈ secs) (hb : info.HasByte q s) :
    info.Reaches q s ∧ 4096 * q < info.imageEnd secs := by
  obtain ⟨-, hfirst, hlt⟩ := hb
  obtain ⟨_, _, -, -, he, hle, -⟩ := hwf.extent_eq hs
  have := hwf.stop_le hs
  rw [NtHeaderInfo.Reaches, NtHeaderInfo.stop] at *
  omega

/-- The last page, which is mapped after the loop. -/
lemma WellFormed.final
    (hI : Inv info addressToMap F secs (info.imageEnd secs) st)
    (h : (if st.sectionSize ≠ 0 then mapImagePage mmuGetPhysicalAddress addressToMap info
        st.prevSectionRequiredRights st.pAlignedAddress st.pages else pure st.pages) = .ok pages') :
    (LastPage info secs → ∀ q, (∃ s ∈ secs, info.HasByte q s) →
      rightsAt addressToMap pages' q = some (rightsOf (info.Reaches q) secs)) ∧
    (F → ¬ LastPage info secs → rightsAt addressToMap pages' (info.imageEnd secs / 4096) = none) := by
  by_cases h0 : info.imageEnd secs % 4096 = 0
  · -- if a page is mapped again it is with the rights it has
    refine ⟨fun _ q hex => ?_, fun _ hno => absurd (fun _ => .inl h0) hno⟩
    have hsame : rightsAt addressToMap pages' q = rightsAt addressToMap st.pages q := by
      split at h
      · next hne =>
        obtain ⟨c, hc, hrights⟩ := hI.finished h0 hne
        rw [hc] at h
        rw [mapImagePage_ok h]
        split
        · next hq => rw [hq, hrights]
        · rfl
      · cases h
        rfl
    obtain ⟨s, hs, hb⟩ := hex
    obtain ⟨ht, hlt⟩ := hwf.reaches hs hb
    rw [hsame, hI.below q (by omega) ⟨s, hs, ht⟩]
  by_cases hlast : ∀ s ∈ secs.getLast?, 0 < s.size
  swap
  · -- behind an empty section the last page is not mapped
    obtain ⟨s, hs⟩ := not_forall.mp hlast
    obtain ⟨hs, hempty⟩ := Classical.not_imp.mp hs
    rw [← hwf.extent_pos_iff (List.mem_of_getLast? hs), ← hI.unfinished h0 s hs] at hempty
    rw [if_neg hempty] at h
    cases h
    refine ⟨fun hlp q ⟨r, hr, hb⟩ => ?_, fun hF _ => hI.above hF _ (Nat.le_refl _)⟩
    exact absurd ((hlp ⟨r, hr, hb.1⟩).resolve_left h0).1 hlast
  by_cases hne : secs = []
  · exact ⟨fun _ q ⟨s, hs, _⟩ => by simp [hne] at hs, fun _ hno =>
      absurd (fun ⟨s, hs, _⟩ => by simp [hne] at hs) hno⟩
  have hl := List.getLast?_eq_some_getLast hne
  rw [if_pos ((hI.unfinished h0 _ hl).mpr ((hwf.extent_pos_iff (List.getLast_mem hne)).mpr (hlast _ hl)))] at h
  rcases hI.address with ⟨-, haddr⟩ | ⟨s, hs, haddr, hlt, hmax⟩
  · -- the null page cannot be mapped
    obtain ⟨_, -, h⟩ := bind_ok.mp h
    obtain ⟨_, h, -⟩ := bind_ok.mp h
    exact absurd haddr (ensure_ok.mp h)
  rw [haddr] at h
  have hpages := mapImagePage_ok h
  constructor
  · rintro hlp q ⟨r, hr, hb⟩
    have hc : info.first s / 4096 + 1 = info.imageEnd secs / 4096 := by
      obtain ⟨-, r, hr, h⟩ := (hlp ⟨r, hr, hb.1⟩).resolve_left h0
      have := hmax r hr (by omega)
      omega
    rw [hpages, hc]
    split
    · next hq => rw [hI.prev, hq]
    · next hq =>
      obtain ⟨ht, hlt⟩ := hwf.reaches hr hb
      exact hI.below q (by omega) ⟨r, hr, ht⟩
  · intro hF hno
    have hc : info.imageEnd secs / 4096 ≠ info.first s / 4096 + 1 := fun hc =>
      hno fun _ => .inr ⟨hlast, s, hs, hc.symm⟩
    rw [hpages, if_neg hc]
    exact hI.above hF _ (Nat.le_refl _)

end

lemma headerRights_eq_zero (info : NtHeaderInfo) (q : Nat) : info.headerRights q = 0 := by
  unfold NtHeaderInfo.headerRights pageRightsRead
  split <;> rfl

/-- For a well-formed image that was mapped: every page has the rights of what is in it if no rights leak
    over a page boundary and the last page is as it should be. If nothing was mapped before this is the
    only way. -/
theorem mapsRights_of_noLeaks (m : Image) (hwf : WellFormed info secs addressToMap)
    (hcount : info.numberOfSections = secs.length)
    (hget : ∀ i s, secs[i]? = some s → peRetrieveSection m info i = .ok (.ok s))
    (hrun : mmuMapPeInMemory mmuGetPhysicalAddress addressToMap info m pages = .ok (.success, pages')) :
    (NoLeaks info secs ∧ LastPage info secs → MapsRights info secs addressToMap pages') ∧
    ((∀ q, pages (addressToMap + 4096 * q) = none) → MapsRights info secs addressToMap pages' →
      NoLeaks info secs ∧ LastPage info secs) := by
  obtain ⟨_, -, hrun⟩ := bind_ok.mp hrun
  obtain ⟨_, h0, hrun⟩ := bind_ok.mp hrun
  obtain ⟨_, hT, hrun⟩ := bind_ok.mp hrun
  have h0 := ensure_ok.mp h0
  have hT := isAddressAligned_page.mp (ensure_ok.mp hT)
  split at hrun
  · cases hrun
  obtain ⟨pages1, hheaders, hrun⟩ := bind_ok.mp hrun
  obtain ⟨⟨status, st⟩, hsections, hrun⟩ := bind_ok.mp hrun
  rw [hcount] at hsections
  obtain ⟨rfl, hI⟩ := hwf.sections_inv [] hT hget rfl (hwf.headers_inv h0 hT hheaders) hsections
  have hlast : (if st.sectionSize ≠ 0 then mapImagePage mmuGetPhysicalAddress addressToMap info
      st.prevSectionRequiredRights st.pAlignedAddress st.pages else pure st.pages) = .ok pages' := by
    simp only [ne_eq, not_true_eq_false, if_false] at hrun
    split at hrun
    · next hne =>
      obtain ⟨p, hp, hrun⟩ := bind_ok.mp hrun
      cases hrun
      rw [if_pos hne, hp]
    · next hne =>
      cases hrun
      rw [if_neg hne]
      rfl
  obtain ⟨hall, hnone⟩ := hwf.final hI hlast
  constructor
  · rintro ⟨hleak, hlp⟩ q ⟨s, hs, hb⟩
    obtain ⟨f, hf, hrights⟩ := Option.map_eq_some_iff.mp (hall hlp q ⟨s, hs, hb⟩)
    rw [hleak q ⟨s, hs, hb⟩] at hrights
    refine ⟨f, hf, by rw [hrights, headerRights_eq_zero, Nat.zero_or], fun s' honly => ?_⟩
    rw [hrights, rightsOf_only honly ⟨s, hs, hb⟩, ← honly s hs hb]
    exact hwf.rights s hs
  · intro hF hmaps
    have hlp : LastPage info secs := by
      by_contra hno
      obtain ⟨f, hf, -⟩ := hmaps _ (hwf.last_hasByte hno)
      have := hnone hF hno
      rw [rightsAt, hf] at this
      cases this
    refine ⟨fun q hex => ?_, hlp⟩
    obtain ⟨f, hf, hrights, -⟩ := hmaps q hex
    have hq := hall hlp q hex
    rw [rightsAt, hf] at hq
    rw [← Option.some.inj hq, hrights, headerRights_eq_zero, Nat.zero_or]

/-! ## Two images -/

def writeTable (mem : Mem) (base address : Nat) : List SectionInfo → Mem
  | [] => mem
  | s :: ss => writeTable (writeLE (writeLE (writeLE mem (address + 8) 4 s.size) (address + 12) 4
      (s.baseAddress - base)) (address + 36) 4 s.characteristics) base (address + sizeofSectionHeader) ss

def sampleImage (alignment headers size : Nat) (secs : List SectionInfo) : Image where
  base := 2 ^ 32
  size := size
  mem := writeTable (writeLE (writeLE (writeLE (writeLE (writeLE (writeLE (writeLE (writeLE (writeLE
    (writeLE (fun _ => 0) (2 ^ 32) 2 mzSignature) (2 ^ 32 + lfanew) 4 64) (2 ^ 32 + 64) 4 ntSignature)
    (2 ^ 32 + 64 + machine) 2 imageFileMachineAmd64) (2 ^ 32 + 64 + numberOfSections) 2 secs.length)
    (2 ^ 32 + 64 + sizeOfOptionalHeader) 2 240) (2 ^ 32 + 64 + sectionAlignment) 4 alignment)
    (2 ^ 32 + 64 + fileAlignment) 4 alignment) (2 ^ 32 + 64 + sizeOfHeaders) 4 headers)
    (2 ^ 32 + 64 + sizeOfImage) 4 size) (2 ^ 32) (2 ^ 32 + 328) secs

def pageSections : List SectionInfo := [⟨2 ^ 32 + 0x1000, 0x2000, imageScnMemRead ||| imageScnMemExecute⟩,
    ⟨2 ^ 32 + 0x3000, 0x1000, imageScnMemRead ||| imageScnMemWrite⟩]

def sharedSections : List SectionInfo := [⟨2 ^ 32 + 0x200, 0x1000, imageScnMemRead ||| imageScnMemExecute⟩,
    ⟨2 ^ 32 + 0x1200, 0x5F0, imageScnMemRead ||| imageScnMemWrite⟩]

def sampleInfo (alignment headers size : Nat) (secs : List SectionInfo) : NtHeaderInfo where
  imageBase := 2 ^ 32
  ntBase := 2 ^ 32 + 64
  addressOfEntryPoint := 2 ^ 32
  imageAlignment := alignment
  fileAlignment := alignment
  preferredImageBase := 0
  preferredAddressOfEntryPoint := 0
  size := size
  machine := imageFileMachineAmd64
  subsystem := 0
  sizeOfHeaders := headers
  numberOfSections := secs.length

lemma retrieve_two {m : Image} (h0 : peRetrieveSection m info 0 = .ok (.ok r))
    (h1 : peRetrieveSection m info 1 = .ok (.ok s)) :
    ∀ i x, [r, s][i]? = some x → peRetrieveSection m info i = .ok (.ok x)
  | 0, _, h => by cases h; exact h0
  | 1, _, h => by cases h; exact h1
  | _ + 2, _, h => by cases h

/-- Sections on pages of their own: the page of the data is both writable and executable. -/
theorem data_page_executable :
    ∃ info pages', peRetrieveNtHeader (sampleImage 0x1000 0x1000 0x4000 pageSections) = .ok (.ok info) ∧
      WellFormed info pageSections (2 ^ 40) ∧
      (∀ i s, pageSections[i]? = some s →
        peRetrieveSection (sampleImage 0x1000 0x1000 0x4000 pageSections) info i = .ok (.ok s)) ∧
      mmuMapPeInMemory id (2 ^ 40) info (sampleImage 0x1000 0x1000 0x4000 pageSections) (fun _ => none) =
        .ok (.success, pages') ∧
      pages' (2 ^ 40 + 0x3000) = some ⟨2 ^ 32 + 0x3000, pageRightsWrite ||| pageRightsExecute⟩ ∧
      ¬ MapsRights info pageSections (2 ^ 40) pages' := by
  obtain ⟨_, pages', hrun, rfl, hpage⟩ : ∃ status pages', mmuMapPeInMemory id (2 ^ 40)
        (sampleInfo 0x1000 0x1000 0x4000 pageSections) (sampleImage 0x1000 0x1000 0x4000 pageSections)
        (fun _ => none) = .ok (status, pages') ∧ status = .success ∧ pages' (2 ^ 40 + 0x3000) =
      some ⟨2 ^ 32 + 0x3000, pageRightsWrite ||| pageRightsExecute⟩ := exists_ok_pair (by decide)
  refine ⟨sampleInfo 0x1000 0x1000 0x4000 pageSections, pages', by decide, ?_, ?_, hrun, hpage, ?_⟩
  · exact ⟨⟨12, by decide, rfl⟩, by decide, by decide,
      ⟨rfl, rfl, trivial⟩, by decide, by decide, by decide, by decide, by decide⟩
  · exact retrieve_two (by decide) (by decide)
  · intro h
    obtain ⟨f, hf, hr, -⟩ := h 3 (by decide)
    rw [show 2 ^ 40 + 4096 * 3 = 2 ^ 40 + 0x3000 from rfl, hpage] at hf
    cases hf
    exact absurd hr (by decide)

/-- A page that is shared and a last page that is not full: both have the rights of what is in them. -/
theorem shared_page_rights : ∃ pages', mmuMapPeInMemory id (2 ^ 40) (sampleInfo 0x200 0x200 0x1800 sharedSections)
        (sampleImage 0x200 0x200 0x1800 sharedSections) (fun _ => none) = .ok (.success, pages') ∧
      MapsRights (sampleInfo 0x200 0x200 0x1800 sharedSections) sharedSections (2 ^ 40) pages' := by
  obtain ⟨⟨_, pages'⟩, hrun, rfl⟩ : ∃ r, mmuMapPeInMemory id (2 ^ 40) (sampleInfo 0x200 0x200 0x1800 sharedSections)
      (sampleImage 0x200 0x200 0x1800 sharedSections) (fun _ => none) = .ok r ∧ r.1 = .success :=
    exists_ok (by decide)
  have hwf : WellFormed (sampleInfo 0x200 0x200 0x1800 sharedSections) sharedSections (2 ^ 40) :=
    ⟨⟨9, by decide, rfl⟩, by decide, by decide, ⟨rfl, rfl, trivial⟩, by decide, by decide, by decide, by decide,
      by decide⟩
  refine ⟨pages', hrun, (mapsRights_of_noLeaks _ hwf rfl ?_ hrun).1 ⟨fun q hex => ?_, fun _ => .inr (by decide)⟩⟩
  · exact retrieve_two (by decide) (by decide)
  · have hend : ∀ s ∈ sharedSections, (sampleInfo 0x200 0x200 0x1800 sharedSections).first s + s.size ≤ 0x17F0 := by
      decide
    obtain ⟨s, hs, -, -, hlt⟩ := hex
    have := hend s hs
    obtain rfl | rfl : q = 0 ∨ q = 1 := by omega
    · decide
    · decide

end HAL9000.Pe
