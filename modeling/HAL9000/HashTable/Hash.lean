import HAL9000.HashTable.Model
import HAL9000.Lib.ByteMem

/-!
# The hash functions

Port of the two hash functions of `CommonLib/src/hash_table.c`, and of `cl_memcpy`. Both functions copy the key
into a local variable of eight bytes and compute with the number that is there then. The memory notes down
which bytes are read and written.

With a key of at most eight bytes nothing but the key is read, and nothing but the variable written.
`HashTablePreinit` accepts longer keys, too, and the assertions of the functions let them pass: they compare
the length with the largest number, not with the size of the variable.
-/

namespace HAL9000.HashTable
open Lib

def maxQword : Nat := 0xFFFFFFFFFFFFFFFF

/-- Memory, and the addresses of the bytes that have been read and written. -/
structure Traced where
  mem : Mem
  reads : List Nat
  writes : List Nat

def Traced.read (t : Traced) (a n : Nat) : Nat × Traced :=
  (readLE t.mem a n, { t with reads := t.reads ++ List.range' a n })

def Traced.write (t : Traced) (a n v : Nat) : Traced :=
  { t with mem := writeLE t.mem a n v, writes := t.writes ++ List.range' a n }

/-- Load `n` bytes and store them. -/
def Traced.move (t : Traced) (dst src n : Nat) : Traced where
  mem := copyTo t.mem dst n fun i => t.mem (src + i)
  reads := t.reads ++ List.range' src n
  writes := t.writes ++ List.range' dst n

/-- Copy this many `QWORD`s (C `__movsq`). -/
def movsq (dst src : Nat) : Nat → Traced → Traced
  | 0, t => t
  | count + 1, t => movsq (dst + 8) (src + 8) count (t.move dst src 8)

/-- Copy 4, 2 or 1 of the bytes that make up no `QWORD`, and step the two pointers. -/
def copyPart (part unalignedCount : Nat) : Nat × Nat × Traced → Nat × Nat × Traced
  | (dst, src, t) =>
    if unalignedCount &&& part ≠ 0 then (dst + part, src + part, t.move dst src part) else (dst, src, t)

/-- Copy `count` bytes (C `cl_memcpy`). -/
def clMemcpy (destination source count : Nat) (t : Traced) : Exec Traced :=
  if destination = 0 ∨ source = 0 then pure t
  else
    let unalignedCount := count &&& 0x7
    let alignedCount := wsub 64 count unalignedCount
    let (_, _, t) := copyPart 0x1 unalignedCount
      (copyPart 0x2 unalignedCount (copyPart 0x4 unalignedCount (destination, source, t)))
    if alignedCount ≠ 0 then do
      ensure (isAddressAligned alignedCount 8)
      pure (movsq (destination + unalignedCount) (source + unalignedCount) (alignedCount / 8) t)
    else pure t

/-- A hash function takes the address of its variable, the key, its length and the number of buckets
    (C `FUNC_HashFunction`). -/
abbrev HashFunc := Nat → Nat → Nat → Nat → Traced → Exec (Nat × Traced)

def modulo (a b : Nat) : Exec Nat := if b = 0 then throw .divide else pure (a % b)

/-- What the two functions have in common: copy the key, and compute an index from the number. -/
def hashKey (index : Nat → Nat → Exec Nat) : HashFunc := fun keyValue key keyLength maxKeys t => do
  ensure (key ≠ 0)
  ensure (keyLength ≤ maxQword)
  let t ← clMemcpy keyValue key keyLength (t.write keyValue 8 0)
  let (value, t) := t.read keyValue 8
  pure (← index value maxKeys, t)

/-- C `HashFuncGenericIncremental`. -/
def hashFuncGenericIncremental : HashFunc := hashKey modulo

def hashUniversalA : Nat := 1701

def hashUniversalB : Nat := 59

def hashUniversalP : Nat := 10007

/-- C `HashFuncUniversal`. -/
def hashFuncUniversal : HashFunc := hashKey fun value maxKeys => do
  let result := value % hashUniversalP
  ensure (result < maxQword / hashUniversalA - hashUniversalB)
  modulo (wadd 64 (hashUniversalA * result % 2 ^ 64) hashUniversalB % hashUniversalP) maxKeys

section Copy

variable {dst src n : Nat} {t t' : Traced}

/-- From `t` to `t'`, `n` bytes have been copied. -/
structure Transferred (dst src n : Nat) (t t' : Traced) : Prop where
  reads : ∀ a, a ∈ t'.reads ↔ a ∈ t.reads ∨ Span src n a
  writes : ∀ a, a ∈ t'.writes ↔ a ∈ t.writes ∨ Span dst n a
  mem : src + n ≤ dst ∨ dst + n ≤ src → t'.mem = copyTo t.mem dst n fun i => t.mem (src + i)

lemma Transferred.refl (dst src : Nat) (t : Traced) : Transferred dst src 0 t t where
  reads a := by simp [Span]
  writes a := by simp [Span]
  mem _ := by
    funext x
    exact (if_neg (by omega)).symm

lemma Transferred.move (h : Transferred dst src n t t') (k : Nat) :
    Transferred dst src (n + k) t (t'.move (dst + n) (src + n) k) where
  reads a := by
    simp only [Traced.move, List.mem_append, h.reads, List.mem_range'_1, Span, or_assoc]
    refine or_congr_right ?_
    omega
  writes a := by
    simp only [Traced.move, List.mem_append, h.writes, List.mem_range'_1, Span, or_assoc]
    refine or_congr_right ?_
    omega
  mem hd := by
    funext x
    simp only [Traced.move, h.mem (by omega), copyTo]
    by_cases h1 : dst + n ≤ x ∧ x < dst + n + k
    · rw [if_pos h1, if_neg (by omega), if_pos (by omega)]
      exact congrArg t.mem (by omega)
    · rw [if_neg h1]
      by_cases h2 : dst ≤ x ∧ x < dst + n
      · rw [if_pos h2, if_pos (by omega)]
      · rw [if_neg h2, if_neg (by omega)]

lemma Transferred.movsq (h : Transferred dst src n t t') (count : Nat) :
    Transferred dst src (n + 8 * count) t (movsq (dst + n) (src + n) count t') := by
  induction count generalizing n t' with
  | zero => exact h
  | succ count ih =>
    have hrest := ih (h.move 8)
    rwa [Nat.add_assoc n, Nat.add_comm 8, ← Nat.mul_succ] at hrest

lemma Transferred.copyPart (h : Transferred dst src n t t') (u i : Nat) :
    ∃ t'', copyPart (2 ^ i) u (dst + n, src + n, t') = (dst + (n + (u &&& 2 ^ i)), src + (n + (u &&& 2 ^ i)), t'') ∧
      Transferred dst src (n + (u &&& 2 ^ i)) t t'' := by
  rw [HashTable.copyPart, Nat.and_two_pow]
  cases u.testBit i with
  | false => exact ⟨t', by simp, by simpa using h⟩
  | true => exact ⟨_, by simp [Nat.add_assoc]; rfl, by simpa using h.move (2 ^ i)⟩

lemma clMemcpy_copied (hdst : dst ≠ 0) (hsrc : src ≠ 0) (hn : n < 2 ^ 64) (t : Traced) :
    ∃ t', clMemcpy dst src n t = .ok t' ∧ Transferred dst src n t t' := by
  have hu : n &&& 7 = n % 8 := Nat.and_two_pow_sub_one_eq_mod n 3
  have ha : wsub 64 n (n % 8) = n - n % 8 := wsub_eq hn (Nat.mod_le n 8)
  have hsum : ∀ u < 8, (u &&& 2 ^ 2) + (u &&& 2 ^ 1) + (u &&& 2 ^ 0) = u := by decide
  obtain ⟨t1, e1, h1⟩ := (Transferred.refl dst src t).copyPart (n % 8) 2
  obtain ⟨t2, e2, h2⟩ := h1.copyPart (n % 8) 1
  obtain ⟨t3, e3, h3⟩ := h2.copyPart (n % 8) 0
  rw [Nat.zero_add, hsum _ (Nat.mod_lt n (by decide))] at h3
  have hparts : copyPart 1 (n % 8) (copyPart 2 (n % 8) (copyPart 4 (n % 8) (dst, src, t))) = (_, _, t3) :=
    (congrArg (copyPart 1 (n % 8)) ((congrArg (copyPart 2 (n % 8)) e1).trans e2)).trans e3
  simp only [clMemcpy, hdst, hsrc, or_self, if_false, hu, ha, hparts]
  by_cases h0 : n - n % 8 = 0
  · refine ⟨t3, if_neg (not_not.mpr h0), ?_⟩
    rwa [Nat.le_antisymm (Nat.mod_le n 8) (Nat.sub_eq_zero_iff_le.mp h0)] at h3
  · have halign := (isAddressAligned_iff (k := 3) (by decide)).mpr (by omega : (n - n % 8) % 2 ^ 3 = 0)
    refine ⟨_, (if_pos h0).trans (bind_ok.mpr ⟨(), ensure_ok.mpr halign, rfl⟩), ?_⟩
    have hall := h3.movsq ((n - n % 8) / 8)
    rwa [show n % 8 + 8 * ((n - n % 8) / 8) = n by omega] at hall

end Copy

/-- A call of a hash function: the key and the variable of the function lie in memory, apart from each other. -/
structure Call (keySize key keyValue : Nat) : Prop where
  key_ne : key ≠ 0
  keyValue_ne : keyValue ≠ 0
  key_le : key + keySize ≤ 2 ^ 64
  keyValue_le : keyValue + 8 ≤ 2 ^ 64
  apart : key + keySize ≤ keyValue ∨ keyValue + 8 ≤ key

/-- The function returns an index below the number of buckets that is determined by the bytes of the key. Outside
    of its variable it reads these bytes, and writes nothing. -/
def HashesSafely (hash : HashFunc) (keySize maxKeys : Nat) : Prop :=
  ∃ index : List UInt8 → Nat, ∀ m key keyValue, Call keySize key keyValue →
    ∃ t, hash keyValue key keySize maxKeys ⟨m, [], []⟩ = .ok (index (bytes keySize fun i => m (key + i)), t) ∧
      index (bytes keySize fun i => m (key + i)) < maxKeys ∧
      (∀ a, a ∈ t.reads ∧ ¬ Span keyValue 8 a ↔ Span key keySize a) ∧ ∀ a ∈ t.writes, Span keyValue 8 a

variable {index : Nat → Nat → Exec Nat} {keySize maxKeys key keyValue : Nat}

lemma hashKey_copied (index : Nat → Nat → Exec Nat) (maxKeys : Nat) (hc : Call keySize key keyValue)
    (hn : keySize < 2 ^ 64) (t : Traced) :
    ∃ t', Transferred keyValue key keySize (t.write keyValue 8 0) t' ∧
      hashKey index keyValue key keySize maxKeys t =
        index (readLE t'.mem keyValue 8) maxKeys >>= fun r => .ok (r, (t'.read keyValue 8).2) := by
  obtain ⟨t', hcopy, hcopied⟩ := clMemcpy_copied hc.keyValue_ne hc.key_ne hn (t.write keyValue 8 0)
  have hmax : keySize ≤ maxQword := Nat.le_of_lt_succ hn
  refine ⟨t', hcopied, ?_⟩
  rw [hashKey, ensure_pos hc.key_ne, bind_okay, ensure_pos hmax, bind_okay, hcopy, bind_okay]
  rfl

/-- The number in the variable: the bytes of the key, and then zeros. -/
def keyNumber (key : List UInt8) : Nat := readLE (fun i => key.getD i 0) 0 8

lemma Transferred.keyNumber {t t' : Traced} (h : Transferred keyValue key keySize (t.write keyValue 8 0) t')
    (hc : Call keySize key keyValue) (hn : keySize ≤ 8) :
    readLE t'.mem keyValue 8 = keyNumber (bytes keySize fun i => t.mem (key + i)) := by
  rw [HashTable.keyNumber, ← Nat.add_zero keyValue, ← readLE_shift]
  refine readLE_congr fun i hi => ?_
  have hi8 : i < 8 := by simpa using hi.2
  have hapart := hc.apart
  rw [h.mem (by omega), copyTo]
  by_cases hik : i < keySize
  · rw [if_pos (by omega), Nat.add_sub_cancel_left]
    refine Eq.trans (if_neg (by omega)) ?_
    simp [bytes, hik]
  · rw [if_neg (by omega)]
    refine Eq.trans (if_pos (by omega)) ?_
    simp [bytes, hik]

lemma hashKey_safely_iff (hindex : ∀ value, ∃ r < maxKeys, index value maxKeys = .ok r) (hn : keySize < 2 ^ 32) :
    HashesSafely (hashKey index) keySize maxKeys ↔ keySize ≤ 8 := by
  constructor
  · rintro ⟨f, hf⟩
    by_contra hlong
    have hc : Call keySize 1 (2 ^ 33) := ⟨by decide, by decide, by omega, by decide, by omega⟩
    obtain ⟨t, hrun, -, -, hwrites⟩ := hf (fun _ => 0) 1 (2 ^ 33) hc
    obtain ⟨t', hcopied, heq⟩ := hashKey_copied index maxKeys hc (by omega)
      ⟨fun _ => 0, [], []⟩
    rw [heq] at hrun
    obtain ⟨r, -, hr⟩ := bind_ok.mp hrun
    cases hr
    -- the ninth byte is stored behind the variable
    have hnine := hwrites (2 ^ 33 + 8) ((hcopied.writes _).mpr (.inr ⟨by omega, by omega⟩))
    exact absurd hnine.2 (by omega)
  · intro hshort
    choose f hlt hf using hindex
    refine ⟨fun bs => f (keyNumber bs), fun m key keyValue hc => ?_⟩
    obtain ⟨t', hcopied, heq⟩ := hashKey_copied index maxKeys hc (by omega) ⟨m, [], []⟩
    refine ⟨(t'.read keyValue 8).2, heq.trans ?_, hlt _, fun a => ?_, fun a ha => ?_⟩
    · rw [hcopied.keyNumber hc hshort, hf]
      rfl
    · have hapart := hc.apart
      simp only [Traced.read, List.mem_append, hcopied.reads, Traced.write, List.not_mem_nil, false_or,
        List.mem_range'_1, Span]
      omega
    · simp only [Traced.read, hcopied.writes, Traced.write, List.nil_append, List.mem_range'_1, Span] at ha ⊢
      omega

lemma modulo_lt (h : 0 < maxKeys) (value : Nat) : ∃ r < maxKeys, modulo value maxKeys = .ok r :=
  ⟨value % maxKeys, Nat.mod_lt _ h, if_neg (Nat.ne_of_gt h)⟩

/-- On a table that `HashTablePreinit` accepts, both hash functions are safe if and only if a key has at most
    eight bytes. -/
theorem hashFunctions_safe_iff {E : Type} [DecidableEq E] {t : Table E} (hn : keySize < 2 ^ 32)
    (hashFunc : (Nat → UInt8) → Nat → Nat → Nat) (links : Links (Slot E)) (keys : Slot E → Nat → UInt8)
    (hinit : hashTableInit maxKeys keySize hashFunc links keys = .ok t) :
    HashesSafely hashFuncGenericIncremental t.keySize t.maxKeys ∧
      HashesSafely hashFuncUniversal t.keySize t.maxKeys ↔ keySize ≤ 8 := by
  obtain ⟨_, haccepted, ht⟩ := bind_ok.mp hinit
  obtain ⟨hpos, -⟩ := ensure_ok.mp haccepted
  cases ht
  have hincremental := hashKey_safely_iff (modulo_lt hpos) hn
  have huniversal : HashesSafely hashFuncUniversal keySize maxKeys ↔ keySize ≤ 8 := by
    refine hashKey_safely_iff (fun value => ?_) hn
    have hlt : value % hashUniversalP < maxQword / hashUniversalA - hashUniversalB :=
      Nat.lt_trans (Nat.mod_lt _ (by decide)) (by decide)
    obtain ⟨r, hr, heq⟩ := modulo_lt hpos
      (wadd 64 (hashUniversalA * (value % hashUniversalP) % 2 ^ 64) hashUniversalB % hashUniversalP)
    exact ⟨r, hr, bind_ok.mpr ⟨(), ensure_ok.mpr hlt, heq⟩⟩
  exact ⟨fun h => hincremental.mp h.1, fun h => ⟨hincremental.mpr h, huniversal.mpr h⟩⟩

/-- A key of two bytes in a table of 16 buckets. -/
theorem hashFunctions_safe_two : HashesSafely hashFuncUniversal 2 16 :=
  ((hashFunctions_safe_iff (by decide) _ _ _ (show hashTableInit (E := Nat) 16 2 (fun _ _ _ => 0) ⟨id, id⟩
    (fun _ _ => 0) = .ok _ from rfl)).mpr (by decide)).2

/-- With nine bytes, which `HashTablePreinit` accepts, the last of them is stored behind the variable. -/
theorem hashFunctions_overrun :
    (∃ t : Table Nat, hashTableInit 16 9 (fun _ _ _ => 0) ⟨id, id⟩ (fun _ _ => 0) = .ok t) ∧
    ∀ hash ∈ [hashFuncGenericIncremental, hashFuncUniversal], ∃ r t,
      hash 0x2000 0x1000 9 16 ⟨fun a => if a < 0x2000 then 0xFF else 0, [], []⟩ = .ok (r, t) ∧
        0x2008 ∈ t.writes ∧ t.mem 0x2008 = 0xFF := by
  refine ⟨⟨_, rfl⟩, ?_⟩
  simp only [List.forall_mem_cons]
  exact ⟨exists_ok_pair (by decide), exists_ok_pair (by decide), by simp⟩

end HAL9000.HashTable
