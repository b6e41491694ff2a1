import HAL9000.Keyboard.Line

/-!
# The line stays in its buffer

`Ready` holds in front of every round of the loop of `gets_s`. In a buffer of at least 80 bytes, byte 79 is never
written. In a smaller one the line ends inside the part that is used, and the cursor is not behind its end; to keep
this, a character may be typed only if there is room for it.
-/

namespace HAL9000.Keyboard
open Lib CString Function List

def Terminated (con : Console) (m : Mem) : Prop := ∃ k < con.bufferSize, m (con.buffer + k) = 0

def Console.Owned (con : Console) (x : Nat) : Prop := con.Buffer x ∨ Span con.rows (16 * 80) x

def Ready (con : Console) (s : Session) : Prop :=
  if 80 ≤ con.bufferSize then s.mem (con.buffer + 79) = 0 ∧ s.i ≤ 78
  else ∃ n, HasLength s.mem con.buffer n ∧ n < con.maxBufferSize ∧ s.i ≤ n

def Patient (con : Console) : List Key → Session → Prop
  | [], _ => True
  | key :: keys, s =>
    (∀ c, key = .other c → c ≠ 0 → clStrlenS s.mem con.buffer con.maxBufferSize < con.maxBufferSize - 1) ∧
    ∀ s', keyPressed con s key = .ok (s', false) → Patient con keys s'

/-- A round of the loop keeps to the buffer and the history, and the line has an end. -/
def Keeps (con : Console) (s : Session) (x : Exec (Session × Bool)) : Prop :=
  ∃ s' b, x = .ok (s', b) ∧ Terminated con s'.mem ∧ (b = false → Ready con s') ∧ Within con.Owned s.mem s'.mem

/-- As `Keeps`, for a step behind which the loop goes on. -/
def KeepsReady (con : Console) (s : Session) (x : Exec Session) : Prop :=
  ∃ s', x = .ok s' ∧ Ready con s' ∧ Within con.Owned s.mem s'.mem

/-- The memory behind `shiftRight`. -/
def shifted (m : Mem) (buffer i n : Nat) : Mem :=
  fun x => if buffer + i < x ∧ x ≤ buffer + n then m (x - 1) else m x

section Shift

variable {W : Nat → Prop} [DecidablePred W] {m : Mem} {buffer maxLen i j k n : Nat} {xs ys : List UInt8}

lemma shifted_zero (h : n ≤ i) : shifted m buffer i n = m := funext fun _ => if_neg (by omega)

lemma shiftRight_eq (hW : ∀ j, i < j → j ≤ n → W (buffer + j)) :
    shiftRight W buffer i n m = .ok (shifted m buffer i n) := by
  induction n generalizing m with
  | zero => rw [shifted_zero (Nat.zero_le i), shiftRight, pure_okay]
  | succ n ih =>
    rw [shiftRight]
    by_cases hn : n ≥ i
    · rw [if_pos hn, poke_pos (hW _ (by omega) le_rfl), bind_okay, ih fun j hij hj => hW j hij (by omega)]
      refine congrArg Except.ok (funext fun x => ?_)
      rw [shifted, shifted]
      by_cases hx : x = buffer + (n + 1)
      · rw [if_neg (by omega), if_pos (by omega), hx, update_self]
        rfl
      · by_cases hin : buffer + i < x ∧ x ≤ buffer + n
        · rw [if_pos hin, if_pos (by omega), update_of_ne (by omega)]
        · rw [if_neg hin, if_neg (by omega), update_of_ne hx]
    · rw [if_neg hn, shifted_zero (by omega), pure_okay]

lemma exists_split {s : List UInt8} (hi : i ≤ s.length) : ∃ xs ys, s = xs ++ ys ∧ xs.length = i :=
  ⟨s.take i, s.drop i, (take_append_drop ..).symm, length_take_of_le hi⟩

lemma spells_insert {c : UInt8} (h : Spells m buffer (xs ++ ys)) (hc : c ≠ 0) :
    Spells (update (shifted m buffer xs.length ((xs ++ ys).length + 1)) (buffer + xs.length) c) buffer
      (xs ++ c :: ys) := by
  obtain ⟨hxs, hne, hys⟩ := spells_append.mp h
  rw [length_append]
  refine spells_append.mpr ⟨fun k hk => ?_, hne, update_self .., hc, hys.move fun k hk => ?_⟩
  · rw [update_of_ne (by omega), shifted, if_neg (by omega), hxs k hk]
  · rw [update_of_ne (by omega), shifted, if_pos (by omega)]
    exact congrArg m (by omega)

lemma shiftLeft_stop (h0 : buffer ≠ 0) (h : HasLength m buffer n) (hn : n < j) :
    shiftLeft W buffer maxLen (k + 1) j m = .ok m := by
  rw [shiftLeft, clStrlenS_hasLength h0 h, if_neg (by omega), pure_okay]

lemma shiftLeft_spells (h0 : buffer ≠ 0) (hW : ∀ x, Span buffer maxLen x → W x) {x : UInt8}
    (h : Spells m buffer (xs ++ x :: ys)) (hlen : (xs ++ x :: ys).length ≤ maxLen) (hk : ys.length + 1 < k) :
    ∃ m', shiftLeft W buffer maxLen k (xs.length + 1) m = .ok m' ∧ Spells m' buffer (xs ++ ys) := by
  induction ys generalizing xs x m k with
  | nil =>
    obtain ⟨k, rfl⟩ : ∃ k', k = k' + 2 := ⟨k - 2, by rw [length_nil] at hk; omega⟩
    have hend := h.last
    have hcut := h.cut (i := xs.length) (by simp)
    rw [length_append, length_singleton] at hlen hend
    rw [take_left] at hcut
    rw [shiftLeft, clStrlenS_hasLength h0 h.hasLength, length_append, length_singleton, if_pos (by omega),
      poke_pos (hW _ ⟨by omega, by omega⟩), bind_okay, hend, Nat.add_sub_cancel,
      shiftLeft_stop h0 hcut.hasLength (by omega), append_nil]
    exact ⟨_, rfl, hcut⟩
  | cons y ys ih =>
    obtain ⟨k, rfl⟩ : ∃ k', k = k' + 1 := ⟨k - 1, by omega⟩
    obtain ⟨-, -, -, -, hy, hne, -⟩ := spells_append.mp h
    have hset := h.set hne
    rw [append_cons] at hset
    rw [length_append, length_cons, length_cons] at hlen
    rw [length_cons] at hk
    obtain ⟨m', hrun, hspells⟩ := ih (k := k) hset (by simp; omega) (by omega)
    rw [length_append, length_singleton] at hrun
    refine ⟨m', ?_, by rwa [append_cons]⟩
    rw [shiftLeft, clStrlenS_hasLength h0 h.hasLength, length_append, length_cons, length_cons,
      if_pos (by omega), poke_pos (hW _ ⟨by omega, by omega⟩), bind_okay, ← Nat.add_assoc buffer, hy,
        Nat.add_sub_cancel, hrun]

lemma shiftLeft_ok (maxLen : Nat) (h0 : buffer ≠ 0) (hW : ∀ x, Span buffer maxLen x → W x) (hj : 1 ≤ j)
    (hk : maxLen + 1 < j + k)
    (hpos : 0 < k) :
    ∃ m', shiftLeft W buffer maxLen k j m = .ok m' ∧ Within (Span buffer maxLen) m m' := by
  induction k generalizing j m with
  | zero => cases hpos
  | succ k ih =>
    have hle := clStrlenS_le m maxLen h0
    rw [shiftLeft]
    by_cases hin : j ≤ clStrlenS m buffer maxLen
    · rw [if_pos hin, poke_pos (hW _ ⟨by omega, by omega⟩), bind_okay]
      obtain ⟨m', hrun, hwithin⟩ := ih (m := update m (buffer + (j - 1)) (m (buffer + j)))
        (j := j + 1) (by omega) (by omega) (by omega)
      refine ⟨m', hrun, Within.trans (fun x hx => ?_) hwithin⟩
      exact update_of_ne (fun hxj => hx ⟨by omega, by omega⟩) ..
    · rw [if_neg hin]
      exact ⟨m, rfl, Within.refl _ m⟩

end Shift

section Steps

variable {con : Console} {s : Session} {key : Key} {keys : List Key} {m : Mem} {n : Nat} {c : UInt8}

lemma maxBufferSize_bounds (hsize : 1 < con.bufferSize) :
    2 ≤ con.maxBufferSize ∧ con.maxBufferSize ≤ 78 ∧ con.maxBufferSize ≤ con.bufferSize := by
  rw [Console.maxBufferSize]
  omega

lemma maxBufferSize_small (h : con.bufferSize ≤ 78) : con.maxBufferSize = con.bufferSize := by
  rw [Console.maxBufferSize]
  omega

lemma Ready.terminated (hsize : 1 < con.bufferSize) (h : Ready con s) : Terminated con s.mem := by
  rw [Ready] at h
  split at h
  · exact ⟨79, by omega, h.1⟩
  · obtain ⟨n, hn, hlt, -⟩ := h
    have := maxBufferSize_bounds hsize
    exact ⟨n, by omega, hn.2⟩

lemma within_owned {m' : Mem} (h : Within (Span con.buffer n) m m') (hn : n ≤ con.bufferSize) :
    Within con.Owned m m' := h.mono fun x hx => .inl (hx.mono le_rfl (by omega))

lemma KeepsReady.of_within {s' : Session} {x : Exec Session} (hsize : 1 < con.bufferSize) (hx : x = .ok s')
    (hin : Within (Span con.buffer n) s.mem s'.mem) (hn : n ≤ con.maxBufferSize) (hready : Ready con s)
    (hbig : 80 ≤ con.bufferSize → s.i ≤ 78 → s'.i ≤ 78)
    (hsmall : con.bufferSize < 80 → ∀ n, HasLength s.mem con.buffer n → n < con.maxBufferSize → s.i ≤ n →
      ∃ n', HasLength s'.mem con.buffer n' ∧ n' < con.maxBufferSize ∧ s'.i ≤ n') :
    KeepsReady con s x := by
  have hbounds := maxBufferSize_bounds hsize
  refine ⟨s', hx, ?_, within_owned hin (by omega)⟩
  rw [Ready] at hready ⊢
  split
  · next h80 =>
    rw [if_pos h80] at hready
    refine ⟨?_, hbig h80 hready.2⟩
    rw [hin _ fun hspan => by have := hspan.2; omega]
    exact hready.1
  · next h80 =>
    rw [if_neg h80] at hready
    obtain ⟨n, hlen, hlt, hi⟩ := hready
    exact hsmall (by omega) n hlen hlt hi

lemma backspace_keeps (hsize : 1 < con.bufferSize) (hready : Ready con s) : KeepsReady con s (backspace con s) := by
  have hbounds := maxBufferSize_bounds hsize
  rw [backspace]
  by_cases hi : s.i ≠ 0
  · have hW : ∀ x, Span con.buffer (con.maxBufferSize - 1) x → con.Buffer x :=
      fun x hx => hx.mono le_rfl (by omega)
    obtain ⟨m', hrun, hin⟩ := shiftLeft_ok (m := s.mem) (j := s.i) (k := 2 ^ 32)
      (con.maxBufferSize - 1) con.buffer_ne hW (by omega) (by omega) (by decide)
    rw [if_pos hi, hrun, bind_okay]
    refine KeepsReady.of_within hsize rfl hin (by omega) hready (fun _ h => ?_) fun _ n hn hlt hle => ?_
    · dsimp only
      omega
    · obtain ⟨t, ht, rfl⟩ := hn.spells
      obtain ⟨xs, _ | ⟨x, ys⟩, rfl, hxs⟩ := exists_split (show s.i - 1 ≤ t.length by omega)
      · rw [append_nil] at hle
        omega
      · have hlen : (xs ++ x :: ys).length = (xs ++ ys).length + 1 := by simp [Nat.add_assoc]
        rw [hlen] at hlt hle
        obtain ⟨m'', hrun', hspells⟩ := shiftLeft_spells (k := 2 ^ 32) con.buffer_ne hW ht (by omega)
          (by rw [length_append] at hlt; omega)
        rw [hxs, Nat.sub_add_cancel (by omega), hrun] at hrun'
        cases hrun'
        exact ⟨_, hspells.hasLength, by omega, by dsimp only; omega⟩
  · rw [if_neg hi]
    exact ⟨s, rfl, hready, Within.refl _ _⟩

lemma cursorToEnd_keeps (hsize : 1 < con.bufferSize) (hready : Ready con s) :
    KeepsReady con s (.ok (cursorToEnd con s)) := by
  have hbounds := maxBufferSize_bounds hsize
  refine KeepsReady.of_within (n := 0) hsize rfl (Within.refl _ _) (Nat.zero_le _) hready (fun _ _ => ?_)
    fun _ n hn hlt hle => ⟨n, hn, hlt, ?_⟩
  · exact (clStrlenS_le _ _ con.buffer_ne).trans hbounds.2.1
  · rw [cursorToEnd, clStrlenS_hasLength con.buffer_ne hn]
    exact Nat.min_le_left ..

lemma Console.row_ne (con : Console) (index : Nat) : con.row index ≠ 0 := by
  have := con.rows_ne
  rw [Console.row]
  omega

section

variable (hsize : 1 < con.bufferSize) (hready : Ready con s)
include hsize hready

lemma recallLine_keeps (index : Nat) : KeepsReady con s (recallLine con s index) := by
  have hbounds := maxBufferSize_bounds hsize
  obtain ⟨m', len, hrun, hlen, hle, hin⟩ := clStrncpy_ok (W := con.Buffer) (m := s.mem)
    (con.maxBufferSize - 1) con.buffer_ne (con.row_ne index) (by omega) fun x hx => hx.mono le_rfl (by omega)
  rw [recallLine, hrun, bind_okay]
  refine KeepsReady.of_within hsize rfl hin (by omega) hready (fun _ _ => ?_) fun _ _ _ _ _ =>
    ⟨len, hlen, by omega, ?_⟩
  · exact (clStrlenS_le _ _ con.buffer_ne).trans hbounds.2.1
  · rw [cursorToEnd, clStrlenS_hasLength con.buffer_ne hlen]
    exact Nat.min_le_left ..

lemma keyUp_keeps : KeepsReady con s (keyUp con s) := by
  rw [keyUp]
  split
  · exact ⟨s, rfl, hready, Within.refl _ _⟩
  · split
    · exact recallLine_keeps hsize hready _
    · split
      · exact recallLine_keeps hsize hready _
      · exact recallLine_keeps hsize hready _

lemma keyDown_keeps : KeepsReady con s (keyDown con s) := by
  rw [keyDown]
  split
  · exact ⟨s, rfl, hready, Within.refl _ _⟩
  · split
    · exact ⟨s, rfl, hready, Within.refl _ _⟩
    · split
      · exact recallLine_keeps hsize hready _
      · exact recallLine_keeps hsize hready _

end

lemma cursor_keeps (s' : Session) (hsize : 1 < con.bufferSize) (hready : Ready con s) (hmem : s'.mem = s.mem)
    (hi : s'.i ≤ s.i ∨ s'.i = s.i + 1 ∧ s.i < con.maxBufferSize - 2 ∧ s.mem (con.buffer + s.i) ≠ 0) :
    KeepsReady con s (.ok s') := by
  have hbounds := maxBufferSize_bounds hsize
  refine KeepsReady.of_within (n := 0) hsize rfl (hmem ▸ Within.refl _ _)
    (Nat.zero_le _) hready (fun _ _ => by omega)
    fun _ n hn hlt hle => ⟨n, hmem ▸ hn, hlt, ?_⟩
  obtain hi | ⟨hi, -, hne⟩ := hi
  · omega
  · have hin : s.i ≠ n := fun hin => hne (hin ▸ hn.2)
    omega

lemma insert_eq (hj : clStrlenS s.mem con.buffer (con.maxBufferSize - 1) + 1 < con.bufferSize)
    (hi : s.i < con.bufferSize) : insert con s c = .ok
      { s with
        mem := update (shifted s.mem con.buffer s.i
          (clStrlenS s.mem con.buffer (con.maxBufferSize - 1) + 1)) (con.buffer + s.i) c
        i := s.i + 1
        column := wadd 8 s.column 1 } := by
  rw [insert, shiftRight_eq fun j _ hj => ⟨by omega, by omega⟩, bind_okay, poke_pos ⟨by omega, by omega⟩,
    bind_okay, pure_okay]

lemma insert_keeps (hsize : 1 < con.bufferSize) (hready : Ready con s) (hc : c ≠ 0)
    (hroom : 80 ≤ con.bufferSize ∨ clStrlenS s.mem con.buffer con.maxBufferSize < con.maxBufferSize - 1) :
    ∃ s', insert con s c = .ok s' ∧ Terminated con s'.mem ∧ (s'.i < con.maxBufferSize - 1 → Ready con s') ∧
      Within con.Owned s.mem s'.mem := by
  have hbounds := maxBufferSize_bounds hsize
  have hle := clStrlenS_le s.mem (con.maxBufferSize - 1) con.buffer_ne
  -- the bytes up to the one behind the line are in the buffer
  have hspan : clStrlenS s.mem con.buffer (con.maxBufferSize - 1) + 1 < con.bufferSize ∧ s.i < con.bufferSize := by
    rw [Ready] at hready
    split at hready
    · omega
    · next h80 =>
      obtain ⟨n, hn, hlt, hi⟩ := hready
      rw [clStrlenS_hasLength con.buffer_ne hn] at hroom ⊢
      omega
  have hin : Within con.Owned s.mem (update (shifted s.mem con.buffer s.i
      (clStrlenS s.mem con.buffer (con.maxBufferSize - 1) + 1)) (con.buffer + s.i) c) := by
    refine within_owned (n := con.bufferSize) (fun x hx => ?_) le_rfl
    rw [update_of_ne fun hxi => hx ⟨by omega, by omega⟩, shifted, if_neg fun hxs => hx ⟨by omega, by omega⟩]
  refine ⟨_, insert_eq hspan.1 hspan.2, ?_⟩
  by_cases h80 : 80 ≤ con.bufferSize
  · rw [Ready, if_pos h80] at hready
    have hend : update (shifted s.mem con.buffer s.i
        (clStrlenS s.mem con.buffer (con.maxBufferSize - 1) + 1)) (con.buffer + s.i) c (con.buffer + 79) = 0 := by
      rw [update_of_ne (by omega), shifted, if_neg (by omega)]
      exact hready.1
    refine ⟨⟨79, by omega, hend⟩, fun hi => ?_, hin⟩
    rw [Ready, if_pos h80]
    exact ⟨hend, by dsimp only at hi ⊢; omega⟩
  · rw [Ready, if_neg h80] at hready
    obtain ⟨n, hn, hlt, hi⟩ := hready
    rw [clStrlenS_hasLength con.buffer_ne hn] at hroom hin ⊢
    have hmin : min n (con.maxBufferSize - 1) = n := by omega
    rw [hmin] at hin ⊢
    obtain ⟨t, ht, rfl⟩ := hn.spells
    obtain ⟨xs, ys, rfl, hxs⟩ := exists_split hi
    have hlen := (spells_insert ht hc).hasLength
    rw [hxs, show (xs ++ c :: ys).length = (xs ++ ys).length + 1 by simp [Nat.add_assoc]] at hlen
    refine ⟨⟨_, by omega, hlen.2⟩, fun _ => ?_, hin⟩
    rw [Ready, if_neg h80]
    exact ⟨_, hlen, by omega, by dsimp only; omega⟩

lemma length_trimmed_le (t : List UInt8) : (trimmed t).length ≤ t.length :=
  (List.rdropWhile_prefix ..).length_le.trans (dropWhile_suffix _).length_le

lemma History.lastIndex_lt (h : History) : h.lastIndex < 16 := Nat.mod_lt _ (by decide)

lemma Console.rows_out {x : Nat} (hx : Span con.rows (16 * 80) x) : ¬ con.Buffer x := by
  rintro ⟨h1, h2⟩
  have hsep := con.apart
  obtain ⟨h3, h4⟩ := hx
  omega

lemma Console.row_span {index x : Nat} (hlt : index < 16) (hx : Span (con.row index) 80 x) :
    Span con.rows (16 * 80) x := by
  obtain ⟨h1, h2⟩ := hx
  rw [Console.row] at h1 h2
  exact ⟨by omega, by omega⟩

def Console.saved (con : Console) (t : List UInt8) : List UInt8 := (trimmed t).take (con.maxBufferSize - 1)

section

variable (hsize : 1 < con.bufferSize)
include hsize

lemma saveLine_spells {t : List UInt8} (hmax : con.bufferSize < 2 ^ 32) (ht : Spells s.mem con.buffer t)
    (hlt : t.length < con.bufferSize) :
    ∃ s', saveLine con s = .ok s' ∧ s'.i = s.i ∧ Spells s'.mem con.buffer (trimmed t) ∧
      Within con.Owned s.mem s'.mem ∧ (t ≠ [] → s'.history = s.history.push ∧
        Spells s'.mem (con.row s.history.push.lastIndex) (con.saved t) ∧
        Within (fun x => con.Buffer x ∨ Span (con.row s.history.push.lastIndex) 80 x) s.mem s'.mem) := by
  have hbounds := maxBufferSize_bounds hsize
  rw [saveLine, clStrlenS_hasLength con.buffer_ne ht.hasLength]
  cases t with
  | nil => exact ⟨s, rfl, rfl, ht, Within.refl _ _, fun h => absurd rfl h⟩
  | cons c t =>
    have hlast := s.history.push.lastIndex_lt
    generalize s.history.push.lastIndex = index at hlast
    obtain ⟨m₁, htrim, hspells, hin₁⟩ := clStrtrim_ok (W := fun _ => True) con.buffer_ne ht (by omega)
      (fun _ _ => trivial) fun _ _ => trivial
    have htl := length_trimmed_le (c :: t)
    have hrow : ∀ x, Span (con.row index) (con.maxBufferSize - 1 + 1) x → Span (con.row index) 80 x :=
      fun x hx => hx.mono le_rfl (by omega)
    have hbuffer : ∀ x, Span con.buffer ((trimmed (c :: t)).length + 1) x → con.Buffer x :=
      fun x hx => hx.mono le_rfl (by omega)
    obtain ⟨m₂, hcopy, hsaved, hin₂⟩ :=
      clStrncpy_spells (W := Span (con.row index) 80) (con.row_ne index) con.buffer_ne
      (by omega) hrow hspells fun x hb hx => Console.rows_out (Console.row_span hlast (hrow x hx)) (hbuffer x hb)
    have hin : Within (fun x => con.Buffer x ∨ Span (con.row index) 80 x) s.mem m₂ :=
      (hin₁.mono fun x hx => .inl (hx.mono le_rfl (by omega))).trans (hin₂.mono fun x hx => .inr (hrow x hx))
    rw [length_cons, if_neg (by omega), htrim, bind_okay, hcopy, bind_okay]
    refine ⟨_, rfl, rfl, hspells.congr fun x hx => hin₂ x fun hr => ?_, hin.mono fun x hx => ?_,
      fun _ => ⟨rfl, hsaved, hin⟩⟩
    · exact Console.rows_out (Console.row_span hlast (hrow x hr)) (hbuffer x hx)
    · exact hx.imp_right (Console.row_span hlast)

lemma saveLine_keeps (hmax : con.bufferSize < 2 ^ 32) (hready : Ready con s) :
    ∃ s', saveLine con s = .ok s' ∧ Terminated con s'.mem ∧ Within con.Owned s.mem s'.mem := by
  obtain ⟨k, hk, hzero⟩ := hready.terminated hsize
  obtain ⟨n, hn, hlen⟩ := exists_hasLength hzero
  obtain ⟨t, ht, rfl⟩ := hlen.spells
  obtain ⟨s', hrun, -, hspells, hin, -⟩ := saveLine_spells hsize hmax ht (by omega)
  have htl := length_trimmed_le t
  exact ⟨s', hrun, ⟨_, by omega, hspells.last⟩, hin⟩

lemma KeepsReady.keeps {x : Exec Session} (h : KeepsReady con s x) : Keeps con s (do pure (← x, false)) := by
  obtain ⟨s', rfl, hready, hin⟩ := h
  exact ⟨s', false, rfl, hready.terminated hsize, fun _ => hready, hin⟩

lemma keyPressed_keeps (hmax : con.bufferSize < 2 ^ 32) (hready : Ready con s)
    (hroom : 80 ≤ con.bufferSize ∨ ∀ c, key = .other c → c ≠ 0 →
      clStrlenS s.mem con.buffer con.maxBufferSize < con.maxBufferSize - 1) :
    Keeps con s (keyPressed con s key) := by
  have hsame : KeepsReady con s (.ok s) := ⟨s, rfl, hready, Within.refl _ _⟩
  cases key with
  | enter =>
    obtain ⟨s', hrun, hterm, hin⟩ := saveLine_keeps hsize hmax hready
    rw [keyPressed, hrun]
    exact ⟨s', true, rfl, hterm, fun hb => Bool.noConfusion hb, hin⟩
  | backspace => exact (backspace_keeps hsize hready).keeps hsize
  | delete | tab => exact hsame.keeps hsize
  | up => exact (keyUp_keeps hsize hready).keeps hsize
  | down => exact (keyDown_keeps hsize hready).keeps hsize
  | left =>
    refine (cursor_keeps (keyLeft s) hsize hready ?_ ?_).keeps hsize
    · rw [keyLeft]
      split <;> rfl
    · rw [keyLeft]
      split
      · exact .inl (Nat.sub_le ..)
      · exact .inl le_rfl
  | right =>
    refine (cursor_keeps (keyRight con s) hsize hready ?_ ?_).keeps hsize
    · rw [keyRight]
      split <;> rfl
    · rw [keyRight]
      split
      · next h => exact .inr ⟨rfl, h⟩
      · exact .inl le_rfl
  | home =>
    refine (cursor_keeps (keyHome s) hsize hready ?_ ?_).keeps hsize
    · rw [keyHome]
      split <;> rfl
    · rw [keyHome]
      split
      · exact .inl (Nat.zero_le _)
      · exact .inl le_rfl
  | toEnd => exact (cursorToEnd_keeps hsize hready).keeps hsize
  | other c =>
    rw [keyPressed]
    by_cases hc : c ≠ 0
    · obtain ⟨s', hrun, hterm, hnext, hin⟩ := insert_keeps hsize hready hc (hroom.imp_right fun h => h c rfl hc)
      rw [if_pos hc, hrun]
      refine ⟨s', _, rfl, hterm, fun hb => hnext ?_, hin⟩
      exact Nat.lt_of_not_ge (of_decide_eq_false hb)
    · rw [if_neg hc]
      exact ⟨s, _, rfl, hready.terminated hsize, fun _ => hready, Within.refl _ _⟩

end

lemma full_wild (hsmall : con.bufferSize ≤ 78) (hready : Ready con s) (hc : c ≠ 0)
    (hfull : ¬ clStrlenS s.mem con.buffer con.maxBufferSize < con.maxBufferSize - 1) :
    keyPressed con s (.other c) = .error .wild := by
  rw [Ready, if_neg (by omega), maxBufferSize_small hsmall] at hready
  obtain ⟨n, hn, hlt, hi⟩ := hready
  rw [clStrlenS_hasLength con.buffer_ne hn, maxBufferSize_small hsmall] at hfull
  have hmin : min n (con.bufferSize - 1) = n := by omega
  have hout : ¬ con.Buffer (con.buffer + (n + 1)) := fun h => by
    have := h.2
    omega
  rw [keyPressed, if_pos hc, insert, clStrlenS_hasLength con.buffer_ne hn, maxBufferSize_small hsmall,
    hmin, shiftRight, if_pos hi, poke, if_neg hout]
  rfl

variable (hsize : 1 < con.bufferSize) {history : History}
include hsize

lemma getsFrom_keeps (hmax : con.bufferSize < 2 ^ 32) (hready : Ready con s)
    (hroom : 80 ≤ con.bufferSize ∨ Patient con keys s) : Keeps con s (getsFrom con keys s) := by
  induction keys generalizing s with
  | nil => exact ⟨s, false, rfl, hready.terminated hsize, fun _ => hready, Within.refl _ _⟩
  | cons key keys ih =>
    obtain ⟨s', b, hrun, hterm, hnext, hin⟩ := keyPressed_keeps hsize hmax hready (hroom.imp_right fun h => h.1)
    rw [getsFrom, hrun, bind_okay]
    cases b with
    | true => exact ⟨s', true, rfl, hterm, fun hb => Bool.noConfusion hb, hin⟩
    | false =>
      obtain ⟨s'', b', hrun', hterm', hnext', hin'⟩ := ih (hnext rfl) (hroom.imp_right fun h => h.2 s' hrun)
      exact ⟨s'', b', hrun', hterm', hnext', hin.trans hin'⟩

lemma patient_of_ok {r : Session × Bool} (hsmall : con.bufferSize ≤ 78) (hready : Ready con s)
    (hrun : getsFrom con keys s = .ok r) : Patient con keys s := by
  induction keys generalizing s with
  | nil => trivial
  | cons key keys ih =>
    have hroom : ∀ c, key = .other c → c ≠ 0 →
        clStrlenS s.mem con.buffer con.maxBufferSize < con.maxBufferSize - 1 := by
      rintro c rfl hc
      by_contra hfull
      rw [getsFrom, full_wild hsmall hready hc hfull] at hrun
      cases hrun
    refine ⟨hroom, fun s' hkey => ?_⟩
    obtain ⟨s'', b, hkey', -, hnext, -⟩ := keyPressed_keeps hsize (by omega) hready (.inr hroom)
    obtain ⟨rfl, rfl⟩ := Prod.mk.inj (Except.ok.inj (hkey.symm.trans hkey'))
    rw [getsFrom, hkey, bind_okay] at hrun
    exact ih (hnext rfl) hrun

lemma getsS_eq : getsS con m history keys = getsFrom con keys (start con m history) := by
  rw [getsS, ensure_pos con.buffer_ne, bind_okay, ensure_pos hsize, bind_okay]

lemma start_ready : Ready con (start con m history) := by
  have hbounds := maxBufferSize_bounds hsize
  have hzero : ∀ k < con.bufferSize, (start con m history).mem (con.buffer + k) = 0 :=
    fun k hk => if_pos ⟨by omega, by omega⟩
  rw [Ready]
  split
  · exact ⟨hzero 79 (by omega), Nat.zero_le _⟩
  · exact ⟨0, ⟨fun k hk => absurd hk (Nat.not_lt_zero k), hzero 0 (by omega)⟩, by omega, le_rfl⟩

end Steps

/-- After these keys nothing has been written behind the buffer, and the line in it has an end. -/
def Safe (con : Console) (m : Mem) (history : History) (keys : List Key) : Prop :=
  ∃ s b, getsS con m history keys = .ok (s, b) ∧ Terminated con s.mem ∧ Within con.Owned m s.mem

/-- The call is safe with a buffer of 80 bytes, and if no character is typed into a full line; with a buffer that is
    used to its end, only then. -/
theorem gets_safe (con : Console) (m : Mem) (history : History) (keys : List Key) (hsize : 1 < con.bufferSize)
    (hmax : con.bufferSize < 2 ^ 32) :
    (80 ≤ con.bufferSize ∨ Patient con keys (start con m history) → Safe con m history keys) ∧
    (con.bufferSize ≤ 78 → Safe con m history keys → Patient con keys (start con m history)) := by
  constructor
  · intro hroom
    obtain ⟨s, b, hrun, hterm, -, hin⟩ := getsFrom_keeps hsize hmax (start_ready hsize) hroom
    exact ⟨s, b, (getsS_eq hsize).trans hrun, hterm, (within_owned fill_within le_rfl).trans hin⟩
  · rintro hsmall ⟨s, b, hrun, -⟩
    exact patient_of_ok hsize hsmall (start_ready hsize) ((getsS_eq hsize).symm.trans hrun)

def shell : Console := ⟨4096, 80, 8192, by decide, by decide, by decide⟩

def tiny : Console := ⟨1, 3, 4096, by decide, by decide, by decide⟩

def noHistory : History := ⟨0, 0, by decide, by decide⟩

/-- A character and then the enter key, with both buffers. -/
theorem gets_safe_enter :
    Safe shell (fun _ => 1) noHistory [.other 0x61, .enter] ∧
      Safe tiny (fun _ => 1) noHistory [.other 0x61, .enter] := by
  refine ⟨(gets_safe shell _ noHistory _ (by decide) (by decide)).1 (.inl (by decide)),
    (gets_safe tiny _ noHistory _ (by decide) (by decide)).1 (.inr ⟨fun _ _ _ => by decide, fun s' _ => ⟨?_, ?_⟩⟩)⟩
  · exact fun c hc => Key.noConfusion hc
  · exact fun s'' _ => trivial

/-- The third character is inserted in front of two others, into a buffer of three bytes. -/
theorem gets_writes_behind :
    getsS tiny (fun _ => 1) noHistory [.other 0x61, .home, .other 0x62, .home, .other 0x63] = .error .wild := rfl

end HAL9000.Keyboard
