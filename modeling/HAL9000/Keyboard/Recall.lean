import HAL9000.Keyboard.Editor
import Mathlib.Data.Nat.SuccPred

/-!
# The history of lines

The lines of the last calls of `gets_s` are in a ring of 16 rows (`Entered.recorded`). The arrows up and down walk
along the ring, from the last line to the first one that is still there and back again (`gets_recalls`).
-/

namespace HAL9000.Keyboard
open Lib CString

/-- The row of the line that was entered `d` lines before the last one. -/
def History.back (h : History) (d : Nat) : Nat := (h.firstIndex + h.size - 1 - d) % 16

/-- What the calls with buffers of one size have put into a history that was empty, the last line first. Between
    them the memory may change, but for the rows. -/
inductive Entered (rows size : Nat) : Mem → History → List (List UInt8) → Prop
  | start (m : Mem) : Entered rows size m noHistory []
  | other {m m' : Mem} {h : History} {lines : List (List UInt8)} (before : Entered rows size m h lines)
      (same : ∀ x, Span rows (16 * 80) x → m' x = m x) : Entered rows size m' h lines
  /-- The enter key is pressed when `t` is in the buffer. -/
  | line {m : Mem} {h : History} {lines : List (List UInt8)} {con : Console} {keys : List Key} {s s' : Session}
      {t : List UInt8} (before : Entered rows size m h lines) (hrows : con.rows = rows)
        (hsize : con.bufferSize = size)
      (typed : getsS con m h keys = .ok (s, false)) (text : Spells s.mem con.buffer t)
      (inside : t.length < con.bufferSize) (nonempty : t ≠ [])
      (entered : getsS con m h (keys ++ [.enter]) = .ok (s', true)) :
      Entered rows size s'.mem s'.history (con.saved t :: lines)

section Frame

variable {W : Nat → Prop} [DecidablePred W] {m m' : Mem} {con : Console} {s s' : Session}

lemma poke_within {a : Nat} {b : UInt8} (h : poke W m a b = .ok m') : Within W m m' := by
  rw [poke] at h
  split at h
  · next hW =>
    cases h
    exact fun x hx => Function.update_of_ne (fun hxa : x = a => hx (hxa ▸ hW)) ..
  · cases h

lemma shiftRight_within {buffer i n : Nat} (h : shiftRight W buffer i n m = .ok m') : Within W m m' := by
  induction n generalizing m with
  | zero =>
    cases h
    exact Within.refl _ _
  | succ n ih =>
    rw [shiftRight] at h
    split at h
    · obtain ⟨m₁, hpoke, h⟩ := bind_ok.mp h
      exact (poke_within hpoke).trans (ih h)
    · cases h
      exact Within.refl _ _

lemma shiftLeft_within {buffer maxLen k j : Nat} (h : shiftLeft W buffer maxLen k j m = .ok m') :
    Within W m m' := by
  induction k generalizing j m with
  | zero => cases h
  | succ k ih =>
    rw [shiftLeft] at h
    split at h
    · obtain ⟨m₁, hpoke, h⟩ := bind_ok.mp h
      exact (poke_within hpoke).trans (ih h)
    · cases h
      exact Within.refl _ _

lemma strncpyFrom_within {dst src k i : Nat} (h : strncpyFrom W dst src k i m = .ok m') : Within W m m' := by
  induction k generalizing i m with
  | zero => exact poke_within h
  | succ k ih =>
    rw [strncpyFrom] at h
    split at h
    · exact poke_within h
    · obtain ⟨m₁, hpoke, h⟩ := bind_ok.mp h
      exact (poke_within hpoke).trans (ih h)

def Frames (con : Console) (s s' : Session) : Prop := s'.history = s.history ∧ Within con.Buffer s.mem s'.mem

lemma Frames.refl (s : Session) : Frames con s s := ⟨rfl, Within.refl _ _⟩

lemma recallLine_frames {index : Nat} (h : recallLine con s index = .ok s') : Frames con s s' := by
  obtain ⟨m, hcopy, h⟩ := bind_ok.mp h
  cases h
  obtain ⟨_, _, hcopy⟩ := bind_ok.mp hcopy
  obtain ⟨_, _, hcopy⟩ := bind_ok.mp hcopy
  obtain ⟨_, _, hcopy⟩ := bind_ok.mp hcopy
  exact ⟨rfl, strncpyFrom_within hcopy⟩

lemma keyPressed_frames {key : Key} (h : keyPressed con s key = .ok (s', false)) : Frames con s s' := by
  cases key with
  | enter =>
    obtain ⟨_, _, h⟩ := bind_ok.mp h
    cases h
  | backspace =>
    obtain ⟨_, hrun, h⟩ := bind_ok.mp h
    cases h
    rw [backspace] at hrun
    split at hrun
    · obtain ⟨m, hshift, hrun⟩ := bind_ok.mp hrun
      cases hrun
      exact ⟨rfl, shiftLeft_within hshift⟩
    · cases hrun
      exact .refl s
  | delete | toEnd | tab =>
    cases h
    exact .refl s
  | up =>
    obtain ⟨_, hrun, h⟩ := bind_ok.mp h
    cases h
    rw [keyUp] at hrun
    split_ifs at hrun
    · cases hrun
      exact .refl s
    · exact recallLine_frames hrun
    · exact recallLine_frames hrun
    · exact recallLine_frames hrun
  | down =>
    obtain ⟨_, hrun, h⟩ := bind_ok.mp h
    cases h
    rw [keyDown] at hrun
    split_ifs at hrun
    · cases hrun
      exact .refl s
    · cases hrun
      exact .refl s
    · exact recallLine_frames hrun
    · exact recallLine_frames hrun
  | left =>
    cases h
    rw [keyLeft]
    split <;> exact .refl s
  | right =>
    cases h
    rw [keyRight]
    split <;> exact .refl s
  | home =>
    cases h
    rw [keyHome]
    split <;> exact .refl s
  | other c =>
    rw [keyPressed] at h
    split at h
    · obtain ⟨_, hrun, h⟩ := bind_ok.mp h
      obtain ⟨rfl, -⟩ := Prod.mk.inj (Except.ok.inj h)
      obtain ⟨m₁, hshift, hrun⟩ := bind_ok.mp hrun
      obtain ⟨m₂, hpoke, hrun⟩ := bind_ok.mp hrun
      cases hrun
      exact ⟨rfl, (shiftRight_within hshift).trans (poke_within hpoke)⟩
    · obtain ⟨rfl, -⟩ := Prod.mk.inj (Except.ok.inj h)
      exact .refl s

lemma getsFrom_frames {keys : List Key} (h : getsFrom con keys s = .ok (s', false)) : Frames con s s' := by
  induction keys generalizing s with
  | nil =>
    cases h
    exact .refl _
  | cons key keys ih =>
    obtain ⟨⟨s₁, b⟩, hkey, h⟩ := bind_ok.mp h
    cases b with
    | true => cases h
    | false =>
      obtain ⟨hhistory, hin⟩ := keyPressed_frames hkey
      obtain ⟨hhistory', hin'⟩ := ih h
      exact ⟨hhistory'.trans hhistory, hin.trans hin'⟩

end Frame

section Rows

variable {con : Console} {m m' : Mem} {h : History} {lines : List (List UInt8)} {e : List UInt8}
  {rows size d : Nat} {s : Session}

lemma History.back_lt (h : History) (d : Nat) : h.back d < 16 := Nat.mod_lt _ (by decide)

lemma History.back_push (h : History) (hd : d < h.size) (hlt : d + 1 < 16) : h.push.back (d + 1) = h.back d := by
  have := h.size_le
  rw [push, back, back]
  split
  · dsimp only
    omega
  · dsimp only
    omega

lemma History.back_ne (h : History) (hd : d + 1 < h.size) : h.back (d + 1) ≠ h.back 0 := by
  have := h.size_le
  rw [back, back]
  omega

structure Recorded (rows size : Nat) (m : Mem) (h : History) (lines : List (List UInt8)) : Prop where
  count : h.size = min lines.length 16
  row : ∀ d t, d < 16 → lines[d]? = some t → Spells m (rows + 80 * h.back d) t
  short : ∀ t ∈ lines, t.length < min size 78

section

variable (hr : Recorded rows size m h lines)
include hr

lemma Recorded.inside {t : List UInt8} (ht : lines[d]? = some t) {x : Nat}
    (hx : Span (rows + 80 * h.back d) (t.length + 1) x) :
    Span (rows + 80 * h.back d) 80 x ∧ Span rows (16 * 80) x := by
  have := h.back_lt d
  have := hr.short t (List.mem_of_getElem? ht)
  obtain ⟨h1, h2⟩ := hx
  exact ⟨⟨h1, by omega⟩, by omega, by omega⟩

lemma Recorded.congr (hsame : ∀ x, Span rows (16 * 80) x → m' x = m x) : Recorded rows size m' h lines :=
  ⟨hr.count, fun d t hd ht => (hr.row d t hd ht).congr fun x hx => hsame x (hr.inside ht hx).2, hr.short⟩

lemma Recorded.push (he : Spells m' (rows + 80 * h.push.back 0) e) (hlen : e.length < min size 78)
    (hin : ∀ x, Span rows (16 * 80) x → ¬ Span (rows + 80 * h.push.back 0) 80 x → m' x = m x) :
    Recorded rows size m' h.push (e :: lines) := by
  have hsize : h.push.size = min (h.size + 1) 16 := by
    have := h.size_le
    rw [History.push]
    split
    · dsimp only
      omega
    · dsimp only
      omega
  refine ⟨?_, ?_, List.forall_mem_cons.mpr ⟨hlen, hr.short⟩⟩
  · rw [hsize, hr.count, List.length_cons]
    omega
  · rintro (_ | d) t hd ht
    · cases ht
      exact he
    · rw [List.getElem?_cons_succ] at ht
      have hlt : d < h.size := by
        have := (List.getElem?_eq_some_iff.mp ht).1
        rw [hr.count]
        omega
      -- the new line is in another row
      have hne := h.push.back_ne (d := d) (by omega)
      rw [h.back_push hlt hd] at hne ⊢
      refine (hr.row d t (by omega) ht).congr fun x hx => hin x (hr.inside ht hx).2 fun hx' => hne ?_
      obtain ⟨⟨h1, h2⟩, -⟩ := hr.inside ht hx
      obtain ⟨h3, h4⟩ := hx'
      omega

end

lemma Entered.recorded (hent : Entered rows size m h lines) (hsize : 1 < size) (hmax : size < 2 ^ 32) :
    Recorded rows size m h lines := by
  induction hent with
  | start m => exact ⟨rfl, nofun, nofun⟩
  | other _ hsame ih => exact ih.congr hsame
  | @line m h lines con keys s s' t _ hrows hbuf htyped htext hin hne hentered ih =>
    subst hrows hbuf
    have hbounds := maxBufferSize_bounds hsize
    rw [getsS_eq hsize] at htyped hentered
    obtain ⟨rfl, hframe⟩ := getsFrom_frames htyped
    obtain ⟨s₁, hsave, -, -, -, hpush⟩ := saveLine_spells hsize hmax htext hin
    rw [getsFrom_append htyped, getsFrom, keyPressed, hsave] at hentered
    cases hentered
    obtain ⟨hhistory, hsaved, hwithin⟩ := hpush hne
    rw [hhistory]
    refine ih.push hsaved ?_ fun x hx hrow => ?_
    · rw [Console.saved, List.length_take, ← Console.maxBufferSize]
      omega
    · have hout := Console.rows_out hx
      rw [hwithin x fun hor => hor.elim hout hrow, hframe x hout]
      exact fill_within x hout

end Rows

section Arrows

variable {con : Console} {m : Mem} {h : History} {lines : List (List UInt8)} {d n : Nat} {s : Session}

/-- The line entered `d` lines before the last one is displayed. -/
structure Recalled (con : Console) (m : Mem) (h : History) (lines : List (List UInt8)) (d : Nat) (s : Session) :
    Prop where
  history : s.history = h
  rows : ∀ x, Span con.rows (16 * 80) x → s.mem x = m x
  index : s.cmdHistoryIndex = h.back d
  text : ∃ t, lines[d]? = some t ∧ Spells s.mem con.buffer t

lemma recallLine_recalled (hsize : 1 < con.bufferSize) (hr : Recorded con.rows con.bufferSize m h lines)
    (hhistory : s.history = h) (hrows : ∀ x, Span con.rows (16 * 80) x → s.mem x = m x) (hd : d < h.size) :
    ∃ s', recallLine con s (h.back d) = .ok s' ∧ Recalled con m h lines d s' := by
  have hbounds := maxBufferSize_bounds hsize
  have hlt := hr.count ▸ hd
  obtain ⟨t, ht⟩ : ∃ t, lines[d]? = some t := ⟨_, List.getElem?_eq_getElem (by omega)⟩
  have hshort := hr.short t (List.mem_of_getElem? ht)
  rw [← Console.maxBufferSize] at hshort
  have hW : ∀ x, Span con.buffer (con.maxBufferSize - 1 + 1) x → con.Buffer x :=
    fun x hx => hx.mono le_rfl (by omega)
  obtain ⟨m', hcopy, hspells, hin⟩ := clStrncpy_spells con.buffer_ne (con.row_ne (h.back d)) (by omega) hW
    ((hr.congr hrows).row d t (by omega) ht) fun x hx hb => Console.rows_out (hr.inside ht hx).2 (hW x hb)
  rw [List.take_of_length_le (by omega)] at hspells
  rw [recallLine, hcopy]
  exact ⟨_, rfl, hhistory, fun x hx =>
    (hin x fun hb => Console.rows_out hx (hW x hb)).trans (hrows x hx), rfl, t, ht, hspells⟩

lemma History.back_up (h : History) (hd : d < h.size) :
    (if h.back d ≠ h.firstIndex then wsub 32 (h.back d) 1 % 16 else h.back d) =
      h.back (min (d + 1) (h.size - 1)) := by
  have := h.size_le
  have := h.firstIndex_lt
  rw [back, wsub]
  split
  · next hne =>
    rw [back]
    omega
  · next heq =>
    rw [back]
    omega

lemma History.back_down (h : History) (hd : d < h.size) :
    (if h.back d ≠ h.lastIndex then wadd 32 (h.back d) 1 % 16 else h.back d) = h.back (d - 1) := by
  have := h.size_le
  have := h.firstIndex_lt
  rw [lastIndex, back, wadd]
  split
  · next hne =>
    rw [back]
    omega
  · next heq =>
    rw [back]
    omega

section

variable (hsize : 1 < con.bufferSize) (hr : Recorded con.rows con.bufferSize m h lines)
  (hs : Recalled con m h lines d s) (hd : d < h.size)
include hsize hr hs hd

lemma up_recalled :
    ∃ s', keyPressed con s .up = .ok (s', false) ∧ Recalled con m h lines (min (d + 1) (h.size - 1)) s' := by
  obtain ⟨s', hrun, hs'⟩ :=
    recallLine_recalled hsize hr hs.history hs.rows (d := min (d + 1) (h.size - 1)) (by omega)
  have hlt := h.back_lt d
  rw [← h.back_up hd] at hrun
  rw [keyPressed, keyUp, hs.history, hs.index, if_neg (by omega), if_neg (by rw [maxDword]; omega),
    ← apply_ite, hrun]
  exact ⟨s', rfl, hs'⟩

lemma down_recalled : ∃ s', keyPressed con s .down = .ok (s', false) ∧ Recalled con m h lines (d - 1) s' := by
  obtain ⟨s', hrun, hs'⟩ := recallLine_recalled hsize hr hs.history hs.rows (d := d - 1) (by omega)
  have hlt := h.back_lt d
  rw [← h.back_down hd] at hrun
  rw [keyPressed, keyDown, hs.history, hs.index, if_neg (by omega), if_neg (by rw [maxDword]; omega),
    ← apply_ite, hrun]
  exact ⟨s', rfl, hs'⟩

end

lemma replicate_recalled {key : Key} {f : Nat → Nat} (hf : ∀ d < h.size, f d < h.size)
    (hkey : ∀ {d s}, Recalled con m h lines d s → d < h.size →
      ∃ s', keyPressed con s key = .ok (s', false) ∧ Recalled con m h lines (f d) s')
    (hs : Recalled con m h lines d s) (hd : d < h.size) :
    ∃ s', getsFrom con (List.replicate n key) s = .ok (s', false) ∧ Recalled con m h lines (f^[n] d) s' := by
  induction n generalizing d s with
  | zero => exact ⟨s, rfl, hs⟩
  | succ n ih =>
    obtain ⟨s', hrun, hs'⟩ := hkey hs hd
    rw [List.replicate_succ, getsFrom, hrun, bind_okay]
    exact ih hs' (hf d hd)

lemma iterate_up (n d k : Nat) (hd : d ≤ k) : (fun d => min (d + 1) k)^[n] d = min (d + n) k := by
  induction n generalizing d with
  | zero => exact (Nat.min_eq_left hd).symm
  | succ n ih =>
    rw [Function.iterate_succ_apply, ih _ (Nat.min_le_right ..)]
    omega

end Arrows

/-- After `ups` times the arrow up and `downs` times the arrow down, the line is displayed that was entered so many
    lines ago, as far as there are lines, and the history has them. -/
theorem gets_recalls {con : Console} {m : Mem} {h : History} {lines : List (List UInt8)} (ups downs : Nat)
    (hsize : 1 < con.bufferSize) (hmax : con.bufferSize < 2 ^ 32)
    (hent : Entered con.rows con.bufferSize m h lines) (hlines : 1 ≤ lines.length) (hups : 1 ≤ ups) :
    ∃ s t, getsS con m h (List.replicate ups .up ++ List.replicate downs .down) = .ok (s, false) ∧
      lines[min ups (min lines.length 16) - 1 - downs]? = some t ∧ Spells s.mem con.buffer t := by
  have hr := hent.recorded hsize hmax
  have hcount := hr.count
  have hrows : ∀ x, Span con.rows (16 * 80) x → (start con m h).mem x = m x :=
    fun x hx => fill_within x (Console.rows_out hx)
  -- the first key displays the last line
  obtain ⟨ups, rfl⟩ : ∃ n, ups = n + 1 := ⟨ups - 1, by omega⟩
  obtain ⟨s₁, hfirst, hs₁⟩ := recallLine_recalled (s := start con m h) (d := 0) hsize hr rfl hrows (by omega)
  have hup : keyPressed con (start con m h) .up = .ok (s₁, false) := by
    have hlast : (start con m h).history.lastIndex = h.back 0 := rfl
    rw [keyPressed, keyUp, if_neg (by rw [start]; dsimp only; omega), if_pos (by rw [start]), hlast, hfirst]
    rfl
  obtain ⟨s₂, hrun₂, hs₂⟩ := replicate_recalled (n := ups) (f := fun d => min (d + 1) (h.size - 1))
    (fun d hd => by omega) (up_recalled hsize hr) hs₁ (by omega)
  rw [iterate_up _ _ _ (by omega)] at hs₂
  obtain ⟨s₃, hrun₃, hs₃⟩ :=
    replicate_recalled (n := downs) (f := Nat.pred) (fun d hd => by rw [Nat.pred_eq_sub_one]; omega)
    (down_recalled hsize hr) hs₂ (by omega)
  rw [Nat.pred_iterate] at hs₃
  obtain ⟨t, ht, hspells⟩ := hs₃.text
  refine ⟨s₃, t, ?_, ?_, hspells⟩
  · rw [getsS_eq hsize, List.replicate_succ, List.cons_append, getsFrom, hup, bind_okay]
    exact (getsFrom_append hrun₂).trans hrun₃
  · rw [← ht]
    congr 1
    omega

/-- The lines `a` and `b` have been entered, and the arrows display the first one. -/
theorem gets_recalls_older : ∃ m h s, Entered shell.rows shell.bufferSize m h [[0x62], [0x61]] ∧
    getsS shell m h [.up, .up] = .ok (s, false) ∧ Spells s.mem shell.buffer [0x61] := by
  obtain ⟨s, s₁, htyped, htext, hentered, s', s₂, htyped', htext', hentered'⟩ : ∃ s s₁,
      getsS shell (fun _ => 0) noHistory [.other 0x61] = .ok (s, false) ∧ Spells s.mem shell.buffer [0x61] ∧
      getsS shell (fun _ => 0) noHistory ([.other 0x61] ++ [.enter]) = .ok (s₁, true) ∧ ∃ s' s₂,
      getsS shell s₁.mem s₁.history [.other 0x62] = .ok (s', false) ∧ Spells s'.mem shell.buffer [0x62] ∧
      getsS shell s₁.mem s₁.history ([.other 0x62] ++ [.enter]) = .ok (s₂, true) :=
    ⟨_, _, rfl, by decide, rfl, _, _, rfl, by decide, rfl⟩
  have hent := (Entered.line (.start _) rfl rfl htyped htext (by decide) (by decide) hentered).line rfl rfl htyped'
    htext' (by decide) (by decide) hentered'
  obtain ⟨s'', t, hrun, ht, hspells⟩ := gets_recalls 2 0 (by decide) (by decide) hent (by decide) (by decide)
  cases ht
  exact ⟨_, _, s'', hent, hrun, hspells⟩

end HAL9000.Keyboard
