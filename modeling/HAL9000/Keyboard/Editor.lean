import HAL9000.Keyboard.Safe

/-!
# The line editor

`Editor` is what `gets_s` is meant to be: a text with a cursor in it. As long as there is room, the keys do to the
buffer what they do to the text (`keyPressed_shows`), and in the end the text is trimmed (`gets_shows`). But the
length that is returned is the position of the cursor.
-/

namespace HAL9000.Keyboard
open Lib CString List

/-- A text with a cursor: the characters in front of it, the nearest one first, and those behind it. -/
structure Editor where
  before : List UInt8
  after : List UInt8

namespace Editor

def text (e : Editor) : List UInt8 := e.before.reverse ++ e.after

def cursor (e : Editor) : Nat := e.before.length

def press (e : Editor) : Key → Editor
  | .backspace => ⟨e.before.tail, e.after⟩
  | .left =>
    match e.before with
    | [] => e
    | c :: before => ⟨before, c :: e.after⟩
  | .right =>
    match e.after with
    | [] => e
    | c :: after => ⟨c :: e.before, after⟩
  | .home => ⟨[], e.text⟩
  | .toEnd => ⟨e.text.reverse, []⟩
  | .other c => if c ≠ 0 then ⟨c :: e.before, e.after⟩ else e
  | _ => e

def typed (keys : List Key) : Editor := keys.foldl press ⟨[], []⟩

end Editor

def Key.edits : Key → Bool
  | .enter | .up | .down => false
  | _ => true

/-- The text is in the buffer, and the cursor is where it should be. -/
structure Shows (con : Console) (e : Editor) (s : Session) : Prop where
  text : Spells s.mem con.buffer e.text
  cursor : s.i = e.cursor

section Keys

variable {con : Console} {s : Session} {e : Editor} {key : Key} {keys : List Key} {m : Mem} {history : History}

lemma Editor.cursor_le (e : Editor) : e.cursor ≤ e.text.length := by
  rw [cursor, text, length_append, length_reverse]
  exact Nat.le_add_right ..

section

variable (hsize : 1 < con.bufferSize) (h : Shows con e s)
include hsize h

lemma backspace_shows (hroom : e.text.length + 2 ≤ con.maxBufferSize) :
    ∃ s', backspace con s = .ok s' ∧ Shows con (e.press .backspace) s' := by
  have hbounds := maxBufferSize_bounds hsize
  obtain ⟨_ | ⟨c, before⟩, after⟩ := e
  · exact ⟨s, if_neg (not_not.mpr h.cursor), h⟩
  · have htext := h.text
    rw [Editor.text, reverse_cons, ← append_cons] at htext hroom
    have hi : s.i = before.reverse.length + 1 := h.cursor.trans (by rw [length_reverse]; rfl)
    have hW : ∀ x, Span con.buffer (con.maxBufferSize - 1) x → con.Buffer x :=
      fun x hx => hx.mono le_rfl (by omega)
    obtain ⟨m', hrun, hspells⟩ := shiftLeft_spells (k := 2 ^ 32) con.buffer_ne hW htext (by omega)
      (by rw [length_append, length_cons] at hroom; omega)
    rw [backspace, if_pos (by omega), hi, hrun, bind_okay]
    exact ⟨_, rfl, hspells, length_reverse⟩

lemma insert_shows {c : UInt8} (hc : c ≠ 0) (hroom : e.text.length + 2 ≤ con.maxBufferSize) :
    ∃ s', insert con s c = .ok s' ∧ Shows con ⟨c :: e.before, e.after⟩ s' := by
  have hbounds := maxBufferSize_bounds hsize
  have hlen : clStrlenS s.mem con.buffer (con.maxBufferSize - 1) = min e.text.length _ :=
    clStrlenS_hasLength con.buffer_ne h.text.hasLength
  have hle := e.cursor_le
  have hi : s.i = e.before.reverse.length := h.cursor.trans List.length_reverse.symm
  rw [Nat.min_eq_left (by omega)] at hlen
  refine ⟨_, insert_eq (by omega) (by rw [h.cursor]; omega), ?_, by dsimp only; rw [h.cursor]; rfl⟩
  have hins := spells_insert h.text hc
  rw [append_cons, ← reverse_cons, ← Editor.text, ← hlen, ← hi] at hins
  exact hins

lemma keyPressed_shows (hkey : key.edits = true) (hroom : e.text.length + 2 ≤ con.maxBufferSize)
    (hroom' : (e.press key).text.length + 2 ≤ con.maxBufferSize) :
    ∃ s', keyPressed con s key = .ok (s', false) ∧ Shows con (e.press key) s' := by
  have hle := e.cursor_le
  cases key with
  | enter | up | down => cases hkey
  | delete | tab => exact ⟨s, rfl, h⟩
  | backspace =>
    obtain ⟨s', hrun, hshows⟩ := backspace_shows hsize h hroom
    rw [keyPressed, hrun]
    exact ⟨s', rfl, hshows⟩
  | left =>
    refine ⟨_, rfl, ?_⟩
    obtain ⟨_ | ⟨c, before⟩, after⟩ := e
    · have h0 : s.i = 0 := h.cursor
      rw [keyLeft, if_neg (not_not.mpr h0)]
      exact h
    · rw [keyLeft, if_pos (by rw [h.cursor]; exact Nat.succ_ne_zero _)]
      refine ⟨?_, by dsimp only; rw [h.cursor]; rfl⟩
      have htext := h.text
      rwa [Editor.text, reverse_cons, ← append_cons] at htext
  | right =>
    refine ⟨_, rfl, ?_⟩
    obtain ⟨before, _ | ⟨c, after⟩⟩ := e
    · have hend := h.text.last
      rw [Editor.text, append_nil, length_reverse] at hend
      rw [keyRight, if_neg fun hright => hright.2 (by rw [h.cursor]; exact hend)]
      exact h
    · have htext := h.text
      obtain ⟨-, -, hc, hne, -⟩ := spells_append.mp htext
      rw [length_reverse] at hc
      rw [Editor.text, append_cons, ← reverse_cons] at htext
      have hlt : s.i < (Editor.mk before (c :: after)).text.length := by
        rw [h.cursor, Editor.cursor, Editor.text]
        simp
      rw [keyRight, if_pos ⟨by omega, by rw [h.cursor]; exact fun h0 => hne (hc.symm.trans h0)⟩]
      exact ⟨htext, by dsimp only; rw [h.cursor]; rfl⟩
  | home =>
    refine ⟨_, rfl, ?_⟩
    rw [keyHome]
    split
    · exact ⟨h.text, rfl⟩
    · next h0 => exact ⟨h.text, not_not.mp h0⟩
  | toEnd =>
    refine ⟨_, rfl, ?_, ?_⟩
    · rw [Editor.press, Editor.text, reverse_reverse, append_nil]
      exact h.text
    · rw [cursorToEnd, clStrlenS_hasLength con.buffer_ne h.text.hasLength, Nat.min_eq_left (by omega)]
      exact List.length_reverse.symm
  | other c =>
    have hmax : ∀ {s'}, Shows con (e.press (.other c)) s' → decide (s'.i ≥ con.maxBufferSize - 1) = false := by
      intro s' hshows
      have := (e.press (.other c)).cursor_le
      rw [hshows.cursor]
      exact decide_eq_false (by omega)
    rw [keyPressed]
    by_cases hc : c ≠ 0
    · obtain ⟨s', hrun, hshows⟩ := insert_shows hsize h hc hroom
      rw [Editor.press, if_pos hc] at hmax ⊢
      rw [if_pos hc, hrun, bind_okay]
      dsimp only
      rw [hmax hshows]
      exact ⟨s', rfl, hshows⟩
    · rw [Editor.press, if_neg hc] at hmax ⊢
      rw [if_neg hc, pure_okay, bind_okay]
      dsimp only
      rw [hmax h]
      exact ⟨s, rfl, h⟩

lemma getsFrom_shows (hkeys : ∀ key ∈ keys, key.edits = true)
    (hroom : ∀ ks, ks <+: keys → (ks.foldl Editor.press e).text.length + 2 ≤ con.maxBufferSize) :
    ∃ s', getsFrom con keys s = .ok (s', false) ∧ Shows con (keys.foldl Editor.press e) s' := by
  induction keys generalizing e s with
  | nil => exact ⟨s, rfl, h⟩
  | cons key keys ih =>
    obtain ⟨hkey, hkeys⟩ := List.forall_mem_cons.mp hkeys
    have hroom' : ∀ ks, ks <+: keys → (ks.foldl Editor.press (e.press key)).text.length + 2 ≤ con.maxBufferSize :=
      fun ks hks => hroom (key :: ks) (List.cons_prefix_cons.mpr ⟨rfl, hks⟩)
    obtain ⟨s', hrun, hshows⟩ := keyPressed_shows hsize h hkey (hroom [] nil_prefix) (hroom' [] nil_prefix)
    rw [getsFrom, hrun, bind_okay]
    exact ih hshows hkeys hroom'

end

lemma getsFrom_append {ks : List Key} {s' : Session} (h : getsFrom con keys s = .ok (s', false)) :
    getsFrom con (keys ++ ks) s = getsFrom con ks s' := by
  induction keys generalizing s with
  | nil =>
    cases h
    rfl
  | cons key keys ih =>
    rw [getsFrom] at h
    obtain ⟨⟨s1, b⟩, hkey, h⟩ := bind_ok.mp h
    rw [cons_append, getsFrom, hkey, bind_okay]
    cases b with
    | true => cases h
    | false => exact ih h

lemma gets_shows (m : Mem) (history : History) (keys : List Key) (hsize : 1 < con.bufferSize)
    (hmax : con.bufferSize < 2 ^ 32)
    (hkeys : ∀ key ∈ keys, key.edits = true)
    (hroom : ∀ ks, ks <+: keys → (Editor.typed ks).text.length + 2 ≤ con.maxBufferSize) :
    ∃ s, getsS con m history (keys ++ [.enter]) = .ok (s, true) ∧
      Spells s.mem con.buffer (trimmed (Editor.typed keys).text) ∧ s.i = (Editor.typed keys).cursor := by
  have hbounds := maxBufferSize_bounds hsize
  have hstart : Shows con ⟨[], []⟩ (start con m history) := ⟨if_pos ⟨by omega, by omega⟩, rfl⟩
  obtain ⟨s, hrun, hshows⟩ := getsFrom_shows hsize hstart hkeys hroom
  have hlen := hroom keys (prefix_refl keys)
  obtain ⟨s', hsave, hi, hspells, -⟩ := saveLine_spells hsize hmax hshows.text (by rw [← Editor.typed]; omega)
  rw [getsS_eq hsize, getsFrom_append hrun, getsFrom, keyPressed, hsave]
  exact ⟨s', rfl, hspells, hi.trans hshows.cursor⟩

end Keys

def Edits (con : Console) (m : Mem) (history : History) (keys : List Key) : Prop :=
  ∃ s, getsS con m history (keys ++ [.enter]) = .ok (s, true) ∧
    Spells s.mem con.buffer (trimmed (Editor.typed keys).text) ∧ s.i = (trimmed (Editor.typed keys).text).length

/-- The line is edited right if and only if the cursor is as far from the start as the trimmed text is long. -/
theorem gets_edits_iff (con : Console) (m : Mem) (history : History) (keys : List Key) (hsize : 1 < con.bufferSize)
    (hmax : con.bufferSize < 2 ^ 32) (hkeys : ∀ key ∈ keys, key.edits = true)
    (hroom : ∀ ks, ks <+: keys → (Editor.typed ks).text.length + 2 ≤ con.maxBufferSize) :
    Edits con m history keys ↔ (Editor.typed keys).cursor = (trimmed (Editor.typed keys).text).length := by
  obtain ⟨s, hrun, hspells, hi⟩ := gets_shows m history keys hsize hmax hkeys hroom
  constructor
  · rintro ⟨s', hrun', -, hlen⟩
    cases hrun.symm.trans hrun'
    exact hi.symm.trans hlen
  · exact fun hlen => ⟨s, hrun, hspells, hi.trans hlen⟩

/-- The parts of the input that are typed first are its first keys. -/
lemma fits_of_take {con : Console} {keys : List Key} (h : ∀ n < keys.length + 1,
      (Editor.typed (keys.take n)).text.length + 2 ≤ con.maxBufferSize) (ks : List Key) (hks : ks <+: keys) :
    (Editor.typed ks).text.length + 2 ≤ con.maxBufferSize := by
  rw [List.prefix_iff_eq_take.mp hks]
  exact h _ (Nat.lt_succ_of_le hks.length_le)

/-- In front of `c` a character is inserted and taken back, then `b` is inserted, and the cursor goes to the end. -/
theorem gets_edits_moved : Edits shell (fun _ => 1) noHistory
    [.other 0x63, .left, .other 0x61, .backspace, .other 0x62, .toEnd] :=
  (gets_edits_iff shell _ noHistory _ (by decide) (by decide) (by decide) (fits_of_take (by decide))).mpr rfl

/-- Behind `a` the cursor is moved to the left before the enter key is pressed, and the length is said to be 0. -/
theorem gets_edits_left : ∃ s, getsS shell (fun _ => 1) noHistory [.other 0x61, .left, .enter] = .ok (s, true) ∧
    Spells s.mem shell.buffer [0x61] ∧ s.i = 0 :=
  gets_shows (fun _ => 1) noHistory [.other 0x61, .left] (by decide) (by decide) (by decide)
    (fits_of_take (by decide))

end HAL9000.Keyboard
