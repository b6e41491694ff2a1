import HAL9000.CommonLib.Trim

/-!
# Reading a line from the keyboard

Port of `gets_s` (`HAL9000/src/keyboard_utils.c`). The line is edited in the buffer of the caller; the arrows move
the cursor `i` and recall the lines of earlier calls from a ring of 16 rows. A key is one round of the loop, and
the buffer is displayed in front of every round.

A character is inserted before it is known whether there is room for it, and afterwards the position of the cursor
is checked, and not the length of the line. At most 78 bytes of the buffer are used, so a buffer of 80 bytes, which
is what the command interpreter has, keeps its last byte. In a smaller one the terminator moves behind the buffer
when a character is inserted into a full line.

What is shown on the display is left out, but for the column of the cursor.
-/

namespace HAL9000.Keyboard
open Lib CString

/-- The keys (C `KEYCODE`). -/
inductive Key where
  | enter
  | backspace
  | delete
  | up
  | down
  | left
  | right
  | home
  | toEnd
  | tab
  /-- Any other key, and what `KeyboardKeyToAscii` returns for it: 0 if it is no character. -/
  | other (c : UInt8)
deriving DecidableEq

/-- The rows that are in use (C `m_CmdHistoryFirstIndex`, `m_CmdHistorySize`). -/
structure History where
  firstIndex : Nat
  size : Nat
  firstIndex_lt : firstIndex < 16
  size_le : size ≤ 16

def History.lastIndex (h : History) : Nat := (h.firstIndex + h.size - 1) % 16

/-- Take a row for a new line: the oldest one if all are in use. -/
def History.push (h : History) : History :=
  if hfull : h.size = 16
    then ⟨(h.firstIndex + 1) % 16, h.size, Nat.mod_lt _ (by decide), h.size_le⟩
    else ⟨h.firstIndex, h.size + 1, h.firstIndex_lt, by have := h.size_le; omega⟩

/-- The buffer of the caller and the rows of `m_CmdHistory`, 80 bytes each. -/
structure Console where
  buffer : Nat
  bufferSize : Nat
  rows : Nat
  buffer_ne : buffer ≠ 0
  rows_ne : rows ≠ 0
  apart : buffer + bufferSize ≤ rows ∨ rows + 16 * 80 ≤ buffer

/-- (C `maxBufferSize`) -/
def Console.maxBufferSize (con : Console) : Nat := min con.bufferSize (80 - 3 + 1)

abbrev Console.Buffer (con : Console) : Nat → Prop := Span con.buffer con.bufferSize

/-- The row of a line (C `m_CmdHistory[index]`). -/
def Console.row (con : Console) (index : Nat) : Nat := con.rows + 80 * index

/-- The memory, the history, and the local variables of `gets_s`. -/
structure Session where
  mem : Mem
  history : History
  i : Nat
  column : Nat
  cmdHistoryIndex : Nat

/-- Move the characters up to index `j` one place to the right, the last one first; `n` is `j + 1`. -/
def shiftRight (W : Nat → Prop) [DecidablePred W] (buffer i : Nat) : Nat → Mem → Exec Mem
  | 0, m => pure m
  | j + 1, m =>
    if j ≥ i then do
      let m ← poke W m (buffer + (j + 1)) (m (buffer + j))
      shiftRight W buffer i j m
    else pure m

/-- Move the characters from index `j` on one place to the left; the length is taken again every time. -/
def shiftLeft (W : Nat → Prop) [DecidablePred W] (buffer maxLen : Nat) : Nat → Nat → Mem → Exec Mem
  | 0, _, _ => throw .fuel
  | k + 1, j, m =>
    if j ≤ clStrlenS m buffer maxLen then do
      let m ← poke W m (buffer + (j - 1)) (m (buffer + j))
      shiftLeft W buffer maxLen k (j + 1) m
    else pure m

section Keys

variable (con : Console) (s : Session)

/-- Put the line into the history, without the whitespace around it. -/
def saveLine : Exec Session :=
  if clStrlenS s.mem con.buffer con.maxBufferSize = 0 then pure s
  else do
    let row := con.row s.history.push.lastIndex
    let m ← clStrtrim (fun _ => True) s.mem con.buffer
    let m ← clStrncpy (Span row 80) m row con.buffer (con.maxBufferSize - 1)
    pure { s with mem := m, history := s.history.push }

def backspace : Exec Session :=
  if s.i ≠ 0 then do
    let m ← shiftLeft con.Buffer con.buffer (con.maxBufferSize - 1) (2 ^ 32) s.i s.mem
    pure { s with mem := m, i := s.i - 1, column := wsub 8 s.column 1 }
  else pure s

def cursorToEnd : Session := { s with
    i := clStrlenS s.mem con.buffer con.maxBufferSize
    column := wadd 8 3 (clStrlenS s.mem con.buffer con.maxBufferSize % 2 ^ 8) }

def recallLine (index : Nat) : Exec Session := do
  let m ← clStrncpy con.Buffer s.mem con.buffer (con.row index) (con.maxBufferSize - 1)
  pure (cursorToEnd con { s with mem := m, cmdHistoryIndex := index })

def keyUp : Exec Session :=
  if s.history.size = 0 then pure s
  else if s.cmdHistoryIndex = maxDword then recallLine con s s.history.lastIndex
  else if s.cmdHistoryIndex ≠ s.history.firstIndex then recallLine con s (wsub 32 s.cmdHistoryIndex 1 % 16)
  else recallLine con s s.cmdHistoryIndex

def keyDown : Exec Session :=
  if s.history.size = 0 then pure s
  else if s.cmdHistoryIndex = maxDword then pure s
  else if s.cmdHistoryIndex ≠ s.history.lastIndex then recallLine con s (wadd 32 s.cmdHistoryIndex 1 % 16)
  else recallLine con s s.cmdHistoryIndex

def keyLeft : Session :=
  if s.i ≠ 0 then { s with i := s.i - 1, column := wsub 8 s.column 1 } else s

def keyRight : Session :=
  if s.i < con.maxBufferSize - 2 ∧ s.mem (con.buffer + s.i) ≠ 0
    then { s with i := s.i + 1, column := wadd 8 s.column 1 }
    else s

def keyHome : Session :=
  if s.i ≠ 0 then { s with i := 0, column := wsub 8 s.column (s.i % 2 ^ 8) } else s

def insert (c : UInt8) : Exec Session := do
  let j := clStrlenS s.mem con.buffer (con.maxBufferSize - 1)
  let m ← shiftRight con.Buffer con.buffer s.i (j + 1) s.mem
  let m ← poke con.Buffer m (con.buffer + s.i) c
  pure { s with mem := m, i := s.i + 1, column := wadd 8 s.column 1 }

/-- One round of the loop, and whether it is the last one. -/
def keyPressed : Key → Exec (Session × Bool)
  | .enter => do pure (← saveLine con s, true)
  | .backspace => do pure (← backspace con s, false)
  | .delete => pure (s, false)
  | .up => do pure (← keyUp con s, false)
  | .down => do pure (← keyDown con s, false)
  | .left => pure (keyLeft s, false)
  | .right => pure (keyRight con s, false)
  | .home => pure (keyHome s, false)
  | .toEnd => pure (cursorToEnd con s, false)
  | .tab => pure (s, false)
  | .other c => do
    let s ← if c ≠ 0 then insert con s c else pure s
    pure (s, decide (s.i ≥ con.maxBufferSize - 1))

end Keys

/-- The loop of `gets_s`, with the keys that are pressed. It waits for another one, or it has ended. -/
def getsFrom (con : Console) : List Key → Session → Exec (Session × Bool)
  | [], s => pure (s, false)
  | key :: keys, s => do
    let r ← keyPressed con s key
    if r.2 then pure r else getsFrom con keys r.1

/-- The buffer is zeroed, and the cursor is at its start. -/
def start (con : Console) (m : Mem) (history : History) : Session :=
  ⟨fill m con.buffer con.bufferSize 0, history, 0, 3, maxDword⟩

/-- What has happened after some keys (C `gets_s`). -/
def getsS (con : Console) (m : Mem) (history : History) (keys : List Key) : Exec (Session × Bool) := do
  ensure (con.buffer ≠ 0)
  ensure (con.bufferSize > 1)
  getsFrom con keys (start con m history)

end HAL9000.Keyboard
