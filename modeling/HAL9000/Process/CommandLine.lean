import HAL9000.CommonLib.Rendered
import HAL9000.CommonLib.Tokens

/-!
# The command line of a process

Port of `_ProcessParseCommandLine` (`HAL9000/src/process.c`). The full command line is the name of the process and
the command line, with a space between them. The number of arguments is counted with `cl_strcelem`, and the
program cuts them with `cl_strtok_s`. There are no more tokens than arguments just if the spaces are `Covered`, as
they are if none follows another one.
-/

namespace HAL9000.Process
open Lib CString List

def stringAt (m : Mem) (str : Nat) : Exec (List UInt8) := do
  let n ← clStrlen (fun _ => True) m str
  pure ((List.range n).map fun i => m (str + i))

/-- The bytes for the name, the space, the command line and the terminator (C `fullCmdLineSize`). -/
def fullCmdLineSize (m : Mem) (processName commandLine : Nat) : Exec Nat := do
  let name ← clStrlen (fun _ => True) m processName
  if commandLine ≠ 0 then do
    let line ← clStrlen (fun _ => True) m commandLine
    pure (wadd 32 (wadd 32 name (wadd 32 line 1)) 1)
  else pure (wadd 32 (wadd 32 name 0) 1)

/-- Print the full command line to the zeroed buffer (C `pFullCmdLine`). -/
def printCommandLine (m : Mem) (processName commandLine size : Nat) : Exec (Output × Except Status Nat) := do
  let name ← stringAt m processName
  if commandLine ≠ 0 then do
    let line ← stringAt m commandLine
    clVsnprintf (fun _ => 0) size [0x25, 0x73, 0x20, 0x25, 0x73] [.string name, .string line]
  else clVsnprintf (fun _ => 0) size [0x25, 0x73] [.string name]

/-- The arguments behind the name (C `noOfArgs`). -/
def noOfArgs (fuel : Nat) (m : Mem) (commandLine : Nat) : Exec Nat :=
  if commandLine ≠ 0 then clStrcelem fuel m commandLine 0x20 else pure 0

/-- The fields of `PROCESS` that are set. -/
structure CommandLine where
  fullCommandLine : Mem
  numberOfArguments : Nat

/-- Set the fields if the full command line has been printed. -/
def setCommandLine (fuel : Nat) (m : Mem) (commandLine : Nat) (buffer : Mem) :
    Except Status Nat → Exec (Except Status CommandLine)
  | .error status => pure (.error status)
  | .ok _ => do
    let n ← noOfArgs fuel m commandLine
    ensure (n ≠ maxDword)
    pure (.ok ⟨buffer, wadd 32 n 1⟩)

/-- (C `_ProcessParseCommandLine`) -/
def processParseCommandLine (fuel : Nat) (allocated : Bool) (m : Mem) (processName commandLine : Nat) :
    Exec (Except Status CommandLine) := do
  ensure (processName ≠ 0)
  let size ← fullCmdLineSize m processName commandLine
  if allocated then do
    let (o, status) ← printCommandLine m processName commandLine size
    setCommandLine fuel m commandLine o.buffer status
  else pure (.error .heapInsufficientResources)

def fullText (commandLine : Nat) (name line : List UInt8) : List UInt8 :=
  if commandLine ≠ 0 then name ++ 0x20 :: line else name

/-- How many arguments are counted behind the name. -/
def argumentsOf (commandLine : Nat) (line : List UInt8) : Nat :=
  if commandLine ≠ 0 then 1 + counted 0x20 false line else 0

/-- The full command line has no more spaces than arguments are counted behind the name, or one more if it ends
    with a space. -/
def Covered (commandLine : Nat) (name line : List UInt8) : Prop :=
  (fullText commandLine name line).count 0x20 ≤ argumentsOf commandLine line +
    if (fullText commandLine name line).getLast?.all (· ∈ [0x20]) = true then 1 else 0

section Print

variable {m : Mem} {processName commandLine fuel : Nat} {name line : List UInt8}

variable {s : List UInt8} {pieces : List Piece} {args : List Arg}

lemma stringAt_spells (h : Spells m processName name) (hlen : name.length < 2 ^ 32) :
    stringAt m processName = .ok name := by
  rw [stringAt, clStrlen_spells h (fun _ _ => trivial) hlen, bind_okay, pure_okay]
  refine congrArg Except.ok (ext_getElem (by simp) fun i hi hi' => ?_)
  rw [getElem_map, getElem_range, h.get hi']

lemma modest_string (hne : ∀ c ∈ s, c ≠ 0) (hlen : s.length < 2 ^ 31) (h : Modest pieces args) :
    Modest (.conversion [] .string :: pieces) (.string s :: args) :=
  ⟨⟨s, rfl, hne, hlen⟩, by decide, h⟩

lemma render_string :
    render (.conversion [] .string :: pieces) (.string s :: args) = s ++ render pieces args := by
  have htext : pieceText [] .string s = s := by
    rw [pieceText, if_neg (by decide), padded, decimal, foldl_nil, Nat.zero_sub, replicate_zero,
      nil_append]
  exact congrArg (· ++ render pieces args) htext

lemma roomy_string {size offset : Nat} (h : ∀ offset, Roomy size pieces args offset) :
    Roomy size (.conversion [] .string :: pieces) (.string s :: args) offset :=
  fun _ _ => ⟨fun hk => absurd hk (by decide), h _⟩

lemma printCommandLine_spells (hname : Spells m processName name)
    (hline : commandLine ≠ 0 → Spells m commandLine line)
    (hlen : name.length + line.length + 2 < 2 ^ 31) :
    ∃ size o n, fullCmdLineSize m processName commandLine = .ok size ∧
      printCommandLine m processName commandLine size = .ok (o, .ok n) ∧
      Spells o.buffer 0 (fullText commandLine name line) := by
  have hnameNe := (spells_iff.mp hname).2.1
  rw [fullCmdLineSize, clStrlen_spells hname (fun _ _ => trivial) (by omega), bind_okay]
  by_cases hc : commandLine ≠ 0
  · have hlineNe := (spells_iff.mp (hline hc)).2.1
    have hparse : parse [0x25, 0x73, 0x20, 0x25, 0x73] =
        [.conversion [] .string, .literal 0x20, .conversion [] .string] := rfl
    have hmodest : Modest (parse [0x25, 0x73, 0x20, 0x25, 0x73]) [.string name, .string line] :=
      modest_string hnameNe (by omega) (modest_string hlineNe (by omega) trivial)
    have hrender : render (parse [0x25, 0x73, 0x20, 0x25, 0x73]) [.string name, .string line] =
        name ++ 0x20 :: line := by
      rw [hparse, render_string, render, render_string, render, append_nil]
    have hsize : wadd 32 (wadd 32 name.length (wadd 32 line.length 1)) 1 = name.length + (line.length + 1) + 1 := by
      rw [wadd_eq (a := line.length) (by omega), wadd_eq (a := name.length) (by omega), wadd_eq (by omega)]
    rw [if_pos hc, clStrlen_spells (hline hc) (fun _ _ => trivial)
      (by omega), bind_okay, hsize, fullText, if_pos hc]
    obtain ⟨o, hrun, ho⟩ := (clVsnprintf_render (fun _ => 0)
      (show 1 ≤ name.length + (line.length + 1) + 1 by omega) (by omega) (by simp) hmodest (by decide)
      (by rw [hrender, length_append, length_cons]; omega)).1
      ⟨by rw [hrender, length_append, length_cons]; omega, roomy_string fun _ => roomy_string fun _ => trivial⟩
    refine ⟨_, o, 2, rfl, ?_, hrender ▸ ho⟩
    rw [printCommandLine, stringAt_spells hname (by omega), bind_okay, if_pos hc,
      stringAt_spells (hline hc) (by omega), bind_okay, hrun]
    rfl
  · have hparse : parse [0x25, 0x73] = [.conversion [] .string] := rfl
    have hmodest : Modest (parse [0x25, 0x73]) [.string name] := modest_string hnameNe (by omega) trivial
    have hrender : render (parse [0x25, 0x73]) [.string name] = name := by
      rw [hparse, render_string, render, append_nil]
    have hsize : wadd 32 (wadd 32 name.length 0) 1 = name.length + 0 + 1 := by
      rw [wadd_eq (a := name.length) (by omega), wadd_eq (by omega)]
    rw [if_neg hc, hsize, fullText, if_neg hc]
    obtain ⟨o, hrun, ho⟩ := (clVsnprintf_render (fun _ => 0)
      (show 1 ≤ name.length + 0 + 1 by omega) (by omega) (by simp) hmodest (by decide) (by rw [hrender]; omega)).1
      ⟨by rw [hrender]; omega, roomy_string fun _ => trivial⟩
    refine ⟨_, o, 1, rfl, ?_, hrender ▸ ho⟩
    rw [printCommandLine, stringAt_spells hname (by omega), bind_okay, if_neg hc, hrun]
    rfl

lemma noOfArgs_spells (hline : commandLine ≠ 0 → Spells m commandLine line) (hlen : line.length < 2 ^ 32)
    (hf : line.length < fuel) : noOfArgs fuel m commandLine = .ok (argumentsOf commandLine line) := by
  rw [noOfArgs, argumentsOf]
  by_cases hc : commandLine ≠ 0
  · rw [if_pos hc, if_pos hc, clStrcelem_spells hc (hline hc) hlen hf]
  · rw [if_neg hc, if_neg hc, pure_okay]

/-- A name without spaces and a separated command line are covered. -/
lemma covered_of_separated (hname : 0x20 ∉ name) (hline : commandLine ≠ 0 → Separated 0x20 line) :
    Covered commandLine name line := by
  refine Nat.le_add_right_of_le ?_
  rw [fullText, argumentsOf]
  split
  · next hc =>
    rw [count_append, List.count_eq_zero.mpr hname, count_cons_self, counted_eq_count_iff.mpr (hline hc),
      Nat.zero_add, Nat.add_comm]
  · exact (List.count_eq_zero.mpr hname).le

end Print

/-- The delimiters are counted right if and only if none of them is at the start or behind another one. The command
    line of a process has at most as many tokens as arguments if and only if its spaces are covered, as they are if
    its name has no space and the rest is such. -/
theorem strcelem_counts_iff (fuel : Nat) :
    (∀ (m : Mem) (str : Nat) (delimiter : UInt8) (s : List UInt8), str ≠ 0 → Spells m str s →
      s.length < 2 ^ 32 → s.length < fuel →
        (clStrcelem fuel m str delimiter = .ok (1 + s.count delimiter) ↔ Separated delimiter s)) ∧
    (∀ (m : Mem) (processName commandLine : Nat) (name line : List UInt8), processName ≠ 0 →
      Spells m processName name → (commandLine ≠ 0 → Spells m commandLine line) →
      name.length + line.length + 2 < 2 ^ 31 → line.length < fuel →
        ∃ p, processParseCommandLine fuel true m processName commandLine = .ok (.ok p) ∧
          Spells p.fullCommandLine 0 (fullText commandLine name line) ∧
          ∀ (fuel : Nat) (m : Mem) (str : Nat), str ≠ 0 → Spells m str (fullText commandLine name line) →
            (fullText commandLine name line).length < fuel →
              ∃ n, tokens m str [0x20] fuel 0 = .ok n ∧
                (n ≤ p.numberOfArguments ↔ Covered commandLine name line)) ∧
    ∀ (commandLine : Nat) (name line : List UInt8), 0x20 ∉ name → (commandLine ≠ 0 → Separated 0x20 line) →
      Covered commandLine name line := by
  refine ⟨?_, ?_, fun _ _ _ => covered_of_separated⟩
  · intro m str d s h0 h hs hf
    rw [clStrcelem_spells h0 h hs hf, ← counted_eq_count_iff]
    exact ⟨fun heq => Nat.add_left_cancel (Except.ok.inj heq), fun heq => by rw [heq]⟩
  · intro m processName commandLine name line h0 hname hline hlen hf
    obtain ⟨size, o, n, hsize, hprint, hspells⟩ := printCommandLine_spells hname hline hlen
    have hargs := noOfArgs_spells hline (by omega) hf
    have hle : argumentsOf commandLine line ≤ 1 + line.length := by
      have : counted 0x20 false line ≤ line.length := counted_le.trans count_le_length
      unfold argumentsOf
      split <;> omega
    refine ⟨⟨o.buffer, argumentsOf commandLine line + 1⟩, ?_, hspells, fun fuel' m' str hstr htext hfuel => ?_⟩
    · have hmax : argumentsOf commandLine line ≠ maxDword := by
        rw [maxDword]
        omega
      rw [processParseCommandLine, ensure_pos h0, bind_okay, hsize, bind_okay, if_pos rfl, hprint, bind_okay]
      dsimp only
      rw [setCommandLine, hargs, bind_okay, ensure_pos hmax, bind_okay, wadd_eq (by omega), pure_okay]
    · have hshort : (fullText commandLine name line).length < 2 ^ 32 := by
        rw [fullText]
        split
        · rw [length_append, length_cons]
          omega
        · omega
      have hcount : (fullText commandLine name line).countP (· ∈ [0x20]) =
          (fullText commandLine name line).count 0x20 := countP_congr fun c _ => by simp
      refine ⟨_, tokens_spells hstr (if_pos rfl) htext hshort hfuel, ?_⟩
      rw [Covered, hcount]
      dsimp only
      split <;> omega

/-- The process `"p"` with `"a b"`. -/
theorem strcelem_counts_two : clStrcelem 4 (textAt [0x70, 0, 0x61, 0x20, 0x62]) 3 0x20 = .ok 2 ∧
    ∃ p, processParseCommandLine 4 true (textAt [0x70, 0, 0x61, 0x20, 0x62]) 1 3 = .ok (.ok p) ∧
      Spells p.fullCommandLine 0 [0x70, 0x20, 0x61, 0x20, 0x62] ∧
      ∃ n, tokens (textAt [0x70, 0x20, 0x61, 0x20, 0x62]) 1 [0x20] 6 0 = .ok n ∧ n ≤ p.numberOfArguments := by
  have hsep : Separated 0x20 [0x61, 0x20, 0x62] := by
    rw [Separated]
    decide
  refine ⟨((strcelem_counts_iff 4).1 _ 3 0x20 [0x61, 0x20, 0x62] (by decide) (by decide) (by decide)
    (by decide)).mpr hsep, ?_⟩
  obtain ⟨p, hrun, hspells, htokens⟩ := (strcelem_counts_iff 4).2.1 (textAt [0x70, 0, 0x61, 0x20, 0x62]) 1 3
    [0x70] [0x61, 0x20, 0x62] (by decide) (by decide) (fun _ => by decide) (by decide) (by decide)
  obtain ⟨n, hn, hcovered⟩ :=
    htokens 6 (textAt [0x70, 0x20, 0x61, 0x20, 0x62]) 1 (by decide) (by decide) (by decide)
  exact ⟨p, hrun, hspells, n, hn, hcovered.mpr ((strcelem_counts_iff 4).2.2 3 _ _ (by decide) fun _ => hsep)⟩

/-- One element is counted in `" a"`. The process `"p"` with `"a  b"` has three arguments, but its command line is
    cut into four tokens. -/
theorem strcelem_stops :
    clStrcelem 3 (textAt [0x20, 0x61]) 1 0x20 = .ok 1 ∧ ([0x20, 0x61] : List UInt8).count 0x20 = 1 ∧
    (∃ p, processParseCommandLine 5 true (textAt [0x70, 0, 0x61, 0x20, 0x20, 0x62]) 1 3 = .ok (.ok p) ∧
      Spells p.fullCommandLine 0 [0x70, 0x20, 0x61, 0x20, 0x20, 0x62] ∧ p.numberOfArguments = 3) ∧
    tokens (textAt [0x70, 0x20, 0x61, 0x20, 0x20, 0x62]) 1 [0x20] 7 0 = .ok 4 := by
  refine ⟨rfl, by decide, ⟨_, rfl, ?_, rfl⟩, rfl⟩
  decide

end HAL9000.Process
