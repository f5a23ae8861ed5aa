/-
The text console of the x86-64 kernel, `print.c` and `console.c`.

The screen is the array `cga_buffer` of 25 rows of 80 cells.  `writes` records the
index of every write to it, whether or not the index is within the array, so that
memory safety can be stated; `hwCursor` are the arguments of the last call of
`_arch_set_cursor_pos`.

The cursor may stand behind the last column: column 80 is what is left of a line
that has just been filled, and the next printable character goes to the next line.
-/
import EvtDrivenOs.Lib.Run
import Mathlib.Logic.Function.Basic

namespace EvtDrivenOs.Console

open EvtDrivenOs.Lib

/-- The number of columns. -/
def cgaNumCols : ℕ := 80

/-- The number of rows. -/
def cgaNumRows : ℕ := 25

/-- Black, the background. -/
def printColorBlack : UInt8 := 0

/-- Yellow, the colour of the text. -/
def printColorYellow : UInt8 := 14

/-- White, the colour before the console is set up. -/
def printColorWhite : UInt8 := 15

/-- `CGA_COLOR` -/
def cgaColor (foreC backC : UInt8) : UInt8 := foreC ||| (backC <<< 4)

/-- A character cell, `cga_char_t`. -/
structure CgaChar where
  code : UInt8
  color : UInt8
deriving DecidableEq, Repr

/-- The static variables and the screen. -/
structure Con where
  x : ℕ := 0
  y : ℕ := 0
  charColor : UInt8 := cgaColor printColorWhite printColorBlack
  cgaBuffer : ℕ → CgaChar
  /-- The indices written so far, the latest first. -/
  writes : List ℕ := []
  hwCursor : ℕ × ℕ := (0, 0)

namespace Con

/-- `cga_buffer[i] = c` -/
def write (s : Con) (i : ℕ) (c : CgaChar) : Con :=
  { s with cgaBuffer := Function.update s.cgaBuffer i c, writes := i :: s.writes }

/-- The empty cell in the current colour. -/
def empty (s : Con) : CgaChar := ⟨0, s.charColor⟩

end Con

/-! ### `print.c` -/

/-- The row gets the empty character in each column. -/
def clearRow (s : Con) (row : ℕ) : Con :=
  let empty := s.empty
  (List.range cgaNumCols).foldl (fun s i => s.write (i + row * cgaNumCols) empty) s

/-- The position is left alone if it is not on the screen. -/
def printSetxy (s : Con) (cx cy : ℕ) : Con :=
  if cgaNumCols ≤ cx ∨ cgaNumRows ≤ cy then s else { s with x := cx, y := cy }

/-- All rows are cleared, and the position is the first. -/
def printClear (s : Con) : Con :=
  (List.range cgaNumRows).foldl clearRow { s with x := 0, y := 0 }

/-- The colours of what is printed from now on. -/
def printColor (s : Con) (foreColor backColor : UInt8) : Con :=
  { s with charColor := cgaColor foreColor backColor }

/-- The inner loop of the scroll in `print_newLine`. -/
def copyRow (s : Con) (row : ℕ) : Con :=
  (List.range cgaNumCols).foldl
    (fun s col => s.write (col + (row - 1) * cgaNumCols) (s.cgaBuffer (col + row * cgaNumCols))) s

/-- The next row, or the text goes up by one row. -/
def printNewLine (s : Con) : Con :=
  let s := { s with x := 0 }
  if s.y < cgaNumRows - 1 then { s with y := s.y + 1 }
  else
    let s := (List.range' 1 (cgaNumRows - 1)).foldl copyRow s
    clearRow s (cgaNumRows - 1)

/-- The character in front of the position is deleted; at the first there is none. -/
def printDel (s : Con) : Con :=
  if s.x = 0 ∧ s.y = 0 then s
  else
    let s := if s.x > 0 then { s with x := s.x - 1 }
      else if s.y > 0 then { s with y := s.y - 1, x := cgaNumCols - 1 }
      else s
    s.write (s.x + s.y * cgaNumCols) s.empty

/-- Writes a cell where the cursor is, and moves the cursor. -/
def putCode (s : Con) (c : UInt8) : Con :=
  let s := s.write (s.x + s.y * cgaNumCols) ⟨c, s.charColor⟩
  { s with x := s.x + 1 }

/-- The default branch of `print_char`. -/
def printCode (s : Con) (c : UInt8) : Con :=
  putCode (if s.x ≥ cgaNumCols then printNewLine s else s) c

/-- `print_tab`: four times `print_char` of a space. -/
def printTab (s : Con) : Con := (List.range 4).foldl (fun s _ => printCode s 0x20) s

/-- The control characters are carried out, the others shown. -/
def printChar (s : Con) (c : UInt8) : Con :=
  if c = 0x09 then printTab s
  else if c = 0x0D then { s with x := 0 }
  else if c = 0x0A then printNewLine s
  else if c = 0x08 ∨ c = 0x7F then printDel s
  else printCode s c

/-- `print_string` on the characters from `str` on, up to the first NUL. -/
def printString (s : Con) (str : List UInt8) : Con :=
  (str.takeWhile (· ≠ 0)).foldl printChar s

/-! ### `console.c` -/

/-- The cursor of the hardware goes to the position. -/
def moveCursor (s : Con) : Con := { s with hwCursor := (s.y, s.x) }

/-- A new line. -/
def conLn (s : Con) : Con := moveCursor (printChar (printChar s 0x0D) 0x0A)

/-- A tab. -/
def conTab (s : Con) : Con := moveCursor (printChar s 0x09)

/-- One character. -/
def conChar (s : Con) (code : UInt8) : Con := moveCursor (printChar s code)

/-- A string. -/
def conString (s : Con) (str : List UInt8) : Con := moveCursor (printString s str)

/-- A new position. -/
def conXy (s : Con) (cx cy : ℕ) : Con :=
  let s := printSetxy s cx cy
  { s with hwCursor := (s.y, s.x) }

/-- A clear screen. -/
def conClear (s : Con) : Con := moveCursor (printClear s)

/-- The console at the start: a clear screen and the colours. -/
def setCon (s : Con) : Con :=
  moveCursor (printColor (printClear s) printColorYellow printColorBlack)

/-! ### What the loops write -/

namespace Con

/-- `s'` comes from `s` by writes to indices below `n`, which leave the screen `buf`. -/
def Wrote (n : ℕ) (s s' : Con) (buf : ℕ → CgaChar) : Prop :=
  ∃ ws, (∀ i ∈ ws, i < n) ∧ s' = { s with cgaBuffer := buf, writes := ws ++ s.writes }

variable {n i : ℕ} {s s' s'' : Con} {buf buf' : ℕ → CgaChar}

lemma Wrote.nil (n : ℕ) (s : Con) : Wrote n s s s.cgaBuffer := ⟨[], by simp, rfl⟩

lemma Wrote.screen (h : Wrote n s s' buf) : s'.cgaBuffer = buf := by
  obtain ⟨ws, -, rfl⟩ := h
  rfl

lemma Wrote.empty (h : Wrote n s s' buf) : s'.empty = s.empty := by
  obtain ⟨ws, -, rfl⟩ := h
  rfl

lemma Wrote.trans (h : Wrote n s s' buf) (h' : Wrote n s' s'' buf') : Wrote n s s'' buf' := by
  obtain ⟨ws, hws, rfl⟩ := h
  obtain ⟨ws', hws', rfl⟩ := h'
  refine ⟨ws' ++ ws, fun i hi => ?_, by simp only [List.append_assoc]⟩
  rcases List.mem_append.1 hi with hi | hi
  · exact hws' i hi
  · exact hws i hi

lemma Wrote.write (h : Wrote n s s' buf) (hi : i < n) (c : CgaChar) :
    Wrote n s (s'.write i c) (Function.update buf i c) := by
  obtain ⟨ws, hws, rfl⟩ := h
  refine ⟨i :: ws, fun j hj => ?_, rfl⟩
  rcases List.mem_cons.1 hj with rfl | hj
  · exact hi
  · exact hws j hj

lemma Wrote.congr (h : Wrote n s s' buf) (hbuf : ∀ b, buf b = buf' b) : Wrote n s s' buf' := by
  rwa [funext hbuf] at h

end Con

/-- A loop that fills `k` cells from index `a` on. -/
lemma foldl_fill {n a k : ℕ} (s : Con) (c : CgaChar) (h : a + k ≤ n) :
    Con.Wrote n s ((List.range k).foldl (fun s i => s.write (i + a) c) s)
      fun b => if a ≤ b ∧ b < a + k then c else s.cgaBuffer b := by
  induction k with
  | zero => exact (Con.Wrote.nil n s).congr fun b => by rw [if_neg (by omega)]
  | succ k ih =>
    rw [List.range_succ, List.foldl_append, List.foldl_cons, List.foldl_nil]
    refine ((ih (by omega)).write (show k + a < n by omega) c).congr fun b => ?_
    simp only [Function.update_apply]
    split_ifs <;> first | rfl | omega

lemma clearRow_wrote (s : Con) {row : ℕ} (hrow : row < 25) :
    Con.Wrote 2000 s (clearRow s row)
      fun b => if row * 80 ≤ b ∧ b < row * 80 + 80 then s.empty else s.cgaBuffer b :=
  foldl_fill s s.empty (show row * 80 + 80 ≤ 2000 by omega)

/-- Each cell of a row takes the place of the cell above it. -/
lemma copyRow_wrote (s : Con) {row : ℕ} (hrow : row + 1 < 25) :
    Con.Wrote 2000 s (copyRow s (row + 1))
      fun b => if row * 80 ≤ b ∧ b < row * 80 + 80 then s.cgaBuffer (b + 80)
        else s.cgaBuffer b := by
  suffices h : ∀ k ≤ 80, Con.Wrote 2000 s ((List.range k).foldl (fun s col =>
      s.write (col + (row + 1 - 1) * cgaNumCols) (s.cgaBuffer (col + (row + 1) * cgaNumCols))) s)
      fun b => if row * 80 ≤ b ∧ b < row * 80 + k then s.cgaBuffer (b + 80)
        else s.cgaBuffer b from h 80 (Nat.le_refl 80)
  intro k hk
  induction k with
  | zero => exact (Con.Wrote.nil 2000 s).congr fun b => by rw [if_neg (by omega)]
  | succ k ih =>
    have hprev := ih (by omega)
    rw [List.range_succ, List.foldl_append, List.foldl_cons, List.foldl_nil, hprev.screen]
    refine (hprev.write (show k + (row + 1 - 1) * cgaNumCols < 2000 by
      rw [cgaNumCols]; omega) _).congr fun b => ?_
    have hsrc : k + (row + 1) * cgaNumCols = k + row * 80 + 80 := by
      rw [cgaNumCols]
      omega
    rw [hsrc, Nat.add_sub_cancel, Function.update_apply]
    show (if b = k + row * 80 then _ else _) = _
    split_ifs with h1 h2 <;> try first | rfl | omega
    rw [h1]
    exact if_neg (by omega)

/-- The scroll moves the rows below the first one up. -/
lemma foldl_copyRow_wrote (s : Con) {k : ℕ} (hk : k < 25) :
    Con.Wrote 2000 s ((List.range' 1 k).foldl copyRow s)
      fun b => if b < k * 80 then s.cgaBuffer (b + 80) else s.cgaBuffer b := by
  induction k with
  | zero => exact (Con.Wrote.nil 2000 s).congr fun b => by rw [if_neg (by omega)]
  | succ k ih =>
    have hprev := ih (by omega)
    rw [List.range'_concat, List.foldl_append, List.foldl_cons, List.foldl_nil, Nat.one_mul,
      Nat.add_comm 1 k]
    refine (hprev.trans (copyRow_wrote _ hk)).congr fun b => ?_
    simp only [hprev.screen]
    split_ifs <;> first | rfl | omega

/-- A screen that is cleared row by row. -/
lemma foldl_clearRow_wrote (s : Con) {k : ℕ} (hk : k ≤ 25) :
    Con.Wrote 2000 s ((List.range k).foldl clearRow s)
      fun b => if b < k * 80 then s.empty else s.cgaBuffer b := by
  induction k with
  | zero => exact (Con.Wrote.nil 2000 s).congr fun b => by rw [if_neg (by omega)]
  | succ k ih =>
    have hprev := ih (by omega)
    rw [List.range_succ, List.foldl_append, List.foldl_cons, List.foldl_nil]
    refine (hprev.trans (clearRow_wrote _ hk)).congr fun b => ?_
    simp only [hprev.screen, hprev.empty]
    split_ifs <;> first | rfl | omega

lemma printClear_wrote (s : Con) :
    Con.Wrote 2000 { s with x := 0, y := 0 } (printClear s)
      fun b => if b < 2000 then s.empty else s.cgaBuffer b :=
  foldl_clearRow_wrote { s with x := 0, y := 0 } (Nat.le_refl 25)

lemma printNewLine_free {s : Con} (hy : s.y < 24) :
    printNewLine s = { s with x := 0, y := s.y + 1 } := if_pos hy

/-- In the last row a new line scrolls the screen and clears the last row. -/
lemma printNewLine_scroll {s : Con} (hy : ¬ s.y < 24) :
    Con.Wrote 2000 { s with x := 0 } (printNewLine s)
      fun b => if b < 1920 then s.cgaBuffer (b + 80) else if b < 2000 then s.empty
        else s.cgaBuffer b := by
  have hscroll := foldl_copyRow_wrote { s with x := 0 } (show 24 < 25 by decide)
  rw [show printNewLine s = clearRow ((List.range' 1 24).foldl copyRow { s with x := 0 }) 24 from
    if_neg hy]
  refine (hscroll.trans (clearRow_wrote _ (by decide))).congr fun b => ?_
  simp only [hscroll.screen, hscroll.empty]
  split_ifs <;> first | rfl | omega

/-! ### Memory safety -/

/-- The cursor is on the screen or behind a full line, and so far every write hit the screen. -/
structure Safe (s : Con) : Prop where
  col : s.x ≤ 80
  row : s.y ≤ 24
  writes : ∀ i ∈ s.writes, i < 2000

namespace Safe

variable {s s' : Con} {buf : ℕ → CgaChar}

lemma wrote (h : Safe s) (hw : Con.Wrote 2000 s s' buf) : Safe s' := by
  obtain ⟨ws, hws, rfl⟩ := hw
  refine ⟨h.col, h.row, fun i hi => ?_⟩
  rcases List.mem_append.1 hi with hi | hi
  · exact hws i hi
  · exact h.writes i hi

/-- The cursor may be put anywhere within its bounds. -/
lemma seek (h : Safe s) {x y : ℕ} (hx : x ≤ 80) (hy : y ≤ 24) : Safe { s with x := x, y := y } :=
  ⟨hx, hy, h.writes⟩

lemma write (h : Safe s) (hx : s.x < 80) (c : CgaChar) : Safe (s.write (s.x + s.y * 80) c) := by
  have hy := h.row
  exact h.wrote ((Con.Wrote.nil 2000 s).write (by omega) c)

lemma printClear (h : Safe s) : Safe (printClear s) :=
  (h.seek (Nat.zero_le 80) (Nat.zero_le 24)).wrote (printClear_wrote s)

lemma printNewLine (h : Safe s) : Safe (printNewLine s) ∧ (Console.printNewLine s).x = 0 := by
  by_cases hy : s.y < 24
  · rw [printNewLine_free hy]
    exact ⟨h.seek (Nat.zero_le 80) hy, rfl⟩
  · have hw := printNewLine_scroll hy
    refine ⟨(h.seek (Nat.zero_le 80) h.row).wrote hw, ?_⟩
    obtain ⟨ws, -, heq⟩ := hw
    rw [heq]

lemma putCode (h : Safe s) (hx : s.x < 80) (c : UInt8) : Safe (putCode s c) :=
  (h.write hx ⟨c, s.charColor⟩).seek hx h.row

lemma printCode (h : Safe s) (c : UInt8) : Safe (printCode s c) := by
  rw [Console.printCode]
  split
  · have hline := h.printNewLine
    exact hline.1.putCode (by rw [hline.2]; decide) c
  · next hx => exact h.putCode (Nat.not_le.1 hx) c

lemma printTab (h : Safe s) : Safe (printTab s) :=
  (((h.printCode 0x20).printCode 0x20).printCode 0x20).printCode 0x20

/-- The cursor goes back by one cell before it is written, also from behind a full line. -/
lemma printDel (h : Safe s) : Safe (printDel s) := by
  have hcol := h.col
  have hrow := h.row
  rw [Console.printDel]
  split
  · exact h
  · split
    · exact (h.seek (x := s.x - 1) (by omega) hrow).write (show s.x - 1 < 80 by omega) _
    · split
      · exact (h.seek (show 79 ≤ 80 by decide) (show s.y - 1 ≤ 24 by omega)).write
          (show 79 < 80 by decide) _
      · omega

lemma printChar (h : Safe s) (c : UInt8) : Safe (printChar s c) := by
  rw [Console.printChar]
  split_ifs
  · exact h.printTab
  · exact h.seek (Nat.zero_le 80) h.row
  · exact h.printNewLine.1
  · exact h.printDel
  · exact h.printCode c

lemma foldl_printChar (h : Safe s) (str : List UInt8) : Safe (str.foldl Console.printChar s) := by
  induction str generalizing s with
  | nil => exact h
  | cons c str ih => exact ih (h.printChar c)

lemma printSetxy (h : Safe s) (cx cy : ℕ) : Safe (printSetxy s cx cy) := by
  rw [Console.printSetxy]
  split
  · exact h
  · next hin =>
    rw [cgaNumCols, cgaNumRows] at hin
    exact h.seek (by omega) (by omega)

/-- The colour and the hardware cursor do not matter. -/
lemma recolor (h : Safe s) (c : UInt8) (p : ℕ × ℕ) :
    Safe { s with charColor := c, hwCursor := p } :=
  ⟨h.col, h.row, h.writes⟩

end Safe

/-- The operations of the console. -/
inductive ConOp
  | printSetxy (cx cy : ℕ)
  | printClear
  | printColor (foreColor backColor : UInt8)
  | printChar (c : UInt8)
  | printString (str : List UInt8)
  | conLn
  | conTab
  | conChar (code : UInt8)
  | conString (str : List UInt8)
  | conXy (cx cy : ℕ)
  | conClear
  | setCon

/-- What an operation does. -/
def conStep (s : Con) : ConOp → Con
  | .printSetxy cx cy => printSetxy s cx cy
  | .printClear => printClear s
  | .printColor foreColor backColor => printColor s foreColor backColor
  | .printChar c => printChar s c
  | .printString str => printString s str
  | .conLn => conLn s
  | .conTab => conTab s
  | .conChar code => conChar s code
  | .conString str => conString s str
  | .conXy cx cy => conXy s cx cy
  | .conClear => conClear s
  | .setCon => setCon s

lemma Safe.step {s : Con} (h : Safe s) (op : ConOp) : Safe (conStep s op) := by
  have hmove : ∀ {s : Con}, Safe s → Safe (moveCursor s) := fun {s} h =>
    h.recolor s.charColor (s.y, s.x)
  cases op with
  | printSetxy cx cy => exact h.printSetxy cx cy
  | printClear => exact h.printClear
  | printColor foreColor backColor => exact h.recolor _ s.hwCursor
  | printChar c => exact h.printChar c
  | printString str => exact h.foldl_printChar _
  | conLn => exact hmove ((h.printChar 0x0D).printChar 0x0A)
  | conTab => exact hmove (h.printChar 0x09)
  | conChar code => exact hmove (h.printChar code)
  | conString str => exact hmove (h.foldl_printChar _)
  | conXy cx cy => exact hmove (h.printSetxy cx cy)
  | conClear => exact hmove h.printClear
  | setCon =>
    have hclear := h.printClear
    exact hmove (hclear.recolor (cgaColor printColorYellow printColorBlack) _)

/-- **Memory safety of the console.**  From the start of the kernel, for every sequence of
operations. -/
theorem conRun_safe (screen : ℕ → CgaChar) (ops : List ConOp) :
    Safe (run conStep { cgaBuffer := screen } ops) := by
  have hstart : Safe { cgaBuffer := screen } := by
    constructor <;> simp
  exact @run_invariant _ _ conStep Safe (fun _ op h => h.step op) _ hstart ops

end EvtDrivenOs.Console
