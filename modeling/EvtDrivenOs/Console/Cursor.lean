/-
The hardware cursor of the text console, `text_hwcursor.asm`.

The console leaves the cursor in column 80 when a line is full and goes to the next line
only with the next character.  The position for column 80 is that of the first cell of the
next row, which is right for all rows but the last: behind that there is no cell, and the
next character scrolls the screen.
-/
import EvtDrivenOs.Console.Print
import EvtDrivenOs.Lib.X64

namespace EvtDrivenOs.Console

open EvtDrivenOs.Lib EvtDrivenOs.Lib.X64

/-! ### The registers of the VGA -/

/-- The number of columns. -/
def vgaTextColumns : BitVec 64 := 80

/-- The port of the register that is selected. -/
def vgaRegDataPort : BitVec 16 := 0x3D5

/-- The port that selects a register. -/
def vgaRegAddressPort : BitVec 16 := 0x3D4

/-- The register with the upper byte of the position. -/
def vgaCursorDataHiReg : BitVec 64 := 0x0E

/-- The register with the lower byte of it. -/
def vgaCursorDataLowReg : BitVec 64 := 0x0F

/-- `rdi` has the register; `rdx` gets the port of its data. -/
def selectVgaReg (s : Machine) : Option Machine :=
  let s := { s with rax := 0 }
  let s := s.setAl (s.rdi.setWidth 8)
  let s := s.setDx vgaRegAddressPort
  let s := s.outAl
  let s := s.setDx vgaRegDataPort
  some s.inAl

/-- `xchg ah, al` -/
def xchgAhAl (s : Machine) : Machine :=
  { s with rax := setLow16 s.rax (s.rax.setWidth 8 ++ (s.rax >>> 8).setWidth 8) }

/-- `_arch_set_cursor_pos`; `rdi` has the row and `rsi` the column. -/
def archSetCursorPos (s : Machine) : Option Machine := do
  let s := { s with rdi := s.rdi * vgaTextColumns }
  let s := { s with rdi := s.rdi + s.rsi }
  let s := { s with rcx := s.rdi }
  let s := { s with rdi := vgaCursorDataHiReg }
  let s ← s.call 1 selectVgaReg
  let s := { s with rax := s.rcx }
  let s := xchgAhAl s
  let s := s.outAl
  let s := { s with rdi := vgaCursorDataLowReg }
  let s ← s.call 2 selectVgaReg
  let s := { s with rax := s.rcx }
  some s.outAl

/-- The register that is selected, and the values of all of them. -/
structure Vga where
  address : BitVec 8
  regs : BitVec 8 → BitVec 8

namespace Vga

/-- What the VGA does with a byte written to its ports. -/
def after (v : Vga) : Io → Vga
  | .out port value =>
    if port = vgaRegAddressPort then { v with address := value }
    else if port = vgaRegDataPort then { v with regs := Function.update v.regs v.address value }
    else v
  | _ => v

/-- The cell of the cursor. -/
def cursorPos (v : Vga) : BitVec 16 :=
  v.regs (vgaCursorDataHiReg.setWidth 8) ++ v.regs (vgaCursorDataLowReg.setWidth 8)

end Vga

/-- The position that `_arch_set_cursor_pos(row, col)` programs. -/
def programmedPos (m : Machine) (v : Vga) (row col : ℕ) : Option (BitVec 16) :=
  (archSetCursorPos { m with
    rdi := BitVec.ofNat 64 row
    rsi := BitVec.ofNat 64 col
    log := [] }).map fun t => (t.log.foldl Vga.after v).cursorPos

lemma call_selectVgaReg (s : Machine) (ra : BitVec 64) :
    s.call ra selectVgaReg = some { s with
      rax := setLow8 0 ((s.inp vgaRegDataPort).head.setWidth 8)
      rdx := setLow16 s.rdx vgaRegDataPort
      inp := Function.update s.inp vgaRegDataPort (s.inp vgaRegDataPort).tail
      log := s.log ++ [.out vgaRegAddressPort (s.rdi.setWidth 8)] } := by
  simp [Machine.call, callOn, selectVgaReg]

/-- The bytes that `_arch_set_cursor_pos` writes, where `pos` is the position. -/
def posWrites (pos : BitVec 64) : List Io :=
  [.out vgaRegAddressPort (vgaCursorDataHiReg.setWidth 8),
    .out vgaRegDataPort ((pos >>> 8).setWidth 8),
    .out vgaRegAddressPort (vgaCursorDataLowReg.setWidth 8),
    .out vgaRegDataPort (pos.setWidth 8)]

lemma low8_xchg (r : BitVec 64) (lo hi : BitVec 8) :
    (setLow16 r (lo ++ hi)).setWidth 8 = hi := by
  apply BitVec.eq_of_getLsbD_eq
  intro i hi'
  simp only [setLow16, BitVec.getLsbD_setWidth, BitVec.getLsbD_append]
  simp [hi', show i < 16 by omega]

lemma log_archSetCursorPos (s : Machine) :
    (archSetCursorPos s).map Machine.log =
      some (s.log ++ posWrites (s.rdi * vgaTextColumns + s.rsi)) := by
  simp [archSetCursorPos, call_selectVgaReg, xchgAhAl, posWrites, low8_xchg]

lemma append_bytes (pos : BitVec 64) :
    (pos >>> 8).setWidth 8 ++ pos.setWidth 8 = pos.setWidth 16 := by
  apply BitVec.eq_of_getLsbD_eq
  intro i hi
  simp only [BitVec.getLsbD_append, BitVec.getLsbD_setWidth, BitVec.getLsbD_ushiftRight]
  by_cases h : i < 8
  · simp [h, hi]
  · simp [h, hi, show i - 8 < 8 by omega, show 8 + (i - 8) = i by omega]

lemma cursorPos_posWrites (v : Vga) (pos : BitVec 64) :
    ((posWrites pos).foldl Vga.after v).cursorPos = pos.setWidth 16 := by
  have hports : vgaRegDataPort ≠ vgaRegAddressPort := by decide
  have hregs : vgaCursorDataHiReg.setWidth 8 ≠ vgaCursorDataLowReg.setWidth 8 := by decide
  simp only [posWrites, List.foldl_cons, List.foldl_nil, Vga.after, if_neg hports, if_true,
    Vga.cursorPos, Function.update_self, Function.update_of_ne hregs]
  exact append_bytes pos

/-- The position is that of the cell, modulo the width of the two registers. -/
lemma programmedPos_eq (m : Machine) (v : Vga) (row col : ℕ) :
    programmedPos m v row col = some (BitVec.ofNat 16 (row * 80 + col)) := by
  have hlog := log_archSetCursorPos
    { m with rdi := BitVec.ofNat 64 row, rsi := BitVec.ofNat 64 col, log := [] }
  obtain ⟨t, ht, hlog⟩ := Option.map_eq_some_iff.1 hlog
  rw [programmedPos, ht, Option.map_some, hlog, List.nil_append, cursorPos_posWrites]
  refine congrArg some (BitVec.eq_of_toNat_eq ?_)
  simp [vgaTextColumns, BitVec.toNat_add, BitVec.toNat_mul]

/-! ### The next character -/

/-- The characters that `print_char` writes to the screen as they are. -/
def Printable (c : UInt8) : Prop := c ≠ 0x09 ∧ c ≠ 0x0D ∧ c ≠ 0x0A ∧ c ≠ 0x08 ∧ c ≠ 0x7F

instance : DecidablePred Printable := fun _ => inferInstanceAs (Decidable (_ ∧ _))

/-- The position that was programmed last is a cell of the screen, and the one that the next
printable character is written to. -/
def CursorMarks (s : Con) : Prop :=
  ∃ pos : BitVec 16, (∀ m v, programmedPos m v s.hwCursor.1 s.hwCursor.2 = some pos) ∧
    pos.toNat < 2000 ∧ ∀ c, Printable c → (conChar s c).writes.head? = some pos.toNat

/-- The operations that program the cursor. -/
inductive CursorOp
  | conChar (code : UInt8)
  | conString (str : List UInt8)
  | conLn
  | conTab
  | conXy (cx cy : ℕ)
  | conClear
deriving DecidableEq, Repr

/-- As an operation of the console. -/
def CursorOp.toConOp : CursorOp → ConOp
  | .conChar code => .conChar code
  | .conString str => .conString str
  | .conLn => .conLn
  | .conTab => .conTab
  | .conXy cx cy => .conXy cx cy
  | .conClear => .conClear

/-- What an operation does. -/
def cursorStep (s : Con) (op : CursorOp) : Con := conStep s op.toConOp

/-- The character fills the last row to its end. -/
def Fills (s : Con) (c : UInt8) : Prop :=
  s.y = 24 ∧ (s.x = 79 ∧ Printable c ∨ s.x = 76 ∧ c = 0x09)

/-- The last character of the operation does. -/
def FillsLastRow (s : Con) : CursorOp → Prop
  | .conChar code => Fills s code
  | .conTab => Fills s 0x09
  | .conString str =>
    ∃ init c, str.takeWhile (· ≠ 0) = init ++ [c] ∧ Fills (init.foldl printChar s) c
  | .conLn => False
  | .conXy _ _ => False
  | .conClear => False

/-- The cursor is behind the last row. -/
def BehindLast (s : Con) : Prop := s.x = 80 ∧ s.y = 24

/-- The last position programmed is that of the cursor. -/
structure Programmed (s : Con) : Prop where
  safe : Safe s
  hw : s.hwCursor = (s.y, s.x)

variable {s : Con}

lemma printChar_printable {c : UInt8} (hc : Printable c) (s : Con) :
    printChar s c = printCode s c := by
  obtain ⟨h1, h2, h3, h4, h5⟩ := hc
  rw [printChar, if_neg h1, if_neg h2, if_neg h3, if_neg (not_or.2 ⟨h4, h5⟩)]

/-- The cursor after a new line. -/
lemma printNewLine_cursor (s : Con) :
    (printNewLine s).x = 0 ∧ (printNewLine s).y = if s.y < 24 then s.y + 1 else s.y := by
  by_cases hy : s.y < 24
  · rw [printNewLine_free hy, if_pos hy]
    exact ⟨rfl, rfl⟩
  · obtain ⟨ws, -, heq⟩ := printNewLine_scroll hy
    rw [heq, if_neg hy]
    exact ⟨rfl, rfl⟩

/-- In a row that is not full a character goes to the cell of the cursor. -/
lemma printCode_free (hx : s.x < 80) (c : UInt8) :
    ((printCode s c).x = s.x + 1 ∧ (printCode s c).y = s.y) ∧
      (printCode s c).writes.head? = some (s.x + s.y * 80) := by
  rw [printCode, if_neg (show ¬ s.x ≥ cgaNumCols from not_le.2 hx)]
  exact ⟨⟨rfl, rfl⟩, rfl⟩

/-- Behind a full row it goes to the first cell of the next row, or of the last one. -/
lemma printCode_full (hx : ¬ s.x < 80) (c : UInt8) :
    (printCode s c).x = 1 ∧
      (printCode s c).writes.head? = some ((if s.y < 24 then s.y + 1 else s.y) * 80) := by
  obtain ⟨hx0, hy⟩ := printNewLine_cursor s
  rw [printCode, if_pos (show s.x ≥ cgaNumCols from not_lt.1 hx), ← hy]
  refine ⟨congrArg (· + 1) hx0, congrArg some ?_⟩
  rw [hx0, Nat.zero_add]
  rfl

/-- The position marks the next character unless the cursor is behind the last row. -/
lemma cursorMarks_iff (h : Programmed s) : CursorMarks s ↔ ¬ BehindLast s := by
  obtain ⟨⟨hcol, hrow, -⟩, hw⟩ := h
  have hpos : (BitVec.ofNat 16 (s.y * 80 + s.x)).toNat = s.y * 80 + s.x := by
    rw [BitVec.toNat_ofNat]
    omega
  rw [CursorMarks, hw]
  constructor
  · rintro ⟨pos, heq, hlt, -⟩ ⟨hx, hy⟩
    have hsome := heq
      ⟨0, 0, 0, 0, 0, 0, 0, 0, 0, false, [], fun _ => 0, fun _ => Stream'.const 0, []⟩
      ⟨0, fun _ => 0⟩
    rw [programmedPos_eq] at hsome
    rw [← Option.some.inj hsome, hpos, hx, hy] at hlt
    omega
  · intro hb
    have hlt : s.y * 80 + s.x < 2000 := by
      by_contra hge
      exact hb ⟨by omega, by omega⟩
    refine ⟨_, fun m v => programmedPos_eq m v _ _, hpos.symm ▸ hlt, fun c hc => ?_⟩
    rw [hpos, conChar, printChar_printable hc]
    by_cases hx : s.x < 80
    · exact (printCode_free hx c).2.trans (congrArg some (by omega))
    · -- the cursor is in column 80, and there is a next row
      refine (printCode_full hx c).2.trans (congrArg some ?_)
      rw [if_pos (by omega)]
      omega

lemma hwCursor_moveCursor (s : Con) :
    (moveCursor s).hwCursor = ((moveCursor s).y, (moveCursor s).x) := rfl

lemma behindLast_moveCursor : BehindLast (moveCursor s) ↔ BehindLast s := Iff.rfl

lemma behindLast_printColor (foreColor backColor : UInt8) :
    BehindLast (printColor s foreColor backColor) ↔ BehindLast s := Iff.rfl

lemma Programmed.step (h : Programmed s) (op : CursorOp) : Programmed (cursorStep s op) := by
  refine ⟨h.safe.step op.toConOp, ?_⟩
  cases op with
  | conChar code => exact hwCursor_moveCursor _
  | conString str => exact hwCursor_moveCursor _
  | conLn => exact hwCursor_moveCursor _
  | conTab => exact hwCursor_moveCursor _
  | conXy cx cy => exact hwCursor_moveCursor _
  | conClear => exact hwCursor_moveCursor _

lemma not_behindLast_printClear (s : Con) : ¬ BehindLast (printClear s) := by
  obtain ⟨ws, -, heq⟩ := printClear_wrote s
  rw [heq]
  rintro ⟨hx, -⟩
  exact absurd hx (show 0 ≠ 80 by decide)

/-- `set_con` puts the cursor into the first cell. -/
lemma programmed_setCon (h : Safe s) : Programmed (setCon s) ∧ ¬ BehindLast (setCon s) := by
  refine ⟨⟨h.step .setCon, ?_⟩, ?_⟩
  · rw [setCon]
    exact hwCursor_moveCursor _
  · rw [setCon, behindLast_moveCursor, behindLast_printColor]
    exact not_behindLast_printClear s

/-- The place in the last row that a character leaves the cursor in. -/
lemma printCode_at {k : ℕ} (hk : 0 < k) (hk' : k < 80) (s : Con) (c : UInt8) :
    (printCode s c).x = k + 1 ∧ (printCode s c).y = 24 ↔ s.x = k ∧ s.y = 24 := by
  by_cases hx : s.x < 80
  · obtain ⟨⟨hx', hy⟩, -⟩ := printCode_free hx c
    rw [hx', hy, Nat.add_right_cancel_iff]
  · rw [(printCode_full hx c).1]
    exact iff_of_false (by omega) (by omega)

lemma behindLast_printTab (s : Con) : BehindLast (printTab s) ↔ s.x = 76 ∧ s.y = 24 := by
  have htab : BehindLast (printTab s) ↔
      BehindLast (printCode (printCode (printCode (printCode s 0x20) 0x20) 0x20) 0x20) := Iff.rfl
  rw [htab, BehindLast, printCode_at (by decide) (by decide), printCode_at (by decide) (by decide),
    printCode_at (by decide) (by decide), printCode_at (by decide) (by decide)]

lemma printDel_col (hx : s.x ≤ 80) : (printDel s).x < 80 := by
  rw [printDel]
  split
  · omega
  · split
    · show s.x - 1 < 80
      omega
    · split
      · show 79 < 80
        omega
      · show s.x < 80
        omega

/-- A character leaves the cursor behind the last row if and only if it fills that row. -/
lemma behindLast_printChar (hx : s.x ≤ 80) (c : UInt8) :
    BehindLast (printChar s c) ↔ Fills s c := by
  by_cases htab : c = 0x09
  · subst htab
    have hc : ¬ Printable 0x09 := fun hc => hc.1 rfl
    rw [printChar, if_pos rfl, behindLast_printTab, Fills, and_comm]
    simp only [hc, and_false, false_or, and_true]
  by_cases hc : Printable c
  · rw [printChar_printable hc, BehindLast, printCode_at (by decide) (by decide), Fills,
      and_comm]
    simp only [hc, htab, and_true, and_false, or_false]
  · have hcol : (printChar s c).x < 80 := by
      rw [printChar, if_neg htab]
      split_ifs with hcr hnl hdel
      · exact Nat.zero_lt_succ 79
      · rw [(printNewLine_cursor s).1]
        exact Nat.zero_lt_succ 79
      · exact printDel_col hx
      · exact absurd ⟨htab, hcr, hnl, not_or.1 hdel⟩ hc
    refine iff_of_false (fun hb => ?_) ?_
    · exact absurd hb.1 (Nat.ne_of_lt hcol)
    · rintro ⟨-, ⟨-, hc'⟩ | ⟨-, hc'⟩⟩
      · exact hc hc'
      · exact htab hc'

lemma printChar_newLine (s : Con) : printChar s 0x0A = printNewLine s := by
  rw [printChar, if_neg (by decide), if_neg (by decide), if_pos rfl]

lemma conXy_eq (s : Con) (cx cy : ℕ) : conXy s cx cy = moveCursor (printSetxy s cx cy) := rfl

/-- A position on the screen is where the cursor goes. -/
lemma conXy_cursor (s : Con) {cx cy : ℕ} (hx : cx < 80) (hy : cy < 25) :
    (cursorStep s (.conXy cx cy)).x = cx ∧ (cursorStep s (.conXy cx cy)).y = cy := by
  have hin : ¬ (cgaNumCols ≤ cx ∨ cgaNumRows ≤ cy) := not_or.2 ⟨not_le.2 hx, not_le.2 hy⟩
  rw [cursorStep, CursorOp.toConOp, conStep, conXy_eq, printSetxy, if_neg hin]
  exact ⟨rfl, rfl⟩

lemma behindLast_step_iff (h : Programmed s) (hb : ¬ BehindLast s) (op : CursorOp) :
    BehindLast (cursorStep s op) ↔ FillsLastRow s op := by
  cases op with
  | conChar code =>
    rw [cursorStep, CursorOp.toConOp, conStep, conChar, behindLast_moveCursor]
    exact behindLast_printChar h.safe.col code
  | conTab =>
    rw [cursorStep, CursorOp.toConOp, conStep, conTab, behindLast_moveCursor]
    exact behindLast_printChar h.safe.col 0x09
  | conLn =>
    rw [cursorStep, CursorOp.toConOp, conStep, conLn, behindLast_moveCursor, printChar_newLine]
    refine iff_of_false (fun hb' => ?_) id
    exact absurd ((printNewLine_cursor _).1.symm.trans hb'.1) (by decide)
  | conXy cx cy =>
    rw [cursorStep, CursorOp.toConOp, conStep, conXy_eq, behindLast_moveCursor, printSetxy]
    refine iff_of_false (fun hb' => ?_) id
    split at hb'
    · exact hb hb' -- the position is not on the screen, and the cursor stays
    · next hin =>
      have hcx : cx = 80 := hb'.1
      exact hin (.inl (le_of_eq hcx.symm))
  | conClear =>
    rw [cursorStep, CursorOp.toConOp, conStep, conClear, behindLast_moveCursor]
    exact iff_of_false (not_behindLast_printClear s) id
  | conString str =>
    rw [cursorStep, CursorOp.toConOp, conStep, conString, behindLast_moveCursor, printString,
      FillsLastRow]
    rcases List.eq_nil_or_concat (str.takeWhile (· ≠ 0)) with hnil | ⟨init, c, hlast⟩
    · rw [hnil]
      exact iff_of_false hb (by simp)
    · rw [hlast, List.concat_eq_append, List.foldl_append, List.foldl_cons, List.foldl_nil,
        behindLast_printChar (h.safe.foldl_printChar init).col]
      constructor
      · exact fun hf => ⟨init, c, rfl, hf⟩
      · rintro ⟨init', c', heq, hf⟩
        obtain ⟨rfl, hc⟩ := List.append_inj' heq rfl
        cases hc
        exact hf

/-- **The hardware cursor marks the next character** all along a sequence of operations after
`set_con` if and only if none of them fills the last row to its end. -/
theorem cursorRun_marks_iff (screen : ℕ → CgaChar) (before : List ConOp) (ops : List CursorOp) :
    let start := setCon (run conStep { cgaBuffer := screen } before)
    (∀ pre, pre <+: ops → CursorMarks (run cursorStep start pre)) ↔
      Admissible cursorStep (fun s op => ¬ FillsLastRow s op) start ops := by
  intro start
  obtain ⟨hstart, hclear⟩ := programmed_setCon (conRun_safe screen before)
  exact admissible_iff_forall_prefix (fun s op h => h.step op)
    (fun s op h hm => by
      rw [cursorMarks_iff (h.step op), behindLast_step_iff h ((cursorMarks_iff h).1 hm)])
    hstart ((cursorMarks_iff hstart).2 hclear)

/-- A character in the last cell of the screen leaves the cursor behind it. -/
lemma Programmed.corner (h : Programmed s) {c : UInt8} (hc : Printable c) :
    Programmed (run cursorStep s [.conXy 79 24, .conChar c]) ∧
      BehindLast (run cursorStep s [.conXy 79 24, .conChar c]) := by
  have hxy := h.step (.conXy 79 24)
  obtain ⟨hx, hy⟩ := conXy_cursor s (show 79 < 80 by decide) (show 24 < 25 by decide)
  exact ⟨hxy.step (.conChar c), (behindLast_printChar hxy.safe.col c).2 ⟨hy, .inl ⟨hx, hc⟩⟩⟩

/-- Behind the last cell the position is 2000, and the next character goes to cell 1920. -/
lemma Programmed.behind (h : Programmed s) (hb : BehindLast s) :
    (∀ m v, programmedPos m v s.hwCursor.1 s.hwCursor.2 = some 2000) ∧ ¬ CursorMarks s ∧
      ∀ c, Printable c → (conChar s c).writes.head? = some 1920 := by
  have hfull : ¬ s.x < 80 := by
    rw [hb.1]
    decide
  refine ⟨fun m v => ?_, fun hm => (cursorMarks_iff h).1 hm hb, fun c hc => ?_⟩
  · rw [programmedPos_eq, h.hw, hb.1, hb.2]
    rfl
  · rw [conChar, printChar_printable hc]
    refine (printCode_full hfull c).2.trans ?_
    rw [hb.2]
    rfl

/-- A character in the last cell of the screen leaves the cursor behind it, at position 2000,
while the next character goes to cell 1920. -/
theorem cursorRun_behind :
    let s := run cursorStep (setCon { cgaBuffer := fun _ => ⟨0, 0⟩ }) [.conXy 79 24, .conChar 0x41]
    (∀ m v, programmedPos m v s.hwCursor.1 s.hwCursor.2 = some 2000) ∧ ¬ CursorMarks s ∧
      (conChar s 0x42).writes.head? = some 1920 := by
  have hsafe : Safe { cgaBuffer := fun _ => ⟨0, 0⟩ } := conRun_safe (fun _ => ⟨0, 0⟩) []
  obtain ⟨hs, hb⟩ := (programmed_setCon hsafe).1.corner (show Printable 0x41 by decide)
  obtain ⟨hpos, hmarks, hnext⟩ := hs.behind hb
  exact ⟨hpos, hmarks, hnext 0x42 (by decide)⟩

end EvtDrivenOs.Console
