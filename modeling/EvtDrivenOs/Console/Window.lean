/-
The text console is a window on an unbounded terminal.

The abstract console is a terminal of 80 columns that never scrolls.  The screen
memory together with the cursor shows its last 25 rows: `Shows` is the relation, each
operation of `print.c` keeps it, and so does every sequence of printed characters.
-/
import EvtDrivenOs.Console.Print
import EvtDrivenOs.Lib.Terminal

namespace EvtDrivenOs.Console

open EvtDrivenOs.Lib

/-- The cell in a row and a column of the screen. -/
def screen (s : Con) (r c : ℕ) : CgaChar := s.cgaBuffer (c + r * 80)

/-- What a character does to the terminal: a tab is four spaces. -/
def termChar (color : UInt8) (t : Term CgaChar) (c : UInt8) : Term CgaChar :=
  if c = 0x09 then (List.range 4).foldl (fun t _ => t.put 80 ⟨0x20, color⟩) t
  else if c = 0x0D then t.carriageReturn
  else if c = 0x0A then t.newLine
  else t.put 80 ⟨c, color⟩

/-- The console shows the terminal, and prints in the colour of its blank cells. -/
structure Shows (color : UInt8) (s : Con) (t : Term CgaChar) : Prop where
  window : Window 25 80 s.x s.y (screen s) t
  fresh : t.Fresh ⟨0, color⟩
  color_eq : s.charColor = color
  col : s.x ≤ 80

namespace Shows

variable {color : UInt8} {s : Con} {t : Term CgaChar}

lemma row (h : Shows color s t) : s.y ≤ 24 := by
  have := h.window.row
  simp only [Term.scrolls] at this
  omega

lemma printClear (s : Con) :
    Shows s.charColor (printClear s) (Term.start ⟨0, s.charColor⟩) := by
  obtain ⟨ws, -, heq⟩ := printClear_wrote s
  rw [heq]
  refine ⟨Window.start fun r hr c hc => ?_, Term.fresh_start, rfl, Nat.zero_le 80⟩
  exact if_pos (by omega)

lemma carriageReturn (h : Shows color s t) : Shows color { s with x := 0 } t.carriageReturn :=
  ⟨h.window.carriageReturn, h.fresh.carriageReturn, h.color_eq, Nat.zero_le 80⟩

lemma printNewLine (h : Shows color s t) :
    Shows color (printNewLine s) t.newLine ∧ (Console.printNewLine s).x = 0 := by
  by_cases hy : s.y < 24
  · rw [printNewLine_free hy]
    exact ⟨⟨h.window.newLine_free (by omega), h.fresh.newLine, h.color_eq, Nat.zero_le 80⟩, rfl⟩
  · have hrow := h.row
    obtain ⟨ws, -, heq⟩ := printNewLine_scroll hy
    rw [heq]
    refine ⟨⟨?_, h.fresh.newLine, h.color_eq, Nat.zero_le 80⟩, rfl⟩
    refine h.window.newLine_scroll h.fresh (by omega) (fun r hr c hc => ?_) fun c hc => ?_
    · simp only [screen]
      rw [if_pos (by omega), show c + (r + 1) * 80 = c + r * 80 + 80 by omega]
    · simp only [screen]
      rw [if_neg (by omega), if_pos (by omega), Con.empty, h.color_eq]

lemma putCode (h : Shows color s t) (hx : s.x < 80) (c : UInt8) :
    Shows color (putCode s c) (t.write ⟨c, color⟩) := by
  refine ⟨h.window.write ?_ fun r hr k hk hne => ?_, h.fresh.write _, h.color_eq, hx⟩
  · show Function.update s.cgaBuffer (s.x + s.y * 80) _ (s.x + s.y * 80) = _
    rw [Function.update_self, h.color_eq]
  · have hrow := h.row
    show Function.update s.cgaBuffer (s.x + s.y * 80) _ (k + r * 80) = _
    rw [Function.update_of_ne (by omega)]
    rfl

lemma printCode (h : Shows color s t) (c : UInt8) :
    Shows color (printCode s c) (t.put 80 ⟨c, color⟩) := by
  have hcol := h.window.col
  rw [Console.printCode, Term.put, ← hcol]
  by_cases hx : 80 ≤ s.x
  · have hline := h.printNewLine
    rw [if_pos (show s.x ≥ cgaNumCols from hx), if_pos hx]
    exact hline.1.putCode (by rw [hline.2]; decide) c
  · rw [if_neg (show ¬ s.x ≥ cgaNumCols from hx), if_neg hx]
    exact h.putCode (Nat.not_le.1 hx) c

lemma printTab (h : Shows color s t) : Shows color (printTab s) (termChar color t 0x09) :=
  (((h.printCode 0x20).printCode 0x20).printCode 0x20).printCode 0x20

lemma printChar (h : Shows color s t) {c : UInt8} (hb : c ≠ 0x08) (hdel : c ≠ 0x7F) :
    Shows color (printChar s c) (termChar color t c) := by
  by_cases htab : c = 0x09
  · rw [htab]
    exact h.printTab
  rw [Console.printChar, termChar, if_neg htab, if_neg htab]
  split_ifs with hcr hnl hbd
  · exact h.carriageReturn
  · exact h.printNewLine.1
  · exact absurd hbd (not_or.2 ⟨hb, hdel⟩)
  · exact h.printCode c

end Shows

/-- **The console is a window on an unbounded terminal.**  After `print_clear`, for every
sequence of characters but backspace and DEL, the screen and the cursor show the last 25
rows of the terminal, whose rows below the cursor are blank. -/
theorem printRun_shows (s : Con) (cs : List UInt8) (hcs : ∀ c ∈ cs, c ≠ 0x08 ∧ c ≠ 0x7F) :
    Shows s.charColor (run printChar (printClear s) cs)
      (run (termChar s.charColor) (Term.start ⟨0, s.charColor⟩) cs) := by
  suffices h : ∀ {s' : Con} {t : Term CgaChar}, Shows s.charColor s' t →
      Shows s.charColor (run printChar s' cs) (run (termChar s.charColor) t cs) from
    h (Shows.printClear s)
  induction cs with
  | nil => exact fun h => h
  | cons c cs ih =>
    intro s' t h
    have hc := hcs c List.mem_cons_self
    exact ih (fun c' hc' => hcs c' (List.mem_cons_of_mem _ hc')) (h.printChar hc.1 hc.2)

/-- The console at the start of the kernel. -/
def conBoot : Con := { cgaBuffer := fun _ => ⟨0, 0⟩ }

/-- The letter `A`, a tab, a new line and the letter `B`. -/
theorem printRun_shows_lines :
    Shows 15 (run printChar (printClear conBoot) [0x41, 0x09, 0x0A, 0x42])
      (run (termChar 15) (Term.start ⟨0, 15⟩) [0x41, 0x09, 0x0A, 0x42]) :=
  printRun_shows conBoot [0x41, 0x09, 0x0A, 0x42] (by simp)

end EvtDrivenOs.Console
