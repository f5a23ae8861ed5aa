/-
Deleting what has been typed.

Characters go from cell to cell in the order of the screen, also over the end of a line:
the lazy wrap puts the next character where the linear position says, and a scroll takes
80 from the position and moves the text by as much.  `print_del` goes back by one position,
so as many of them as there were characters lead back to the first one.
-/
import Mathlib.Data.List.TakeWhile
import EvtDrivenOs.Console.Cursor

namespace EvtDrivenOs.Console

open EvtDrivenOs.Lib

namespace Con

/-- The position of the cursor, in the order of the cells. -/
def pos (s : Con) : ℕ := s.x + s.y * 80

/-- The next printable character scrolls the screen. -/
def AtEnd (s : Con) : Prop := 80 ≤ s.x ∧ 24 ≤ s.y

instance (s : Con) : Decidable s.AtEnd := inferInstanceAs (Decidable (_ ∧ _))

end Con

/-- How often the screen scrolls while the printable characters `str` are printed. -/
def scrolls (s : Con) : List UInt8 → ℕ
  | [] => 0
  | c :: str => (if s.AtEnd then 1 else 0) + scrolls (printChar s c) str

lemma printString_eq {str : List UInt8} (hnul : 0 ∉ str) (s : Con) :
    printString s str = str.foldl printChar s := by
  rw [printString, List.takeWhile_eq_self_iff.mpr]
  intro c hc
  have hne : c ≠ 0 := fun h0 => hnul (h0 ▸ hc)
  simpa using hne

/-! ### Typing -/

/-- `t` is reached from `s` by printing the characters `str`, with `n` scrolls. -/
structure Typed (str : List UInt8) (n : ℕ) (s t : Con) : Prop where
  col : t.x ≤ 80
  row : t.y ≤ 24
  color : t.charColor = s.charColor
  pos : t.pos + 80 * n = s.pos + str.length
  /-- What was before the cursor has moved up. -/
  before : ∀ b, b + 80 * n < s.pos → t.cgaBuffer b = s.cgaBuffer (b + 80 * n)
  /-- The characters are where the cursor has gone. -/
  held : ∀ b i c, str[i]? = some c → b + 80 * n = s.pos + i → t.cgaBuffer b = ⟨c, s.charColor⟩

namespace Typed

variable {s t u : Con} {str str' : List UInt8} {n n' : ℕ}

lemma nil (hcol : s.x ≤ 80) (hrow : s.y ≤ 24) : Typed [] 0 s s :=
  ⟨hcol, hrow, rfl, rfl, fun b _ => rfl, fun b i c hc _ => by simp at hc⟩

/-- A character that is put where the cursor is. -/
lemma putCode (hcol : s.x < 80) (hrow : s.y ≤ 24) (c : UInt8) :
    Typed [c] 0 s (putCode s c) where
  col := hcol
  row := hrow
  color := rfl
  pos := by
    simp only [Con.pos, Console.putCode, Con.write, List.length_singleton]
    omega
  before b hb := by
    apply Function.update_of_ne
    simp only [Con.pos, cgaNumCols] at hb ⊢
    omega
  held b i c' hc hb := by
    obtain ⟨hi, rfl⟩ := List.getElem?_eq_some_iff.mp hc
    simp only [List.length_singleton, Nat.lt_one_iff] at hi
    subst hi
    obtain rfl : b = s.x + s.y * cgaNumCols := hb
    exact Function.update_self _ _ _

lemma trans (h : Typed str n s t) (h' : Typed str' n' t u) :
    Typed (str ++ str') (n + n') s u where
  col := h'.col
  row := h'.row
  color := h'.color.trans h.color
  pos := by
    have hpos := h.pos
    have hpos' := h'.pos
    rw [List.length_append]
    omega
  before b hb := by
    have hpos := h.pos
    rw [h'.before b (by omega), h.before (b + 80 * n') (by omega)]
    congr 1
    omega
  held b i c hc hb := by
    have hpos := h.pos
    rcases Nat.lt_or_ge i str.length with hi | hi
    · -- a character of the first part, moved up by the scrolls of the second
      rw [List.getElem?_append_left hi] at hc
      rw [h'.before b (by omega)]
      exact h.held (b + 80 * n') i c hc (by omega)
    · rw [List.getElem?_append_right hi] at hc
      rw [h'.held b (i - str.length) c hc (by omega), h.color]

/-- A new line behind a full one changes the position only if it scrolls. -/
lemma newLine (hcol : s.x = 80) (hrow : s.y ≤ 24) :
    Typed [] (if s.AtEnd then 1 else 0) s (printNewLine s) ∧ (printNewLine s).x = 0 := by
  by_cases hy : s.y < 24
  · have hend : ¬ s.AtEnd := fun h => absurd h.2 (by omega)
    rw [if_neg hend, printNewLine_free hy]
    refine ⟨⟨Nat.zero_le 80, hy, rfl, ?_, fun b _ => rfl, fun b i c hc _ => by simp at hc⟩, rfl⟩
    simp only [Con.pos, List.length_nil]
    omega
  · have hend : s.AtEnd := ⟨by omega, by omega⟩
    obtain ⟨ws, -, heq⟩ := printNewLine_scroll hy
    rw [if_pos hend, heq]
    refine ⟨⟨Nat.zero_le 80, hrow, rfl, ?_, fun b hb => ?_, fun b i c hc _ => by simp at hc⟩, rfl⟩
    · simp only [Con.pos, List.length_nil]
      omega
    · simp only [Con.pos] at hb
      exact if_pos (by omega)

lemma printCode (hcol : s.x ≤ 80) (hrow : s.y ≤ 24) (c : UInt8) :
    Typed [c] (if s.AtEnd then 1 else 0) s (printCode s c) := by
  rw [Console.printCode]
  by_cases hx : s.x < 80
  · have hend : ¬ s.AtEnd := fun h => absurd h.1 (by omega)
    rw [if_neg (show ¬ s.x ≥ cgaNumCols from Nat.not_le.mpr hx), if_neg hend]
    exact putCode hx hrow c
  · obtain ⟨hline, hzero⟩ := newLine (s := s) (by omega) hrow
    rw [if_pos (show s.x ≥ cgaNumCols from Nat.not_lt.mp hx)]
    exact hline.trans (putCode (by rw [hzero]; decide) hline.row c)

/-- Printing a string, whatever line ends it goes over. -/
lemma foldl (hcol : s.x ≤ 80) (hrow : s.y ≤ 24) (hstr : ∀ c ∈ str, Printable c) :
    Typed str (scrolls s str) s (str.foldl printChar s) := by
  induction str generalizing s with
  | nil => exact nil hcol hrow
  | cons c str ih =>
    have hc := hstr c List.mem_cons_self
    have hchar := printCode hcol hrow c
    rw [← printChar_printable hc] at hchar
    exact hchar.trans (ih hchar.col hchar.row fun c' hc' => hstr c' (List.mem_cons_of_mem c hc'))

end Typed

/-! ### Deleting -/

/-- `u` is reached from `t` by deleting `n` characters. -/
structure Deleted (n : ℕ) (t u : Con) : Prop where
  pos : u.pos + n = t.pos
  col : n = 0 ∧ u.x = t.x ∨ u.x < 80
  color : u.charColor = t.charColor
  cell : ∀ b, u.cgaBuffer b =
    if u.pos ≤ b ∧ b < t.pos then ⟨0, t.charColor⟩ else t.cgaBuffer b

namespace Deleted

variable {t u v : Con} {n m : ℕ}

lemma nil (t : Con) : Deleted 0 t t :=
  ⟨rfl, .inl ⟨rfl, rfl⟩, rfl, fun b => by rw [if_neg (by omega)]⟩

/-- `print_del` goes back by one position, also over the start of a line, and empties the
cell there. -/
lemma printDel (hcol : t.x ≤ 80) (hpos : 0 < t.pos) : Deleted 1 t (printDel t) := by
  simp only [Con.pos] at hpos
  have hstart : ¬ (t.x = 0 ∧ t.y = 0) := by omega
  -- where the cursor goes
  obtain ⟨x, y, hdel, hx, hxy⟩ : ∃ x y, Console.printDel t =
      ({ t with x := x, y := y } : Con).write (x + y * cgaNumCols) t.empty ∧ x < 80 ∧
        x + y * 80 + 1 = t.x + t.y * 80 := by
    rw [Console.printDel, if_neg hstart]
    split_ifs with hx hy
    · exact ⟨t.x - 1, t.y, rfl, by omega, by omega⟩
    · exact ⟨79, t.y - 1, rfl, by decide, by omega⟩
    · omega
  rw [hdel]
  refine ⟨hxy, .inr hx, rfl, fun b => ?_⟩
  have htpos : t.pos = t.x + t.y * 80 := rfl
  have hupos : (({ t with x := x, y := y } : Con).write (x + y * cgaNumCols) t.empty).pos =
    x + y * 80 := rfl
  rw [hupos, htpos]
  by_cases hb : b = x + y * 80
  · rw [if_pos (by omega), hb]
    exact Function.update_self _ _ _
  · rw [if_neg (by omega)]
    exact Function.update_of_ne hb _ _

lemma trans (h : Deleted n t u) (h' : Deleted m u v) : Deleted (n + m) t v where
  pos := by
    have hpos := h.pos
    have hpos' := h'.pos
    omega
  col := by
    rcases h'.col with ⟨rfl, hx⟩ | hx
    · rw [hx]
      exact h.col
    · exact .inr hx
  color := h'.color.trans h.color
  cell b := by
    have hpos := h.pos
    have hpos' := h'.pos
    rw [h'.cell, h.cell, h.color]
    split_ifs <;> first | rfl | omega

lemma foldl {dels : List UInt8} (hcol : t.x ≤ 80) (hdels : ∀ c ∈ dels, c = 0x08 ∨ c = 0x7F)
    (hpos : dels.length ≤ t.pos) : Deleted dels.length t (dels.foldl printChar t) := by
  induction dels generalizing t with
  | nil => exact nil t
  | cons c dels ih =>
    rw [List.length_cons] at hpos
    have hc : printChar t c = Console.printDel t := by
      rcases hdels c List.mem_cons_self with rfl | rfl <;> rfl
    have hdel := printDel hcol (by omega)
    have hcol' : (Console.printDel t).x ≤ 80 := by
      rcases hdel.col with ⟨hone, -⟩ | hx
      · cases hone
      · exact Nat.le_of_lt hx
    have hpos' := hdel.pos
    have hrest := ih (t := Console.printDel t) hcol'
      (fun c' hc' => hdels c' (List.mem_cons_of_mem c hc')) (by omega)
    rw [List.foldl_cons, hc, List.length_cons, Nat.add_comm]
    exact hdel.trans hrest

end Deleted

/-! ### Deleting what was typed -/

/-- After `str` has been printed from `s` on, which has led to `t`, deleting it has led to `u`:
the cursor is where it was, but for the rows that were scrolled, the cells of the string are
empty, and no other one has changed. -/
structure Undone (str : List UInt8) (s t u : Con) : Prop where
  /-- The column is the one in front of the string. -/
  x : u.x = s.x
  /-- The row as well, but for the rows that the text went up. -/
  y : u.y = s.y - scrolls s str
  /-- The cells had the characters of the string. -/
  held : ∀ i c, str[i]? = some c → t.cgaBuffer (u.pos + i) = ⟨c, s.charColor⟩
  /-- They are empty now. -/
  blank : ∀ i < str.length, u.cgaBuffer (u.pos + i) = ⟨0, s.charColor⟩
  /-- All other cells are as the string has left them. -/
  frame : ∀ b, (∀ i < str.length, b ≠ u.pos + i) → u.cgaBuffer b = t.cgaBuffer b

/-- **Deleting undoes typing.**  From every place of the cursor, for every string of printable
characters that scrolls its start nowhere off the screen, and as many backspaces and DELs. -/
theorem printString_undone {s : Con} {str dels : List UInt8} (hx : s.x < 80) (hy : s.y < 25)
    (hstr : ∀ c ∈ str, Printable c) (hnul : 0 ∉ str) (hscrolls : scrolls s str ≤ s.y)
    (hdels : ∀ c ∈ dels, c = 0x08 ∨ c = 0x7F) (hlen : dels.length = str.length) :
    Undone str s (printString s str) (printString (printString s str) dels) := by
  have hdels0 : 0 ∉ dels := by
    intro h0
    rcases hdels 0 h0 with h | h <;> cases h
  rw [printString_eq hnul, printString_eq hdels0]
  have htyped := Typed.foldl (Nat.le_of_lt hx) (Nat.le_of_lt_succ hy) hstr
  set t := str.foldl printChar s
  have htpos := htyped.pos
  have hspos : s.pos = s.x + s.y * 80 := rfl
  have hdeleted := Deleted.foldl htyped.col hdels (by omega)
  set u := dels.foldl printChar t
  have hupos := hdeleted.pos
  have hupos' : u.pos = u.x + u.y * 80 := rfl
  have hcol : u.x < 80 := by
    rcases hdeleted.col with ⟨hzero, hcol⟩ | hcol
    · -- nothing was typed
      obtain rfl := List.eq_nil_of_length_eq_zero (hlen ▸ hzero)
      rw [hcol]
      exact hx
    · exact hcol
  refine ⟨by omega, by omega, fun i c hc => ?_, fun i hi => ?_, fun b hb => ?_⟩
  · exact htyped.held _ i c hc (by omega)
  · rw [hdeleted.cell, if_pos (by omega), htyped.color]
  · rw [hdeleted.cell, if_neg]
    rintro ⟨hle, hlt⟩
    exact hb (b - u.pos) (by omega) (by omega)

/-- The last cell of the screen. -/
def lastCell : Con := { x := 79, y := 24, cgaBuffer := fun _ => ⟨0, 15⟩ }

/-- Two letters from there on, the second of which scrolls the screen. -/
theorem printString_undone_scrolled :
    Undone [0x41, 0x42] lastCell (printString lastCell [0x41, 0x42])
      (printString (printString lastCell [0x41, 0x42]) [0x08, 0x7F]) := by
  have hstr : ∀ c ∈ [(0x41 : UInt8), 0x42], Printable c :=
    List.forall_mem_cons.mpr ⟨by decide, List.forall_mem_singleton.mpr (by decide)⟩
  have hdels : ∀ c ∈ [(0x08 : UInt8), 0x7F], c = 0x08 ∨ c = 0x7F :=
    List.forall_mem_cons.mpr ⟨.inl rfl, List.forall_mem_singleton.mpr (.inr rfl)⟩
  exact printString_undone (by decide) (by decide) hstr (by decide) (by decide) hdels rfl

end EvtDrivenOs.Console
