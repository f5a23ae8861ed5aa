/-
A terminal of unbounded height, and a screen that shows its last rows.

The terminal has `W` columns, wraps lazily (a full line is left only when the next
character is put) and never scrolls.  `Window` says that a screen of `H` rows with
a cursor of its own shows the last `H` rows of a terminal; the lemmas say which
change of the screen answers each change of the terminal.
-/
import Mathlib.Logic.Function.Basic
import Mathlib.Tactic.Common

namespace EvtDrivenOs.Lib

variable {β : Type*}

/-- A terminal: the cursor, and the cells by row and column. -/
structure Term (β : Type*) where
  x : ℕ
  y : ℕ
  cell : ℕ → ℕ → β

namespace Term

/-- An empty terminal with the cursor in the first cell. -/
def start (blank : β) : Term β := ⟨0, 0, fun _ _ => blank⟩

/-- The cursor goes to the start of the next row. -/
def newLine (t : Term β) : Term β := { t with x := 0, y := t.y + 1 }

/-- The cursor goes to the start of its row. -/
def carriageReturn (t : Term β) : Term β := { t with x := 0 }

/-- A cell is written where the cursor is. -/
def write (t : Term β) (b : β) : Term β :=
  { x := t.x + 1
    y := t.y
    cell := Function.update t.cell t.y (Function.update (t.cell t.y) t.x b) }

/-- A character is put: behind a full line, on the next one. -/
def put (W : ℕ) (t : Term β) (b : β) : Term β :=
  if W ≤ t.x then t.newLine.write b else t.write b

/-- The rows below the cursor were never written. -/
def Fresh (blank : β) (t : Term β) : Prop := ∀ r, t.y < r → ∀ c, t.cell r c = blank

variable {blank : β} {t : Term β}

lemma fresh_start : Fresh blank (start blank) := fun _ _ _ => rfl

lemma Fresh.newLine (h : Fresh blank t) : Fresh blank t.newLine :=
  fun r hr c => h r (Nat.lt_of_succ_lt hr) c

lemma Fresh.carriageReturn (h : Fresh blank t) : Fresh blank t.carriageReturn := h

lemma Fresh.write (h : Fresh blank t) (b : β) : Fresh blank (t.write b) := by
  intro r hr c
  show Function.update t.cell t.y _ r c = blank
  have hne : r ≠ t.y := Nat.ne_of_gt hr
  rw [Function.update_of_ne hne]
  exact h r hr c

/-- How many rows are above a screen of `H` rows that shows the cursor's row. -/
def scrolls (H : ℕ) (t : Term β) : ℕ := t.y - (H - 1)

end Term

/-- A screen with its cursor at `(x, y)` shows the last `H` rows of the terminal. -/
structure Window (H W x y : ℕ) (screen : ℕ → ℕ → β) (t : Term β) : Prop where
  col : x = t.x
  row : y + t.scrolls H = t.y
  cell : ∀ r < H, ∀ c < W, screen r c = t.cell (r + t.scrolls H) c

namespace Window

variable {H W x y : ℕ} {screen screen' : ℕ → ℕ → β} {t : Term β} {blank : β}

lemma start (hblank : ∀ r < H, ∀ c < W, screen r c = blank) :
    Window H W 0 0 screen (Term.start blank) :=
  ⟨rfl, by simp [Term.scrolls, Term.start], hblank⟩

lemma carriageReturn (h : Window H W x y screen t) : Window H W 0 y screen t.carriageReturn :=
  ⟨rfl, h.row, h.cell⟩

/-- A new line above the last row of the screen. -/
lemma newLine_free (h : Window H W x y screen t) (hy : y + 1 < H) :
    Window H W 0 (y + 1) screen t.newLine := by
  have hrow := h.row
  simp only [Term.scrolls] at hrow
  have hs : t.newLine.scrolls H = t.scrolls H := by
    simp only [Term.scrolls, Term.newLine]
    omega
  refine ⟨rfl, ?_, fun r hr c hc => ?_⟩
  · rw [hs]
    simp only [Term.scrolls, Term.newLine]
    omega
  · rw [hs]
    exact h.cell r hr c hc

/-- A new line in the last row: the rows move up by one, and the last one is blank. -/
lemma newLine_scroll (h : Window H W x y screen t) (hfresh : t.Fresh blank) (hy : y + 1 = H)
    (hup : ∀ r, r + 1 < H → ∀ c < W, screen' r c = screen (r + 1) c)
    (hlast : ∀ c < W, screen' y c = blank) : Window H W 0 y screen' t.newLine := by
  have hrow := h.row
  simp only [Term.scrolls] at hrow
  have hs : t.newLine.scrolls H = t.scrolls H + 1 := by
    simp only [Term.scrolls, Term.newLine]
    omega
  refine ⟨rfl, ?_, fun r hr c hc => ?_⟩
  · rw [hs]
    simp only [Term.scrolls, Term.newLine]
    omega
  · rw [hs]
    rcases Nat.lt_or_ge (r + 1) H with hr' | hr'
    · rw [hup r hr' c hc, h.cell (r + 1) hr' c hc, Nat.add_right_comm, Nat.add_assoc]
      rfl
    · -- the row that has just come into view
      obtain rfl : r = y := by omega
      rw [hlast c hc]
      refine (hfresh _ ?_ c).symm
      simp only [Term.scrolls]
      omega

/-- A cell written within the line. -/
lemma write (h : Window H W x y screen t) {b : β}
    (hthere : screen' y x = b)
    (helse : ∀ r < H, ∀ c < W, (r ≠ y ∨ c ≠ x) → screen' r c = screen r c) :
    Window H W (x + 1) y screen' (t.write b) := by
  have hrow := h.row
  have hcol := h.col
  have hs : (t.write b).scrolls H = t.scrolls H := rfl
  refine ⟨by rw [hcol]; rfl, hrow, fun r hr c hc => ?_⟩
  rw [hs]
  show _ = Function.update t.cell t.y (Function.update (t.cell t.y) t.x b) (r + t.scrolls H) c
  by_cases hry : r = y
  · rw [hry, hrow, Function.update_self]
    by_cases hcx : c = x
    · rw [hcx, hthere, hcol, Function.update_self]
    · rw [helse y (hry ▸ hr) c hc (Or.inr hcx), Function.update_of_ne (by rwa [← hcol]),
        h.cell y (hry ▸ hr) c hc, hrow]
  · rw [helse r hr c hc (Or.inl hry), Function.update_of_ne (by omega)]
    exact h.cell r hr c hc

end Window

end EvtDrivenOs.Lib
