/-
Histories of a store of cells.

A store is a function from cell numbers to cells.  Whoever uses it sees a history: writes that
were reported done, writes that were not, and reads with what they returned.  `known` is what
such a history tells about a cell: what the last write has put there, and nothing once a write
has failed on it.  A store that obeys its accesses one after the other serves its user well:
every read returns what the history before it tells.
-/
import EvtDrivenOs.Lib.Cells

namespace EvtDrivenOs.Lib

variable {β : Type*}

/-- An access to a store, as its user sees it. -/
inductive Access (β : Type*) where
  /-- The cells `l` were written from `a` on. -/
  | wrote (a : ℕ) (l : List β)
  /-- A write to `n` cells from `a` on was not reported done. -/
  | lost (a n : ℕ)
  /-- A read from `a` on returned `l`. -/
  | read (a : ℕ) (l : List β)

namespace Access

/-- What the access does to the store. -/
inductive Obeys : (ℕ → β) → Access β → (ℕ → β) → Prop
  | wrote (d : ℕ → β) (a : ℕ) (l : List β) : Obeys d (.wrote a l) (store d a l)
  /-- The cells of a write that failed may contain anything. -/
  | lost {d d' : ℕ → β} {a n : ℕ} (h : ∀ b, b < a ∨ a + n ≤ b → d' b = d b) :
      Obeys d (.lost a n) d'
  | read (d : ℕ → β) (a n : ℕ) : Obeys d (.read a (load d a n)) d

/-- The accesses of `es` are obeyed one after the other. -/
inductive ObeysAll : (ℕ → β) → List (Access β) → (ℕ → β) → Prop
  | nil (d : ℕ → β) : ObeysAll d [] d
  | cons {d d' d'' : ℕ → β} {e : Access β} {es : List (Access β)} :
      Obeys d e d' → ObeysAll d' es d'' → ObeysAll d (e :: es) d''

/-- What an access tells about the cells. -/
def note (k : ℕ → Option β) : Access β → ℕ → Option β
  | .wrote a l => store k a (l.map some)
  | .lost a n => store k a (List.replicate n none)
  | .read _ _ => k

/-- What the accesses of `es` tell about the cells of a store that contains `d` at first. -/
def known (d : ℕ → β) (es : List (Access β)) : ℕ → Option β := es.foldl note fun a => some (d a)

/-- Every read returns what the accesses before it tell. -/
def Serves (d : ℕ → β) (es : List (Access β)) : Prop :=
  ∀ pre a l post, es = pre ++ .read a l :: post →
    ∀ i v, known d pre (a + i) = some v → ∀ w, l[i]? = some w → w = v

/-! ### Runs -/

lemma ObeysAll.append {d d' d'' : ℕ → β} {es es' : List (Access β)} (h : ObeysAll d es d')
    (h' : ObeysAll d' es' d'') : ObeysAll d (es ++ es') d'' := by
  induction h with
  | nil => exact h'
  | cons he _ ih => exact .cons he (ih h')

lemma ObeysAll.of_append {d d'' : ℕ → β} {es es' : List (Access β)}
    (h : ObeysAll d (es ++ es') d'') : ∃ d', ObeysAll d es d' ∧ ObeysAll d' es' d'' := by
  induction es generalizing d with
  | nil => exact ⟨d, .nil d, h⟩
  | cons e es ih =>
    cases h with
    | cons he hes =>
      obtain ⟨d', hd, hd'⟩ := ih hes
      exact ⟨d', .cons he hd, hd'⟩

/-! ### What a history tells -/

/-- What is known of the cells is so. -/
def Holds (k : ℕ → Option β) (d : ℕ → β) : Prop := ∀ a v, k a = some v → d a = v

lemma store_map_some (k : ℕ → Option β) (d : ℕ → β) (a : ℕ) (l : List β) {b : ℕ} (hb : a ≤ b)
    (hb' : b < a + l.length) : store k a (l.map some) b = some (store d a l b) := by
  have hlt : b - a < l.length := by omega
  simp only [store, if_pos hb]
  rw [List.getD_eq_getElem _ _ (by rwa [List.length_map]), List.getElem_map,
    List.getD_eq_getElem _ _ hlt]

lemma Obeys.holds {d d' : ℕ → β} {e : Access β} (h : Obeys d e d') {k : ℕ → Option β}
    (hk : Holds k d) : Holds (note k e) d' := by
  intro b v hv
  cases h with
  | wrote a l =>
    by_cases hb : a ≤ b ∧ b < a + l.length
    · rw [note, store_map_some k d a l hb.1 hb.2] at hv
      exact Option.some.inj hv
    · have hout : b < a ∨ a + l.length ≤ b := by omega
      rw [note, store_of_notMem (by rwa [List.length_map])] at hv
      rw [store_of_notMem hout]
      exact hk b v hv
  | @lost _ a n hout =>
    by_cases hb : a ≤ b ∧ b < a + n
    · have hlt : b - a < (List.replicate n (none : Option β)).length := by
        rw [List.length_replicate]
        omega
      rw [note, store, if_pos hb.1, List.getD_eq_getElem _ _ hlt, List.getElem_replicate] at hv
      cases hv
    · rw [note, store_of_notMem (by rw [List.length_replicate]; omega)] at hv
      rw [hout b (by omega)]
      exact hk b v hv
  | read a n => exact hk b v hv

lemma ObeysAll.holds {d d' : ℕ → β} {es : List (Access β)} (h : ObeysAll d es d')
    {k : ℕ → Option β} (hk : Holds k d) : Holds (es.foldl note k) d' := by
  induction h generalizing k with
  | nil => exact hk
  | cons he _ ih => exact ih (he.holds hk)

/-- **A store that obeys serves.**  Every read returns what was last written to its cells. -/
theorem ObeysAll.serves {d d' : ℕ → β} {es : List (Access β)} (h : ObeysAll d es d') :
    Serves d es := by
  rintro pre a l post rfl i v hv w hw
  obtain ⟨d₁, hpre, hrest⟩ := h.of_append
  have hholds : Holds (known d pre) d₁ := hpre.holds fun b v hb => Option.some.inj hb
  cases hrest with
  | cons hread _ =>
    cases hread with
    | read _ n =>
      have hi : i < n := by
        have := (List.getElem?_eq_some_iff.1 hw).1
        rwa [length_load] at this
      have hget : (load d₁ a n)[i]? = some (d₁ (a + i)) := by
        simp [load, List.getElem?_range hi]
      rw [hget] at hw
      exact (Option.some.inj hw).symm.trans (hholds _ _ hv)

end Access

end EvtDrivenOs.Lib
