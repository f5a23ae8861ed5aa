/-
Tables of `n` slots that are free or in use.

A table is a function from the slots to optional entries.  `occupied` counts the
slots in use; the lemmas follow this count when a free slot is taken or a slot
is freed, and find the first free slot of a table that is not full.
-/
import Mathlib.Data.Finset.Max
import Mathlib.Data.Fintype.Card
import Mathlib.Data.Fintype.Fin

namespace EvtDrivenOs.Lib

variable {n : ℕ} {α : Type*}

/-- The slots in use. -/
def usedSlots (t : Fin n → Option α) : Finset (Fin n) := Finset.univ.filter fun i => (t i).isSome

/-- The number of slots in use. -/
def occupied (t : Fin n → Option α) : ℕ := (usedSlots t).card

@[simp] lemma mem_usedSlots {t : Fin n → Option α} {i : Fin n} :
    i ∈ usedSlots t ↔ t i ≠ none := by
  simp [usedSlots, Option.isSome_iff_ne_none]

lemma occupied_empty : occupied (fun _ : Fin n => (none : Option α)) = 0 := by
  simp [occupied, usedSlots]

lemma occupied_le (t : Fin n → Option α) : occupied t ≤ n :=
  (Finset.card_le_univ _).trans_eq (Fintype.card_fin n)

lemma usedSlots_take (t : Fin n → Option α) (i : Fin n) (a : α) :
    usedSlots (Function.update t i (some a)) = insert i (usedSlots t) := by
  ext j
  rcases eq_or_ne j i with rfl | hj
  · simp
  · simp [hj]

lemma usedSlots_free (t : Fin n → Option α) (i : Fin n) :
    usedSlots (Function.update t i none) = (usedSlots t).erase i := by
  ext j
  rcases eq_or_ne j i with rfl | hj
  · simp
  · simp [hj]

/-- A free slot is taken. -/
lemma occupied_take {t : Fin n → Option α} {i : Fin n} (h : t i = none) (a : α) :
    occupied (Function.update t i (some a)) = occupied t + 1 := by
  rw [occupied, usedSlots_take, Finset.card_insert_of_notMem (by simp [h]), occupied]

/-- A slot in use is freed. -/
lemma occupied_free {t : Fin n → Option α} {i : Fin n} (h : t i ≠ none) :
    occupied (Function.update t i none) + 1 = occupied t := by
  rw [occupied, usedSlots_free, Finset.card_erase_add_one (by simpa using h), occupied]

/-- Slot `i` is the first free one. -/
def FirstFree (t : Fin n → Option α) (i : Fin n) : Prop := t i = none ∧ ∀ j < i, t j ≠ none

/-- A table that is not full has a first free slot. -/
lemma exists_firstFree {t : Fin n → Option α} (h : occupied t < n) : ∃ i, FirstFree t i := by
  have hne : (usedSlots t)ᶜ.Nonempty := by
    rw [← Finset.card_pos, Finset.card_compl, Fintype.card_fin]
    exact Nat.sub_pos_of_lt h
  refine ⟨(usedSlots t)ᶜ.min' hne, ?_, fun j hj => ?_⟩
  · simpa using Finset.min'_mem _ hne
  · have := mt (Finset.min'_le _ j) (not_le.2 hj)
    simpa using this

end EvtDrivenOs.Lib
