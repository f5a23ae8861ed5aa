/-
Memory as a function from addresses to cells.

`store m a l` writes the cells of the list `l` from address `a` on, `load m a n`
reads `n` cells from there.  The lemmas say when a load sees a store: it reads
back what was stored at its own range, and what was there before at a range that
the store does not meet.
-/
import Mathlib.Data.List.GetD
import Mathlib.Tactic.Common

namespace EvtDrivenOs.Lib

variable {α : Type*}

/-- The memory after the cells of `l` are written from address `a` on. -/
def store (m : ℕ → α) (a : ℕ) (l : List α) : ℕ → α :=
  fun b => if a ≤ b then l.getD (b - a) (m b) else m b

/-- The `n` cells from address `a` on. -/
def load (m : ℕ → α) (a n : ℕ) : List α := (List.range n).map fun i => m (a + i)

@[simp] lemma length_load (m : ℕ → α) (a n : ℕ) : (load m a n).length = n := by
  simp [load]

lemma load_add (m : ℕ → α) (a k n : ℕ) : load m a (k + n) = load m a k ++ load m (a + k) n := by
  simp [load, List.range_add, List.map_append, Function.comp_def, Nat.add_assoc]

/-- Loads of memories that agree on the range are equal. -/
lemma load_congr {m m' : ℕ → α} {a n : ℕ} (h : ∀ b, a ≤ b → b < a + n → m b = m' b) :
    load m a n = load m' a n := by
  apply List.map_congr_left
  intro i hi
  have := List.mem_range.1 hi
  exact h _ (by omega) (by omega)

/-- A cell outside the written range is as before. -/
lemma store_of_notMem {m : ℕ → α} {a b : ℕ} {l : List α} (h : b < a ∨ a + l.length ≤ b) :
    store m a l b = m b := by
  unfold store
  split
  · exact List.getD_eq_default _ _ (by omega)
  · rfl

@[simp] lemma store_nil (m : ℕ → α) (a : ℕ) : store m a [] = m := by
  funext b
  exact store_of_notMem (by simp; omega)

/-- What was stored is loaded. -/
@[simp] lemma load_store (m : ℕ → α) (a : ℕ) (l : List α) :
    load (store m a l) a l.length = l := by
  apply List.ext_getElem
  · simp
  · intro i hi hi'
    simp [load, store, hi']

/-- A load of cells that were not written sees the memory before the store. -/
lemma load_store_of_disjoint {m : ℕ → α} {a b n : ℕ} {l : List α}
    (h : b + n ≤ a ∨ a + l.length ≤ b) : load (store m a l) b n = load m b n :=
  load_congr fun c hc hc' => store_of_notMem (by omega)

/-- Two stores, the second right after the first, are one. -/
lemma load_store_store (m : ℕ → α) (a : ℕ) (l l' : List α) :
    load (store (store m a l) (a + l.length) l') a (l.length + l'.length) = l ++ l' := by
  rw [load_add, load_store_of_disjoint (Or.inl (Nat.le_refl _)), load_store, load_store]

/-- A load within a range that was filled with one cell. -/
lemma load_store_replicate {m : ℕ → α} {a b n k : ℕ} (x : α) (hab : a ≤ b)
    (hbn : b + k ≤ a + n) : load (store m a (List.replicate n x)) b k = List.replicate k x := by
  refine List.eq_replicate_iff.2 ⟨length_load _ _ _, fun c hc => ?_⟩
  obtain ⟨i, hi, rfl⟩ := List.mem_map.1 hc
  have hik := List.mem_range.1 hi
  rw [store, if_pos (by omega), List.getD_eq_getElem _ _ (by rw [List.length_replicate]; omega),
    List.getElem_replicate]

/-- A chunk of size `c` ends where the next one begins or before it. -/
lemma chunk_le {c i j : ℕ} (base : ℕ) (h : i < j) : base + c * i + c ≤ base + c * j := by
  have hsucc : c * (i + 1) ≤ c * j := Nat.mul_le_mul_left c h
  rw [Nat.mul_succ] at hsucc
  omega

/-- Two chunks of a partition into chunks of size `c` do not meet. -/
lemma chunk_disjoint {c i j : ℕ} (base : ℕ) (h : i ≠ j) :
    base + c * i + c ≤ base + c * j ∨ base + c * j + c ≤ base + c * i := by
  rcases Nat.lt_or_gt_of_ne h with hlt | hgt
  · exact Or.inl (chunk_le base hlt)
  · exact Or.inr (chunk_le base hgt)

/-- Each place of the area is in one of the chunks. -/
lemma exists_chunk {c n base a : ℕ} (h : base ≤ a) (h' : a < base + c * n) :
    ∃ i < n, base + c * i ≤ a ∧ a < base + c * i + c := by
  have hc : 0 < c := Nat.pos_of_ne_zero fun hc => by
    rw [hc, Nat.zero_mul] at h'
    omega
  -- the chunk is found by division
  have hdiv := Nat.div_add_mod (a - base) c
  have hmod := Nat.mod_lt (a - base) hc
  refine ⟨(a - base) / c, ?_, by omega, by omega⟩
  rw [Nat.div_lt_iff_lt_mul hc, Nat.mul_comm]
  omega

end EvtDrivenOs.Lib
