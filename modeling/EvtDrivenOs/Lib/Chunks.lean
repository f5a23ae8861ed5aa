/-
Reading a list in chunks of `n`, up to a limit.

A reader that asks for `min n left` cells at a time, where `left` is what a limit
leaves it, reads the chunks of the list cut off at the limit; the last one may be
short, and all later ones are empty.  Filled up to the full length and put
together again, the chunks are the list with its padding.
-/
import Mathlib.Tactic.Common
import Mathlib.Tactic.Ring

namespace EvtDrivenOs.Lib

variable {α : Type*} {n j : ℕ} {x : α} {l : List α}

/-- The `j`-th chunk. -/
def chunk (n : ℕ) (l : List α) (j : ℕ) : List α := (l.drop (n * j)).take n

/-- A chunk filled up to the full length with `x`. -/
def padded (n : ℕ) (x : α) (l : List α) : List α := l ++ List.replicate (n - l.length) x

/-- The number of cells in the first `j` chunks. -/
def consumed (n : ℕ) (l : List α) (j : ℕ) : ℕ := min (n * j) l.length

@[simp] lemma consumed_zero (n : ℕ) (l : List α) : consumed n l 0 = 0 := by simp [consumed]

lemma length_chunk (n : ℕ) (l : List α) (j : ℕ) :
    (chunk n l j).length = min n (l.length - n * j) := by
  simp [chunk]

lemma length_chunk_le (n : ℕ) (l : List α) (j : ℕ) : (chunk n l j).length ≤ n := by
  rw [length_chunk]
  exact min_le_left _ _

@[simp] lemma padded_nil (n : ℕ) (x : α) : padded n x [] = List.replicate n x := rfl

lemma consumed_succ (n : ℕ) (l : List α) (j : ℕ) :
    consumed n l (j + 1) = consumed n l j + (chunk n l j).length := by
  simp only [consumed, length_chunk, Nat.mul_succ]
  omega

/-- Past the end the chunks are empty. -/
lemma chunk_eq_nil (h : l.length ≤ n * j) : chunk n l j = [] := by
  rw [chunk, List.drop_eq_nil_of_le h, List.take_nil]

/-- What a reader gets that has read the first `j` chunks up to the limit `size`. -/
lemma take_drop_consumed (n : ℕ) (l : List α) (j size : ℕ) :
    (l.drop (consumed n (l.take size) j)).take (min n (size - consumed n (l.take size) j)) =
      chunk n (l.take size) j := by
  have hdrop : (l.take size).drop (consumed n (l.take size) j) = (l.take size).drop (n * j) :=
    List.drop_eq_drop_min.symm
  rw [chunk, ← hdrop, List.drop_take, List.take_take]

/-- And what is left after this read. -/
lemma drop_drop_consumed (n : ℕ) (l : List α) (j size : ℕ) :
    (l.drop (consumed n (l.take size) j)).drop (min n (size - consumed n (l.take size) j)) =
      l.drop (consumed n (l.take size) (j + 1)) := by
  rw [consumed_succ, ← List.drop_drop, ← take_drop_consumed n l j size, List.length_take,
    ← List.drop_eq_drop_min]

/-- The padded chunks put together. -/
lemma flatten_padded (n : ℕ) (x : α) (l : List α) (k : ℕ) :
    ((List.range k).map fun j => padded n x (chunk n l j)).flatten =
      l.take (n * k) ++ List.replicate (n * k - l.length) x := by
  induction k with
  | zero => simp
  | succ k ih =>
    have hlen := length_chunk n l k
    rw [List.range_succ, List.map_append, List.flatten_append, ih, List.map_singleton,
      List.flatten_singleton, padded, Nat.mul_succ]
    rcases le_total (n * k) l.length with hle | hle
    · -- the next chunk is not empty, and the padding so far is
      have htake : l.take (n * k + n) = l.take (n * k) ++ chunk n l k := List.take_add
      rw [Nat.sub_eq_zero_of_le hle, List.replicate_zero, List.append_nil, htake, List.append_assoc,
        show n - (chunk n l k).length = n * k + n - l.length by omega]
    · rw [chunk_eq_nil hle, List.nil_append, List.take_of_length_le hle,
        List.take_of_length_le (by omega), List.append_assoc, List.replicate_append_replicate,
        List.length_nil, show n * k - l.length + (n - 0) = n * k + n - l.length by omega]

end EvtDrivenOs.Lib
