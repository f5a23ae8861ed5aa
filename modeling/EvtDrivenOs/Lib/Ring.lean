/-
Index arithmetic of a ring of `N` slots.

Items are numbered by arrival; item `i` is kept in slot `i % N`.  A reader at
item `r` and a writer at item `n` with `r ≤ n < r + N` are represented by their
slots alone, and this file says what can be read off the two slots: how many
items lie between them, and whether the ring is empty or full.  Last come the
items that share a slot: `newest N r n` is the one that was written last.  A ring of pointers
is a function that leads from each slot to the next one.
-/
import Mathlib.Data.Nat.ModEq
import Mathlib.Dynamics.PeriodicPts.Defs
import Mathlib.Tactic.Common

namespace EvtDrivenOs.Lib

variable {N i j n r : ℕ}

/-- The slot after slot `i`, as code computes it: increment, then compare with `N`. -/
def ringNext (N i : ℕ) : ℕ := if i + 1 = N then 0 else i + 1

/-- Increment and compare is increment modulo `N`. -/
lemma ringNext_mod (hN : 0 < N) (i : ℕ) : ringNext N (i % N) = (i + 1) % N := by
  have hlt : i % N < N := Nat.mod_lt i hN
  rw [Nat.add_mod i 1 N, ringNext]
  rcases Nat.lt_or_ge 1 N with h1 | h1
  · rw [Nat.mod_eq_of_lt h1]
    split
    · next h => rw [h, Nat.mod_self]
    · rw [Nat.mod_eq_of_lt (show i % N + 1 < N by omega)]
  · obtain rfl : N = 1 := by omega
    simp [Nat.mod_one]

/-- Two items less than one turn apart are in different slots. -/
lemma slot_ne (h : i < j) (h' : j < i + N) : i % N ≠ j % N := by
  intro heq
  have hdvd : N ∣ j - i := (Nat.modEq_iff_dvd' h.le).1 heq
  have := Nat.le_of_dvd (by omega) hdvd
  omega

/-- Items less than one turn apart are told apart by their slots. -/
lemma slot_inj (h : i < j + N) (h' : j < i + N) : i % N = j % N ↔ i = j := by
  constructor
  · intro heq
    rcases Nat.lt_trichotomy i j with hlt | rfl | hlt
    · exact absurd heq (slot_ne hlt h')
    · rfl
    · exact absurd heq.symm (slot_ne hlt h)
  · rintro rfl
    rfl

/-- The number of items between reader and writer, computed from their slots. -/
lemma ring_count (h : r ≤ n) (h' : n < r + N) : (n % N + N - r % N) % N = n - r := by
  obtain ⟨d, rfl⟩ := Nat.exists_eq_add_of_le h
  have hd : d < N := by omega
  have ha : r % N < N := Nat.mod_lt r (by omega)
  rw [Nat.add_mod r d N, Nat.mod_eq_of_lt hd]
  rcases Nat.lt_or_ge (r % N + d) N with hlt | hge
  · rw [Nat.mod_eq_of_lt hlt, show r % N + d + N - r % N = d + N by omega, Nat.add_mod_right,
      Nat.mod_eq_of_lt hd]
    omega
  · rw [Nat.mod_eq_sub_mod hge, Nat.mod_eq_of_lt (show r % N + d - N < N by omega),
      show r % N + d - N + N - r % N = d by omega, Nat.mod_eq_of_lt hd]
    omega

/-- The ring is empty exactly when the two slots agree. -/
lemma ring_empty_iff (h : r ≤ n) (h' : n < r + N) : n % N = r % N ↔ n = r :=
  slot_inj h' (by omega)

/-- The slot after the writer's is the reader's exactly when one slot is left. -/
lemma ring_full_iff (h : r ≤ n) (h' : n < r + N) : (n + 1) % N = r % N ↔ n + 1 = r + N := by
  rcases Nat.lt_or_ge (n + 1) (r + N) with hlt | hge
  · rw [slot_inj hlt (by omega)]
    omega
  · obtain rfl : N = n + 1 - r := by omega
    rw [show n + 1 = r + (n + 1 - r) by omega]
    simp

/-- The oldest item that is kept, where `d` are, after `n` items and then after `k` more. -/
lemma max_max_sub (r n k d : ℕ) : max (max r (n - d)) (n + k - d) = max r (n + k - d) := by
  omega

/-- The newest of the first `n` items that lies in the slot of item `r`. -/
def newest (N r n : ℕ) : ℕ := r + N * ((n - r - 1) / N)

@[simp] lemma newest_mod (N r n : ℕ) : newest N r n % N = r % N := Nat.add_mul_mod_self_left r N _

lemma le_newest (N r n : ℕ) : r ≤ newest N r n := Nat.le_add_right r _

lemma newest_lt (h : r < n) : newest N r n < n := by
  have := Nat.mul_div_le (n - r - 1) N
  unfold newest
  omega

/-- It is among the last `N` items. -/
lemma le_newest_add (hN : 0 < N) (h : r < n) : n ≤ newest N r n + N := by
  have := Nat.lt_mul_div_succ (n - r - 1) hN
  rw [Nat.mul_add, Nat.mul_one] at this
  unfold newest
  omega

section Pointers

variable {α : Type*} {f : α → α} {p : ℕ → α}

/-- Pointers that lead from each of `N` places to the next one visit them in order. -/
lemma iterate_ring (hnext : ∀ i < N, f (p i) = p ((i + 1) % N)) (hi : i < N) :
    f^[i] (p 0) = p i := by
  induction i with
  | zero => rfl
  | succ i ih =>
    rw [Function.iterate_succ_apply', ih (by omega), hnext i (by omega), Nat.mod_eq_of_lt hi]

/-- They form one cycle. -/
lemma minimalPeriod_ring (hN : 0 < N) (hnext : ∀ i < N, f (p i) = p ((i + 1) % N))
    (hne : ∀ i < N, p i = p 0 → i = 0) : Function.minimalPeriod f (p 0) = N := by
  have hback : Function.IsPeriodicPt f N (p 0) := by
    obtain ⟨k, rfl⟩ := Nat.exists_eq_succ_of_ne_zero (Nat.ne_of_gt hN)
    show f^[k + 1] (p 0) = p 0
    rw [Function.iterate_succ_apply', iterate_ring hnext (Nat.lt_succ_self k),
      hnext k (Nat.lt_succ_self k), Nat.mod_self]
  have hpos := hback.minimalPeriod_pos hN
  rcases Nat.lt_or_eq_of_le (hback.minimalPeriod_le hN) with hlt | heq
  · -- an earlier return would be to another place
    have hzero := hne _ hlt ((iterate_ring hnext hlt).symm.trans Function.iterate_minimalPeriod)
    omega
  · exact heq

end Pointers

end EvtDrivenOs.Lib
