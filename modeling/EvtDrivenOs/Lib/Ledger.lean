/-
A queue that drops its oldest item when it is full.

The items are numbered by arrival, and a `Ledger` records how many arrived,
which of them were dropped and which were taken by the reader.  The reader and
the overflow both remove the oldest item still in the queue, so the queue always
is the interval of numbers from `next` to `arrived`.  `Ledger.Ok` is what follows
for the two lists: together they are everything below `next`, they have no item
in common, and each is in the order of arrival.
-/
import Mathlib.Data.List.Pairwise
import Mathlib.Tactic.Common

namespace EvtDrivenOs.Lib

/-- The history of a queue of numbered items. -/
structure Ledger where
  /-- How many items arrived. -/
  arrived : ℕ
  /-- The items dropped, in the order in which they were dropped. -/
  dropped : List ℕ
  /-- The items taken, in the order in which they were taken. -/
  taken : List ℕ
deriving DecidableEq, Repr

namespace Ledger

/-- The number of items that left the queue; it is the oldest item still in it. -/
def next (l : Ledger) : ℕ := l.dropped.length + l.taken.length

/-- The items in the queue: those neither dropped nor taken. -/
def waiting (l : Ledger) : List ℕ :=
  (List.range l.arrived).filter fun i => decide (i ∉ l.dropped ∧ i ∉ l.taken)

/-- An item arrives at a queue of capacity `cap`. -/
def arrive (cap : ℕ) (l : Ledger) : Ledger :=
  if l.arrived - l.next = cap then
    { l with arrived := l.arrived + 1, dropped := l.dropped ++ [l.next] }
  else { l with arrived := l.arrived + 1 }

/-- The reader takes the oldest item, if there is one. -/
def take (l : Ledger) : Ledger :=
  if l.next < l.arrived then { l with taken := l.taken ++ [l.next] } else l

/-- What holds of the history of a queue that only ever removes its oldest item. -/
structure Ok (l : Ledger) : Prop where
  next_le : l.next ≤ l.arrived
  removed_iff : ∀ i, i ∈ l.dropped ∨ i ∈ l.taken ↔ i < l.next
  disjoint : ∀ i ∈ l.dropped, i ∉ l.taken
  dropped_sorted : l.dropped.Pairwise (· < ·)
  taken_sorted : l.taken.Pairwise (· < ·)

lemma ok_empty : Ok ⟨0, [], []⟩ := by
  constructor <;> simp [next]

variable {l : Ledger}

lemma Ok.lt_of_dropped (h : l.Ok) {i : ℕ} (hi : i ∈ l.dropped) : i < l.next :=
  (h.removed_iff i).1 (Or.inl hi)

lemma Ok.lt_of_taken (h : l.Ok) {i : ℕ} (hi : i ∈ l.taken) : i < l.next :=
  (h.removed_iff i).1 (Or.inr hi)

/-- The queue is the interval from the oldest item to the newest. -/
lemma Ok.waiting_eq (h : l.Ok) : l.waiting = List.range' l.next (l.arrived - l.next) := by
  have hsplit : List.range l.arrived
      = List.range l.next ++ List.range' l.next (l.arrived - l.next) := by
    have happ := @List.range'_append_1 0 l.next (l.arrived - l.next)
    have := h.next_le
    rw [Nat.zero_add, show l.next + (l.arrived - l.next) = l.arrived by omega] at happ
    rw [List.range_eq_range', List.range_eq_range', happ]
  have hlow : (List.range l.next).filter
      (fun i => decide (i ∉ l.dropped ∧ i ∉ l.taken)) = [] := by
    simp only [List.filter_eq_nil_iff, List.mem_range, decide_eq_true_eq, not_and, not_not]
    intro i hi hd
    exact ((h.removed_iff i).2 hi).resolve_left hd
  have hhigh : (List.range' l.next (l.arrived - l.next)).filter
      (fun i => decide (i ∉ l.dropped ∧ i ∉ l.taken))
        = List.range' l.next (l.arrived - l.next) := by
    simp only [List.filter_eq_self, List.mem_range'_1, decide_eq_true_eq]
    intro i hi
    have hni : ¬ (i ∈ l.dropped ∨ i ∈ l.taken) := fun hm => by
      have := (h.removed_iff i).1 hm
      omega
    exact not_or.1 hni
  rw [waiting, hsplit, List.filter_append, hlow, hhigh, List.nil_append]

lemma Ok.waiting_length (h : l.Ok) : l.waiting.length = l.arrived - l.next := by
  rw [h.waiting_eq, List.length_range']

lemma Ok.waiting_head? (h : l.Ok) (hlt : l.next < l.arrived) : l.waiting.head? = some l.next := by
  rw [h.waiting_eq, List.head?_range', if_neg (by omega)]

lemma Ok.waiting_eq_nil_iff (h : l.Ok) : l.waiting = [] ↔ l.next = l.arrived := by
  rw [← List.length_eq_zero_iff, h.waiting_length]
  have := h.next_le
  omega

/-- A further item in the queue. -/
lemma Ok.push (h : l.Ok) : Ok { l with arrived := l.arrived + 1 } where
  next_le := Nat.le_succ_of_le h.next_le
  removed_iff := h.removed_iff
  disjoint := h.disjoint
  dropped_sorted := h.dropped_sorted
  taken_sorted := h.taken_sorted

/-- The oldest item is dropped. -/
lemma Ok.drop (h : l.Ok) (hlt : l.next < l.arrived) :
    Ok { l with dropped := l.dropped ++ [l.next] } where
  next_le := by simp only [next, List.length_append, List.length_singleton] at *; omega
  removed_iff i := by
    simp only [List.mem_append, List.mem_singleton]
    rw [or_right_comm, h.removed_iff i]
    simp only [next, List.length_append, List.length_singleton]
    omega
  disjoint i hi := by
    rcases List.mem_append.1 hi with hi | hi
    · exact h.disjoint i hi
    · intro ht
      have := h.lt_of_taken ht
      simp only [List.mem_singleton] at hi
      omega
  dropped_sorted := by
    refine List.pairwise_append.2 ⟨h.dropped_sorted, List.pairwise_singleton _ _, ?_⟩
    intro a ha b hb
    rw [List.mem_singleton.1 hb]
    exact h.lt_of_dropped ha
  taken_sorted := h.taken_sorted

/-- The oldest item is taken. -/
lemma Ok.pop (h : l.Ok) (hlt : l.next < l.arrived) :
    Ok { l with taken := l.taken ++ [l.next] } where
  next_le := by simp only [next, List.length_append, List.length_singleton] at *; omega
  removed_iff i := by
    simp only [List.mem_append, List.mem_singleton]
    rw [← or_assoc, h.removed_iff i]
    simp only [next, List.length_append, List.length_singleton]
    omega
  disjoint i hi := by
    have hlt' := h.lt_of_dropped hi
    simp only [List.mem_append, List.mem_singleton, not_or]
    exact ⟨h.disjoint i hi, by omega⟩
  dropped_sorted := h.dropped_sorted
  taken_sorted := by
    refine List.pairwise_append.2 ⟨h.taken_sorted, List.pairwise_singleton _ _, ?_⟩
    intro a ha b hb
    rw [List.mem_singleton.1 hb]
    exact h.lt_of_taken ha

lemma Ok.arrive {cap : ℕ} (h : l.Ok) : (l.arrive cap).Ok := by
  unfold Ledger.arrive
  split
  · exact h.push.drop (Nat.lt_succ_of_le h.next_le)
  · exact h.push

lemma Ok.take (h : l.Ok) : l.take.Ok := by
  unfold Ledger.take
  split
  · next hlt => exact h.pop hlt
  · exact h

end Ledger

end EvtDrivenOs.Lib
