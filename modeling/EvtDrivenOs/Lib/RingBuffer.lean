/-
A ring buffer that overwrites its oldest item when it is full.

The buffer has `N` slots, of which one always stays unused, a reader's slot and a
writer's slot.  `Holds N r arrived next` relates it to its history: `arrived` are
all the items ever put, and the reader is at item number `next`.  A buffer that
holds a history contains the items from `next` on, and its slots still keep the
last `N` items, read or not; so it can be said what a reader finds that works with
an old index (`Holds.slot_newest`, `Holds.seek`).
-/
import EvtDrivenOs.Lib.Ring
import Mathlib.Data.List.DropRight
import Mathlib.Logic.Function.Basic

namespace EvtDrivenOs.Lib

variable {α : Type*}

/-- A ring of slots with the slot to be read next and the slot to be written next. -/
structure RingBuf (α : Type*) where
  slots : ℕ → α
  head : ℕ
  tail : ℕ

namespace RingBuf

variable {N next : ℕ} {r : RingBuf α} {arrived : List α}

/-- An item is written; when only the unused slot is left, the reader moves on. -/
def put (N : ℕ) (r : RingBuf α) (a : α) : RingBuf α :=
  let nextTail := ringNext N r.tail
  { slots := Function.update r.slots r.tail a
    head := if nextTail = r.head then ringNext N r.head else r.head
    tail := nextTail }

/-- Several items are written one after the other. -/
def puts (N : ℕ) (r : RingBuf α) (l : List α) : RingBuf α := l.foldl (put N) r

/-- The items from the reader's slot to the writer's. -/
def items (N : ℕ) (r : RingBuf α) : List α :=
  (List.range ((r.tail + N - r.head) % N)).map fun k => r.slots ((r.head + k) % N)

/-- The buffer after the items `arrived`, with the reader at item `next`. -/
structure Holds (N : ℕ) (r : RingBuf α) (arrived : List α) (next : ℕ) : Prop where
  head : r.head = next % N
  tail : r.tail = arrived.length % N
  le : next ≤ arrived.length
  bound : arrived.length < next + N
  /-- The last `N` items are in their slots. -/
  slot : ∀ i a, arrived[i]? = some a → arrived.length ≤ i + N → r.slots (i % N) = a

namespace Holds

lemma pos (h : Holds N r arrived next) : 0 < N := by
  have := h.le
  have := h.bound
  omega

lemma head_lt (h : Holds N r arrived next) : r.head < N := by
  rw [h.head]
  exact Nat.mod_lt _ h.pos

lemma tail_lt (h : Holds N r arrived next) : r.tail < N := by
  rw [h.tail]
  exact Nat.mod_lt _ h.pos

/-- The buffer contains what arrived from the reader's item on. -/
lemma items_eq (h : Holds N r arrived next) : items N r = arrived.drop next := by
  have hle := h.le
  have hbound := h.bound
  rw [items, h.head, h.tail, ring_count h.le h.bound]
  apply List.ext_getElem?
  intro k
  rw [List.getElem?_drop, List.getElem?_map]
  rcases Nat.lt_or_ge k (arrived.length - next) with hk | hk
  · have hlt : next + k < arrived.length := by omega
    rw [List.getElem?_range hk, List.getElem?_eq_getElem hlt, Option.map_some, Nat.mod_add_mod,
      h.slot (next + k) _ (List.getElem?_eq_getElem hlt) (by omega)]
  · rw [List.getElem?_eq_none (by simpa using hk), List.getElem?_eq_none (by omega),
      Option.map_none]

/-- The two slots agree exactly when the reader has read everything. -/
lemma head_eq_tail_iff (h : Holds N r arrived next) :
    r.head = r.tail ↔ next = arrived.length := by
  rw [h.head, h.tail, eq_comm, ring_empty_iff h.le h.bound, eq_comm]

/-- One more item: the reader is pushed on when the buffer is full. -/
lemma put (h : Holds N r arrived next) (a : α) :
    Holds N (r.put N a) (arrived ++ [a]) (max next (arrived.length + 2 - N)) := by
  have hle := h.le
  have hbound := h.bound
  have htail : ringNext N r.tail = (arrived.length + 1) % N := by
    rw [h.tail, ringNext_mod h.pos]
  refine ⟨?_, ?_, ?_, ?_, ?_⟩
  · simp only [RingBuf.put, htail]
    rw [h.head]
    split
    · next hfull =>
      have := (ring_full_iff h.le h.bound).1 hfull
      rw [ringNext_mod h.pos, show max next (arrived.length + 2 - N) = next + 1 by omega]
    · next hfree =>
      have := mt (ring_full_iff h.le h.bound).2 hfree
      rw [show max next (arrived.length + 2 - N) = next by omega]
  · rw [List.length_append, List.length_singleton]
    exact htail
  · rw [List.length_append, List.length_singleton]
    have := h.pos
    omega
  · rw [List.length_append, List.length_singleton]
    omega
  · intro i b hb hlast
    rw [List.length_append, List.length_singleton] at hlast
    show Function.update r.slots r.tail a (i % N) = b
    rcases Nat.lt_trichotomy i arrived.length with hi | rfl | hi
    · -- an older item keeps its slot
      rw [List.getElem?_append_left hi] at hb
      rw [Function.update_of_ne, h.slot i b hb (by omega)]
      rw [h.tail]
      exact slot_ne hi (by omega)
    · rw [List.getElem?_concat_length] at hb
      rw [h.tail, Function.update_self]
      exact Option.some.inj hb
    · rw [List.getElem?_eq_none (by rw [List.length_append, List.length_singleton]; omega)] at hb
      simp at hb

/-- Several more items. -/
lemma puts (h : Holds N r arrived next) (l : List α) :
    Holds N (r.puts N l) (arrived ++ l) (max next (arrived.length + l.length + 1 - N)) := by
  induction l generalizing r arrived next with
  | nil =>
    have hbound := h.bound
    rw [List.append_nil, List.length_nil,
      show max next (arrived.length + 0 + 1 - N) = next by omega]
    exact h
  | cons a l ih =>
    have := ih (h.put a)
    rw [List.append_assoc, List.singleton_append, List.length_append, List.length_singleton] at this
    rw [List.length_cons, show max next (arrived.length + (l.length + 1) + 1 - N)
      = max (max next (arrived.length + 2 - N)) (arrived.length + 1 + l.length + 1 - N) by omega]
    exact this

/-- The reader is put to another item of the last `N`. -/
lemma seek (h : Holds N r arrived next) {i : ℕ} (hi : i ≤ arrived.length)
    (hlt : arrived.length < i + N) : Holds N { r with head := i % N } arrived i :=
  ⟨rfl, h.tail, hi, hlt, h.slot⟩

/-- The reader is put to any slot: it then is at one of the last `N` items. -/
lemma seek_mod (h : Holds N r arrived next) {i : ℕ} (hi : i ≤ arrived.length) :
    Holds N { r with head := i % N } arrived (arrived.length - (arrived.length - i) % N) := by
  have hlt := Nat.mod_lt (arrived.length - i) h.pos
  have hdiv := Nat.div_add_mod (arrived.length - i) N
  have heq : arrived.length - (arrived.length - i) % N = i + N * ((arrived.length - i) / N) := by
    omega
  have hseek := h.seek (i := arrived.length - (arrived.length - i) % N) (Nat.sub_le _ _) (by omega)
  rwa [show (arrived.length - (arrived.length - i) % N) % N = i % N by
    rw [heq, Nat.add_mul_mod_self_left]] at hseek

/-- What the slot of an item contains: the newest item that lies in it. -/
lemma slot_newest (h : Holds N r arrived next) {i : ℕ} (hi : i < arrived.length) :
    arrived[newest N i arrived.length]? = some (r.slots (i % N)) := by
  have hlt := newest_lt (N := N) hi
  rw [← newest_mod N i arrived.length,
    h.slot _ _ (List.getElem?_eq_getElem hlt) (le_newest_add h.pos hi),
    List.getElem?_eq_getElem hlt]

end Holds

/-- An empty buffer, whatever its slots contain. -/
lemma holds_empty (hN : 0 < N) (slots : ℕ → α) : Holds N ⟨slots, 0, 0⟩ [] 0 :=
  ⟨(Nat.zero_mod N).symm, (Nat.zero_mod N).symm, Nat.le_refl 0, by simpa using hN,
    fun _ _ h => by simp at h⟩

/-- Every buffer with its slots in range has a history. -/
lemma exists_holds (hhead : r.head < N) (htail : r.tail < N) :
    ∃ arrived next, Holds N r arrived next := by
  -- the slots read twice over, up to the writer's in the second turn
  refine ⟨(List.range (r.tail + N)).map fun i => r.slots (i % N),
    if r.head ≤ r.tail then r.head + N else r.head, ?_, ?_, ?_, ?_, ?_⟩
  · split
    · rw [Nat.add_mod_right, Nat.mod_eq_of_lt hhead]
    · rw [Nat.mod_eq_of_lt hhead]
  · rw [List.length_map, List.length_range, Nat.add_mod_right, Nat.mod_eq_of_lt htail]
  · rw [List.length_map, List.length_range]
    split <;> omega
  · rw [List.length_map, List.length_range]
    split <;> omega
  · intro i a hget _
    rw [List.getElem?_map, Option.map_eq_some_iff] at hget
    obtain ⟨j, hj, rfl⟩ := hget
    rw [← (List.getElem?_eq_some_iff.1 hj).2, List.getElem_range]

/-- A queue of at most `N - 1` items that drops the oldest ones. -/
lemma drop_append_eq_rtake {next n : ℕ} {l : List α} (hle : next ≤ arrived.length) :
    (arrived ++ l).drop (max next (arrived.length + l.length - n))
      = (arrived.drop next ++ l).rtake n := by
  rw [List.rtake, ← List.drop_append_of_le_length hle, List.drop_drop, List.length_drop,
    List.length_append]
  congr 1
  omega

/-! ### Reads that something arrives in between -/

/-- A read of a queue of at most `n` items while `ws` arrive behaves as if it happened at
one moment: it gives the first item there is then, or `z` if there is none, and leaves
the rest. -/
def AtomicRead (n : ℕ) (z : α) (l ws : List α) (c : α) (l' : List α) : Prop :=
  ∃ pre post, ws = pre ++ post ∧ c = ((l ++ pre).rtake n).headD z ∧
    l' = (((l ++ pre).rtake n).tail ++ post).rtake n

/-- The same by the numbers of the items: the read happens after `m` of them arrived. -/
lemma atomicRead_iff {n : ℕ} {z c : α} {ws l' : List α} (hle : next ≤ arrived.length) :
    AtomicRead n z (arrived.drop next) ws c l' ↔
      ∃ m ≤ ws.length, ∃ i, i = max next (arrived.length + m - n) ∧
        c = (if i < arrived.length + m then (arrived ++ ws).getD i z else z) ∧
        l' = (arrived ++ ws).drop
          (max (min (i + 1) (arrived.length + m)) (arrived.length + ws.length - n)) := by
  -- a split of what arrives meanwhile is the number of items before the read
  have key : ∀ pre post : List α, ws = pre ++ post → ∀ i,
      i = max next (arrived.length + pre.length - n) →
      ((arrived.drop next ++ pre).rtake n).headD z
          = (if i < arrived.length + pre.length then (arrived ++ ws).getD i z else z) ∧
        (((arrived.drop next ++ pre).rtake n).tail ++ post).rtake n
          = (arrived ++ ws).drop (max (min (i + 1) (arrived.length + pre.length))
              (arrived.length + ws.length - n)) := by
    rintro pre post rfl i hi
    have hlen : (arrived ++ pre).length = arrived.length + pre.length := List.length_append
    have hq : (arrived.drop next ++ pre).rtake n = (arrived ++ pre).drop i := by
      rw [← drop_append_eq_rtake hle, ← hi]
    rw [hq, ← List.append_assoc]
    constructor
    · rw [List.headD_eq_head?_getD, List.head?_drop]
      split
      · next hlt =>
        have hget : (arrived ++ pre ++ post)[i]? = (arrived ++ pre)[i]? :=
          List.getElem?_append_left (by omega)
        rw [List.getD_eq_getElem?_getD, hget]
      · rw [List.getElem?_eq_none (by omega), Option.getD_none]
    · have htail : ((arrived ++ pre).drop i).tail
          = (arrived ++ pre).drop (min (i + 1) (arrived.length + pre.length)) := by
        rw [List.tail_drop]
        rcases Nat.le_total (i + 1) (arrived.length + pre.length) with h | h
        · rw [Nat.min_eq_left h]
        · rw [Nat.min_eq_right h, List.drop_eq_nil_of_le (by omega),
            List.drop_eq_nil_of_le (by omega)]
      rw [htail, ← drop_append_eq_rtake (by omega), hlen, List.length_append, Nat.add_assoc]
  constructor
  · rintro ⟨pre, post, hws, hc, hl⟩
    obtain ⟨h1, h2⟩ := key pre post hws _ rfl
    exact ⟨pre.length, by rw [hws, List.length_append]; omega, _, rfl, hc.trans h1, hl.trans h2⟩
  · rintro ⟨m, hm, i, hi, hc, hl⟩
    have hpre : (ws.take m).length = m := by rw [List.length_take]; omega
    obtain ⟨h1, h2⟩ := key (ws.take m) (ws.drop m) (List.take_append_drop m ws).symm i
      (by rw [hpre]; exact hi)
    rw [hpre] at h1 h2
    exact ⟨_, _, (List.take_append_drop m ws).symm, hc.trans h1.symm, hl.trans h2.symm⟩

end RingBuf

end EvtDrivenOs.Lib
