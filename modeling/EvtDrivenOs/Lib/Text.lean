/-
Texts in buffers of fixed size.

A text is a list of bytes without a zero; a buffer holds it when the text is at its start
with a zero behind it, whatever comes after that.  `put` writes bytes one after the other,
and gives nothing if one of them is outside the buffer.
-/
import Mathlib.Data.List.TakeWhile

namespace EvtDrivenOs.Lib

variable {n i : ℕ} {buf : Vector UInt8 n} {bytes text : List UInt8} {c : UInt8}

/-- The text at the start of some bytes. -/
def textOf (bytes : List UInt8) : List UInt8 := bytes.takeWhile (· ≠ 0)

lemma zero_not_mem_textOf (bytes : List UInt8) : 0 ∉ textOf bytes := by
  intro h
  have hne := List.mem_takeWhile_imp h
  simp at hne

/-- Behind the text comes a zero, if there is one. -/
lemma textOf_append (h : 0 ∈ bytes) : ∃ rest, bytes = textOf bytes ++ 0 :: rest := by
  have hsplit : textOf bytes ++ bytes.dropWhile (· ≠ 0) = bytes :=
    List.takeWhile_append_dropWhile
  cases hdrop : bytes.dropWhile (· ≠ 0) with
  | nil =>
    rw [hdrop, List.append_nil] at hsplit
    have hmem := zero_not_mem_textOf bytes
    rw [hsplit] at hmem
    exact absurd h hmem
  | cons c rest =>
    have hhead := List.head?_dropWhile_not (· ≠ 0) bytes
    rw [hdrop] at hhead
    obtain rfl : c = 0 := by simpa using hhead
    exact ⟨rest, by rw [← hdrop, hsplit]⟩

/-! ### What a buffer holds -/

/-- The buffer holds a text with its terminator. -/
structure HoldsText (buf : Vector UInt8 n) (text : List UInt8) : Prop where
  no_zero : 0 ∉ text
  image : ∃ rest, buf.toList = text ++ 0 :: rest

namespace HoldsText

lemma terminated (h : HoldsText buf text) : 0 ∈ buf.toList := by
  obtain ⟨rest, hrest⟩ := h.image
  simp [hrest]

lemma length_lt (h : HoldsText buf text) : text.length < n := by
  obtain ⟨rest, hrest⟩ := h.image
  have hlen := congrArg List.length hrest
  rw [Vector.length_toList, List.length_append, List.length_cons] at hlen
  omega

lemma textOf_eq (h : HoldsText buf text) : textOf buf.toList = text := by
  obtain ⟨rest, hrest⟩ := h.image
  have hpos : ∀ c ∈ text, decide (c ≠ 0) = true := by
    intro c hc
    have hne : c ≠ 0 := fun h0 => h.no_zero (h0 ▸ hc)
    simpa using hne
  rw [textOf, hrest, List.takeWhile_append_of_pos hpos]
  simp

/-- The bytes at the start of the buffer have a zero among them. -/
lemma of_take (htake : buf.toList.take bytes.length = bytes) (h0 : 0 ∈ bytes) :
    HoldsText buf (textOf bytes) := by
  obtain ⟨rest, hrest⟩ := textOf_append h0
  refine ⟨zero_not_mem_textOf bytes, rest ++ buf.toList.drop bytes.length, ?_⟩
  have hsplit := List.take_append_drop bytes.length buf.toList
  rw [htake] at hsplit
  rw [← List.cons_append, ← List.append_assoc, ← hrest, hsplit]

/-- They are the text and its terminator. -/
lemma of_take_snoc (hzero : 0 ∉ text)
    (htake : buf.toList.take (text.length + 1) = text ++ [0]) : HoldsText buf text := by
  refine ⟨hzero, buf.toList.drop (text.length + 1), ?_⟩
  have hsplit := List.take_append_drop (text.length + 1) buf.toList
  rw [htake, List.append_assoc] at hsplit
  exact hsplit.symm

lemma take_eq (h : HoldsText buf text) : buf.toList.take text.length = text := by
  obtain ⟨rest, hrest⟩ := h.image
  rw [hrest, List.take_left']
  rfl

end HoldsText

/-! ### Writing -/

/-- A byte written behind what is at the start of a buffer. -/
lemma take_set_succ (hi : i < n) :
    (buf.set i c).toList.take (i + 1) = buf.toList.take i ++ [c] := by
  rw [Vector.toList_set, List.take_add_one, List.take_set_of_le (Nat.le_refl i)]
  simp [hi]

/-- The buffer with the bytes written from index `i` on. -/
def put (buf : Vector UInt8 n) (i : ℕ) : List UInt8 → Option (Vector UInt8 n)
  | [] => some buf
  | c :: bytes => if h : i < n then put (buf.set i c) (i + 1) bytes else none

/-- Bytes for which there is room. -/
lemma put_of_le (buf : Vector UInt8 n) {i : ℕ} (h : i + bytes.length ≤ n) :
    ∃ buf', put buf i bytes = some buf' ∧
      buf'.toList.take (i + bytes.length) = buf.toList.take i ++ bytes := by
  induction bytes generalizing buf i with
  | nil => exact ⟨buf, rfl, by simp⟩
  | cons c bytes ih =>
    rw [List.length_cons] at h ⊢
    have hi : i < n := by omega
    obtain ⟨buf', hput, htake⟩ := ih (buf.set i c) (show i + 1 + bytes.length ≤ n by omega)
    refine ⟨buf', by rw [put, dif_pos hi, hput], ?_⟩
    rw [Nat.add_comm bytes.length, ← Nat.add_assoc, htake, take_set_succ hi, List.append_assoc]
    rfl

end EvtDrivenOs.Lib
