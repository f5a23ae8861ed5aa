/-
Stores of several bytes, in a memory that wraps around at the end of the addresses.
-/
import EvtDrivenOs.Lib.X64Strings

namespace EvtDrivenOs.Lib.X64

variable {m : BitVec 64 → BitVec 8} {a x : BitVec 64} {bs cs : List (BitVec 8)}

/-- The memory with the bytes stored from `a` on. -/
def stored (m : BitVec 64 → BitVec 8) (a : BitVec 64) (bs : List (BitVec 8)) :
    BitVec 64 → BitVec 8 := fun x => bs.getD (x - a).toNat (m x)

/-- The bytes of a value, the lowest first. -/
def bytesOf (n : ℕ) {w : ℕ} (v : BitVec w) : List (BitVec 8) :=
  (List.range n).map fun i => v.extractLsb' (8 * i) 8

@[simp] lemma length_bytesOf (n : ℕ) {w : ℕ} (v : BitVec w) : (bytesOf n v).length = n := by
  simp [bytesOf]

lemma stored_of_le (h : bs.length ≤ (x - a).toNat) : stored m a bs x = m x := by
  rw [stored, List.getD_eq_getElem?_getD, List.getElem?_eq_none h, Option.getD_none]

lemma toNat_add_ofNat_sub (a : BitVec 64) {i : ℕ} (hi : i < 2 ^ 64) :
    (a + BitVec.ofNat 64 i - a).toNat = i := by
  rw [BitVec.add_comm, BitVec.add_sub_cancel, BitVec.toNat_ofNat, Nat.mod_eq_of_lt hi]

/-- What has been stored is there. -/
lemma bytes_stored (h : bs.length ≤ 2 ^ 64) : Bytes (stored m a bs) a bs := by
  intro i b hi
  have hi' : i < bs.length := (List.getElem?_eq_some_iff.mp hi).1
  rw [stored, toNat_add_ofNat_sub a (by omega), List.getD_eq_getElem?_getD, hi, Option.getD_some]

/-- Two stores, the second behind the first, are one. -/
lemma stored_stored (h : bs.length + cs.length ≤ 2 ^ 64) :
    stored (stored m a bs) (a + BitVec.ofNat 64 bs.length) cs = stored m a (bs ++ cs) := by
  funext x
  -- how far behind `a` the byte is, and how far behind the first bytes
  have hd : (x - (a + BitVec.ofNat 64 bs.length)).toNat =
      ((x - a).toNat + (2 ^ 64 - bs.length)) % 2 ^ 64 := by
    have hlen : (BitVec.ofNat 64 bs.length).toNat = bs.length % 2 ^ 64 := BitVec.toNat_ofNat ..
    simp only [BitVec.toNat_sub, BitVec.toNat_add, hlen]
    have ha := a.isLt
    have hx := x.isLt
    omega
  have hlt := (x - a).isLt
  simp only [stored, hd, List.getD_eq_getElem?_getD]
  by_cases hi : (x - a).toNat < bs.length
  · have hout : cs.length ≤ ((x - a).toNat + (2 ^ 64 - bs.length)) % 2 ^ 64 := by omega
    rw [List.getElem?_eq_none hout, List.getElem?_append_left hi, Option.getD_none,
      List.getElem?_eq_getElem hi]
  · have hback : ((x - a).toNat + (2 ^ 64 - bs.length)) % 2 ^ 64 = (x - a).toNat - bs.length := by
      omega
    rw [hback, List.getElem?_append_right (by omega), List.getElem?_eq_none (l := bs) (by omega),
      Option.getD_none]

/-- Stores that follow each other. -/
lemma stored_next {d : BitVec 64}
    (hx : x = BitVec.ofNat 64 bs.length) (h : bs.length + cs.length ≤ 2 ^ 64) :
    stored (stored m d bs) (d + x) cs = stored m d (bs ++ cs) := by
  rw [hx, stored_stored h]

lemma stored_twice (h : bs.length = cs.length) : stored (stored m a bs) a cs = stored m a cs := by
  funext x
  by_cases hx : (x - a).toNat < cs.length
  · simp only [stored, List.getD_eq_getElem?_getD, List.getElem?_eq_getElem hx, Option.getD_some]
  · rw [stored_of_le (by omega), stored_of_le (by omega), stored_of_le (by omega)]

end EvtDrivenOs.Lib.X64
