/-
What the string instructions on words do to the memory and to the ports.

`rep insw` fills the memory with the words that a port gives, the low byte of each first, and
a loop of `outsw` sends the words of the memory to a port.  Both are described by the state
after any number of words.
-/
import EvtDrivenOs.Lib.X64

namespace EvtDrivenOs.Lib.X64

/-! ### Bytes and words -/

/-- Byte `i` of the words of a stream, each with its low byte first. -/
def byteOf (ws : Stream' (BitVec 16)) (i : ℕ) : BitVec 8 :=
  if i % 2 = 0 then (ws.get (i / 2)).setWidth 8 else (ws.get (i / 2) >>> 8).setWidth 8

/-- A memory with the words of a stream in `n` bytes from `a` on. -/
def filled (m : BitVec 64 → BitVec 8) (a : BitVec 64) (n : ℕ) (ws : Stream' (BitVec 16)) :
    BitVec 64 → BitVec 8 :=
  fun b => if (b - a).toNat < n then byteOf ws (b - a).toNat else m b

lemma byteOf_drop (ws : Stream' (BitVec 16)) (k i : ℕ) :
    byteOf (ws.drop k) i = byteOf ws (2 * k + i) := by
  have hmod : (2 * k + i) % 2 = i % 2 := by omega
  have hdiv : (2 * k + i) / 2 = k + i / 2 := by omega
  simp only [byteOf, hmod, hdiv, Stream'.get_drop, Nat.add_comm k]

/-- A range that is filled right behind another one. -/
lemma filled_filled (m : BitVec 64 → BitVec 8) (a : BitVec 64) {n k : ℕ}
    (ws : Stream' (BitVec 16)) (h : 2 * n + k ≤ 2 ^ 64) :
    filled (filled m a (2 * n) ws) (a + BitVec.ofNat 64 (2 * n)) k (ws.drop n) =
      filled m a (2 * n + k) ws := by
  funext b
  rcases Nat.eq_zero_or_pos k with rfl | hk
  · simp [filled]
  have hsub : (b - (a + BitVec.ofNat 64 (2 * n))).toNat =
      ((b - a).toNat + (2 ^ 64 - 2 * n)) % 2 ^ 64 := by
    have hn : (BitVec.ofNat 64 (2 * n)).toNat = 2 * n := by
      rw [BitVec.toNat_ofNat]
      omega
    rw [← BitVec.sub_sub, BitVec.toNat_sub, hn]
    omega
  have hlt := (b - a).isLt
  simp only [filled, hsub]
  by_cases hb : (b - a).toNat < 2 * n
  · rw [if_neg (by omega), if_pos hb, if_pos (by omega)]
  · by_cases hb' : (b - a).toNat < 2 * n + k
    · rw [if_pos (by omega), if_pos hb', byteOf_drop]
      congr 1
      omega
    · rw [if_neg (by omega), if_neg hb, if_neg hb']

/-- What fills a range is found there, and elsewhere nothing is changed. -/
lemma filled_add {m : BitVec 64 → BitVec 8} {a : BitVec 64} {n i : ℕ} {ws : Stream' (BitVec 16)}
    (hi : i < n) (hn : n ≤ 2 ^ 64) : filled m a n ws (a + BitVec.ofNat 64 i) = byteOf ws i := by
  have hsub : (a + BitVec.ofNat 64 i - a).toNat = i := by
    rw [add_sub_cancel_left, BitVec.toNat_ofNat, Nat.mod_eq_of_lt (by omega)]
  rw [filled, hsub, if_pos hi]

/-- The words of the memory from `a` on, sent to the port `p`. -/
def outws (p : BitVec 16) (m : BitVec 64 → BitVec 8) (a : BitVec 64) (n : ℕ) : List Io :=
  (List.range n).map fun i =>
    .outw p (m (a + BitVec.ofNat 64 (2 * i) + 1) ++ m (a + BitVec.ofNat 64 (2 * i)))

lemma outws_add (p : BitVec 16) (m : BitVec 64 → BitVec 8) (a : BitVec 64) (n k : ℕ) :
    outws p m a (n + k) = outws p m a n ++ outws p m (a + BitVec.ofNat 64 (2 * n)) k := by
  simp only [outws, List.range_add, List.map_append, List.map_map]
  congr 1
  refine List.map_congr_left fun i _ => ?_
  simp only [Function.comp_apply, BitVec.add_assoc, ← BitVec.ofNat_add, Nat.mul_add]

/-! ### The instructions -/

namespace Machine

variable {s : Machine}

/-- The state after `n` words from a port. -/
def inswed (s : Machine) (n : ℕ) : Machine :=
  { s with
    rcx := s.rcx - BitVec.ofNat 64 n
    rdi := s.rdi + BitVec.ofNat 64 (2 * n)
    mem := filled s.mem s.rdi (2 * n) (s.inp s.dx)
    inp := Function.update s.inp s.dx ((s.inp s.dx).drop n)
    log := s.log ++ List.replicate n (.inw s.dx) }

lemma iterate_insw (hdf : s.df = false) {n : ℕ} (hn : 2 * n ≤ 2 ^ 64) :
    (fun s => s.insw.decRcx)^[n] s = s.inswed n := by
  induction n with
  | zero =>
    have hfill (ws : Stream' (BitVec 16)) : filled s.mem s.rdi 0 ws = s.mem := by
      funext b
      simp [filled]
    simp [inswed, hfill]
  | succ n ih =>
    rw [Function.iterate_succ_apply', ih (by omega)]
    have hfill : filled (filled s.mem s.rdi (2 * n) (s.inp s.dx))
        (s.rdi + BitVec.ofNat 64 (2 * n)) 2 ((s.inp s.dx).drop n) =
          filled s.mem s.rdi (2 * (n + 1)) (s.inp s.dx) :=
      filled_filled s.mem s.rdi (s.inp s.dx) (by omega)
    have htail : ((s.inp s.dx).drop n).tail = (s.inp s.dx).drop (n + 1) :=
      Stream'.tail_drop'
    have hrdi : s.rdi + BitVec.ofNat 64 (2 * n) + 2 = s.rdi + BitVec.ofNat 64 (2 * (n + 1)) := by
      rw [BitVec.add_assoc, Nat.mul_succ, BitVec.ofNat_add]
      rfl
    have hrcx : s.rcx - BitVec.ofNat 64 n - 1 = s.rcx - BitVec.ofNat 64 (n + 1) := by
      rw [BitVec.sub_sub, BitVec.ofNat_add]
      rfl
    -- the two bytes of the word that is read are what fills the next two places
    have hmem : (fun b => if b = s.rdi + BitVec.ofNat 64 (2 * n) then
        ((s.inp s.dx).drop n).head.setWidth 8
          else if b = s.rdi + BitVec.ofNat 64 (2 * n) + 1 then
            (((s.inp s.dx).drop n).head >>> 8).setWidth 8
          else filled s.mem s.rdi (2 * n) (s.inp s.dx) b) =
        filled s.mem s.rdi (2 * (n + 1)) (s.inp s.dx) := by
      rw [← hfill]
      funext b
      generalize s.rdi + BitVec.ofNat 64 (2 * n) = a
      generalize filled s.mem s.rdi (2 * n) (s.inp s.dx) = m
      have h0 : b = a ↔ (b - a).toNat = 0 := by
        rw [← BitVec.toNat_inj]
        bv_omega
      have h1 : b = a + 1 ↔ (b - a).toNat = 1 := by
        rw [← BitVec.toNat_inj]
        bv_omega
      simp only [filled, h0, h1]
      by_cases hb0 : (b - a).toNat = 0
      · rw [if_pos hb0, if_pos (by omega), hb0]
        rfl
      · by_cases hb1 : (b - a).toNat = 1
        · rw [if_neg hb0, if_pos hb1, if_pos (by omega), hb1]
          rfl
        · rw [if_neg hb0, if_neg hb1, if_neg (by omega)]
    simp only [dx] at hmem htail
    simp only [inswed, insw, decRcx, eat, dx, wordStep, hdf, Function.update_self,
      Function.update_idem, hmem, htail, hrdi, hrcx, List.append_assoc, List.replicate_succ',
      Bool.false_eq_true, if_false]

/-- The state after `n` words to a port. -/
def outswed (s : Machine) (n : ℕ) : Machine :=
  { s with
    rcx := s.rcx - BitVec.ofNat 64 n
    rsi := s.rsi + BitVec.ofNat 64 (2 * n)
    log := s.log ++ outws s.dx s.mem s.rsi n }

lemma iterate_outsw (hdf : s.df = false) (n : ℕ) :
    (fun s => s.outsw.decRcx)^[n] s = s.outswed n := by
  induction n with
  | zero => simp [outswed, outws]
  | succ n ih =>
    have hrsi : s.rsi + BitVec.ofNat 64 (2 * n) + 2 = s.rsi + BitVec.ofNat 64 (2 * (n + 1)) := by
      rw [BitVec.add_assoc, Nat.mul_succ, BitVec.ofNat_add]
      rfl
    have hrcx : s.rcx - BitVec.ofNat 64 n - 1 = s.rcx - BitVec.ofNat 64 (n + 1) := by
      rw [BitVec.sub_sub, BitVec.ofNat_add]
      rfl
    rw [Function.iterate_succ_apply', ih]
    simp only [outswed, outsw, decRcx, dx, wordStep, hdf, hrsi, hrcx, outws, List.range_succ,
      List.map_append, List.map_singleton, List.append_assoc, Bool.false_eq_true, if_false]

end Machine

end EvtDrivenOs.Lib.X64
