/-
The string instructions on bytes, upwards in memory: `rep movsb` and `repz cmpsb`.

A copy upwards reads bytes that it has already written when the destination starts inside
the source.  `Copying` says what it leaves then: the bytes before the destination's start
are repeated, with the distance of the two ranges as the period.
-/
import EvtDrivenOs.Lib.X64

namespace EvtDrivenOs.Lib.X64

namespace Machine

variable (s : Machine)

/-! ### Flags -/

/-- The flags register, with the direction flag in bit 10. -/
def flags : BitVec 64 := if s.df then 1 <<< 10 else 0

@[simp] lemma getElem_flags : s.flags[10] = s.df := by
  cases h : s.df <;> simp [flags, h]

/-- `pushfq` -/
@[simp] def pushfq : Machine := s.push s.flags

/-- `popfq`, of the one flag that is modelled. -/
@[simp] def popfq : Machine := { s.drop with df := s.top.getLsbD 10 }

/-- `cld`: the string instructions go up. -/
@[simp] def cld : Machine := { s with df := false }

/-! ### The instructions -/

/-- How far a string instruction on bytes moves its pointers. -/
def byteStep : BitVec 64 := if s.df then -1 else 1

/-- `movsb`: a byte goes from `rsi` to `rdi`. -/
def movsb : Machine :=
  { s with
    mem := Function.update s.mem s.rdi (s.mem s.rsi)
    rsi := s.rsi + s.byteStep
    rdi := s.rdi + s.byteStep }

/-- The instruction `rep movsb`. -/
def repMovsb : Machine := (fun s => s.movsb.decRcx)^[s.rcx.toNat] s

/-- `cmpsb`, with the zero flag that it leaves. -/
def cmpsb : Machine × Bool :=
  ({ s with rsi := s.rsi + s.byteStep, rdi := s.rdi + s.byteStep }, s.mem s.rsi = s.mem s.rdi)

/-- At most `n` of the comparisons of `repz cmpsb`, the zero flag being `zf` before them. -/
def cmpsbs : ℕ → Machine → Bool → Machine × Bool
  | 0, s, zf => (s, zf)
  | n + 1, s, _ =>
    if s.cmpsb.2 then cmpsbs n s.cmpsb.1.decRcx true else (s.cmpsb.1.decRcx, false)

/-- The instruction `repz cmpsb`; it leaves the zero flag alone when `rcx` is zero. -/
def repzCmpsb (zf : Bool) : Machine × Bool := cmpsbs s.rcx.toNat s zf

/-- `ax` gets `al` with its sign. -/
@[simp] def cbw : Machine := { s with rax := setLow16 s.rax (s.al.signExtend 16) }

/-- The pointers and the count after `k` bytes. -/
def ahead (k : ℕ) : Machine :=
  { s with
    rsi := s.rsi + BitVec.ofNat 64 k
    rdi := s.rdi + BitVec.ofNat 64 k
    rcx := s.rcx - BitVec.ofNat 64 k }

lemma ahead_zero : s.ahead 0 = s := by
  simp [ahead]

end Machine

/-! ### Addresses -/

/-- Two places less than the whole address space apart are different. -/
lemma add_ofNat_ne (a : BitVec 64) {i j : ℕ} (hij : i < j) (hj : j < i + 2 ^ 64) :
    a + BitVec.ofNat 64 i ≠ a + BitVec.ofNat 64 j := by
  intro h
  have h := congrArg BitVec.toNat (add_left_cancel h)
  simp only [BitVec.toNat_ofNat] at h
  omega

/-! ### `rep movsb` -/

/-- How far the destination is above the source. -/
def Machine.gap (s : Machine) : ℕ := (s.rdi - s.rsi).toNat

/-- `t` is reached from `s` by copying `k` bytes upwards. -/
structure Copying (s : Machine) (k : ℕ) (t : Machine) : Prop where
  regs : t = { s.ahead k with mem := t.mem }
  frame : ∀ a, (∀ i < k, a ≠ s.rdi + BitVec.ofNat 64 i) → t.mem a = s.mem a
  /-- The bytes before the destination's start are read as they were. -/
  first : ∀ i < k, s.gap = 0 ∨ i < s.gap →
    t.mem (s.rdi + BitVec.ofNat 64 i) = s.mem (s.rsi + BitVec.ofNat 64 i)
  /-- The others are copies of copies. -/
  again : ∀ i, i + s.gap < k →
    t.mem (s.rdi + BitVec.ofNat 64 (i + s.gap)) = t.mem (s.rdi + BitVec.ofNat 64 i)

namespace Copying

variable {s t : Machine} {k : ℕ}

lemma refl (s : Machine) : Copying s 0 s where
  regs := by rw [s.ahead_zero]
  frame _ _ := rfl
  first _ hi := absurd hi (Nat.not_lt_zero _)
  again _ hi := absurd hi (Nat.not_lt_zero _)

lemma rdi (h : Copying s k t) : t.rdi = s.rdi + BitVec.ofNat 64 k := by
  rw [h.regs]
  rfl

lemma rsi (h : Copying s k t) : t.rsi = s.rsi + BitVec.ofNat 64 k := by
  rw [h.regs]
  rfl

lemma rcx (h : Copying s k t) : t.rcx = s.rcx - BitVec.ofNat 64 k := by
  rw [h.regs]
  rfl

lemma df (h : Copying s k t) : t.df = s.df := by
  rw [h.regs]
  rfl

/-- A place in the destination is one of the source, counted from the gap on. -/
lemma rdi_add (s : Machine) (i : ℕ) :
    s.rdi + BitVec.ofNat 64 i = s.rsi + BitVec.ofNat 64 (i + s.gap) := by
  rw [Machine.gap, BitVec.ofNat_add, BitVec.ofNat_toNat, BitVec.setWidth_eq, add_left_comm,
    add_sub_cancel, add_comm]

/-- The byte that is read next has not been written, unless the gap has been crossed. -/
lemma read (h : Copying s k t) (hk : k < 2 ^ 64) (hgap : s.gap = 0 ∨ k < s.gap) :
    t.mem (s.rsi + BitVec.ofNat 64 k) = s.mem (s.rsi + BitVec.ofNat 64 k) := by
  apply h.frame
  intro i hi
  have hlt : s.gap < 2 ^ 64 := (s.rdi - s.rsi).isLt
  rw [rdi_add]
  rcases hgap with hgap | hgap
  · rw [hgap]
    exact (add_ofNat_ne s.rsi hi (by omega)).symm
  · exact add_ofNat_ne s.rsi (by omega) (by omega)

lemma regs_succ (hdf : s.df = false) (m : BitVec 64 → BitVec 8) :
    { s.ahead k with mem := m }.movsb.decRcx =
      { s.ahead (k + 1) with mem := { s.ahead k with mem := m }.movsb.decRcx.mem } := by
  simp only [Machine.movsb, Machine.decRcx, Machine.byteStep, Machine.ahead, hdf, BitVec.ofNat_add,
    add_assoc, sub_sub]
  rfl

/-- One more byte. -/
lemma succ (h : Copying s k t) (hdf : s.df = false) (hk : k < 2 ^ 64) :
    Copying s (k + 1) t.movsb.decRcx := by
  have hmem : t.movsb.decRcx.mem = Function.update t.mem (s.rdi + BitVec.ofNat 64 k)
      (t.mem (s.rsi + BitVec.ofNat 64 k)) := by
    rw [← h.rdi, ← h.rsi]
    rfl
  have hold : ∀ i < k, t.movsb.decRcx.mem (s.rdi + BitVec.ofNat 64 i) =
      t.mem (s.rdi + BitVec.ofNat 64 i) := by
    intro i hi
    rw [hmem, Function.update_of_ne (add_ofNat_ne s.rdi hi (by omega))]
  have hnew : t.movsb.decRcx.mem (s.rdi + BitVec.ofNat 64 k) =
      t.mem (s.rsi + BitVec.ofNat 64 k) := by
    rw [hmem, Function.update_self]
  constructor
  · rw [h.regs]
    exact regs_succ hdf _
  · intro a ha
    rw [hmem, Function.update_of_ne (ha k (Nat.lt_succ_self k))]
    exact h.frame a fun i hi => ha i (Nat.lt_succ_of_lt hi)
  · intro i hi hgap
    rcases Nat.lt_succ_iff_lt_or_eq.mp hi with hi | rfl
    · rw [hold i hi, h.first i hi hgap]
    · rw [hnew, h.read hk hgap]
  · intro i hi
    rcases Nat.eq_zero_or_pos s.gap with hgap | hgap
    · rw [hgap, add_zero]
    · rcases Nat.lt_succ_iff_lt_or_eq.mp hi with hi | hi
      · rw [hold _ hi, hold i (by omega), h.again i hi]
      · -- the byte that is read was written `gap` bytes before
        rw [hi, hnew, ← hi, ← rdi_add]
        exact (hold i (by omega)).symm

lemma iterate (hdf : s.df = false) : ∀ {k : ℕ}, k ≤ 2 ^ 64 →
    Copying s k ((fun s => s.movsb.decRcx)^[k] s) := by
  intro k
  induction k with
  | zero => exact fun _ => refl s
  | succ k ih =>
    intro hk
    rw [Function.iterate_succ_apply']
    exact (ih (by omega)).succ hdf (by omega)

lemma repMovsb (hdf : s.df = false) : Copying s s.rcx.toNat s.repMovsb :=
  iterate hdf s.rcx.isLt.le

/-- The destination gets the source's bytes just if those bytes repeat, at the distance of
the two ranges. -/
lemma copied_iff (h : Copying s k t) :
    (∀ i < k, t.mem (s.rdi + BitVec.ofNat 64 i) = s.mem (s.rsi + BitVec.ofNat 64 i)) ↔
      ∀ i, i + s.gap < k →
        s.mem (s.rsi + BitVec.ofNat 64 (i + s.gap)) = s.mem (s.rsi + BitVec.ofNat 64 i) := by
  constructor
  · intro hcopy i hi
    rw [← hcopy _ hi, h.again i hi, hcopy i (by omega)]
  · intro hrep i
    induction i using Nat.strong_induction_on with
    | _ i ih =>
      intro hi
      by_cases hgap : s.gap = 0 ∨ i < s.gap
      · exact h.first i hi hgap
      · obtain ⟨j, rfl⟩ : ∃ j, i = j + s.gap := ⟨i - s.gap, by omega⟩
        rw [h.again j hi, ih j (by omega) (by omega), hrep j hi]

end Copying

/-! ### `repz cmpsb` -/

/-- The bytes at `a + k` and `b + k` are the first of `n` that differ. -/
structure FirstDiff (m : BitVec 64 → BitVec 8) (a b : BitVec 64) (n k : ℕ) : Prop where
  lt : k < n
  eq : ∀ i < k, m (a + BitVec.ofNat 64 i) = m (b + BitVec.ofNat 64 i)
  ne : m (a + BitVec.ofNat 64 k) ≠ m (b + BitVec.ofNat 64 k)

lemma FirstDiff.symm {m : BitVec 64 → BitVec 8} {a b : BitVec 64} {n k : ℕ}
    (h : FirstDiff m a b n k) : FirstDiff m b a n k :=
  ⟨h.lt, fun i hi => (h.eq i hi).symm, h.ne.symm⟩

lemma FirstDiff.unique {m : BitVec 64 → BitVec 8} {a b : BitVec 64} {n j k : ℕ}
    (hj : FirstDiff m a b n j) (hk : FirstDiff m a b n k) : j = k := by
  rcases Nat.lt_trichotomy j k with h | h | h
  · exact absurd (hk.eq j h) hj.ne
  · exact h
  · exact absurd (hj.eq k h) hk.ne

/-- Either all `n` bytes are equal or there is a first difference. -/
lemma eq_or_firstDiff (m : BitVec 64 → BitVec 8) (a b : BitVec 64) (n : ℕ) :
    (∀ i < n, m (a + BitVec.ofNat 64 i) = m (b + BitVec.ofNat 64 i)) ∨
      ∃ k, FirstDiff m a b n k := by
  by_cases h : ∃ k, k < n ∧ m (a + BitVec.ofNat 64 k) ≠ m (b + BitVec.ofNat 64 k)
  · right
    obtain ⟨hlt, hne⟩ := Nat.find_spec h
    refine ⟨Nat.find h, hlt, fun i hi => ?_, hne⟩
    by_contra hi'
    exact Nat.find_min h hi ⟨hi.trans hlt, hi'⟩
  · left
    intro i hi
    by_contra hi'
    exact h ⟨i, hi, hi'⟩

namespace Machine

variable {s : Machine}

lemma ahead_succ (s : Machine) (k : ℕ) : (s.ahead 1).ahead k = s.ahead (k + 1) := by
  simp only [ahead, BitVec.ofNat_add, add_assoc, sub_sub, add_comm (BitVec.ofNat 64 1)]

lemma cmpsb_decRcx (hdf : s.df = false) : s.cmpsb.1.decRcx = s.ahead 1 := by
  have hstep : s.byteStep = 1#64 := by
    rw [byteStep, hdf]
    rfl
  rw [cmpsb, hstep]
  rfl

lemma cmpsbs_of_eq {n : ℕ} (hdf : s.df = false)
    (h : ∀ i < n, s.mem (s.rsi + BitVec.ofNat 64 i) = s.mem (s.rdi + BitVec.ofNat 64 i)) :
    cmpsbs n s true = (s.ahead n, true) := by
  induction n generalizing s with
  | zero => rw [cmpsbs, ahead_zero]
  | succ n ih =>
    have h0 : s.cmpsb.2 = true := by
      simpa [cmpsb] using h 0 (Nat.succ_pos n)
    rw [cmpsbs, if_pos h0, cmpsb_decRcx hdf, ih (s := s.ahead 1) hdf, ahead_succ]
    intro i hi
    have hbyte := h (i + 1) (by omega)
    rw [add_comm i, BitVec.ofNat_add, ← add_assoc, ← add_assoc] at hbyte
    exact hbyte

lemma cmpsbs_of_firstDiff {n k : ℕ} (hdf : s.df = false)
    (h : FirstDiff s.mem s.rsi s.rdi n k) : cmpsbs n s true = (s.ahead (k + 1), false) := by
  induction n generalizing s k with
  | zero => exact absurd h.lt (Nat.not_lt_zero k)
  | succ n ih =>
    cases k with
    | zero =>
      have h0 : ¬ s.cmpsb.2 = true := by
        simpa [cmpsb] using h.ne
      rw [cmpsbs, if_neg h0, cmpsb_decRcx hdf]
    | succ k =>
      have h0 : s.cmpsb.2 = true := by
        simpa [cmpsb] using h.eq 0 (Nat.succ_pos k)
      have hnext : FirstDiff (s.ahead 1).mem (s.ahead 1).rsi (s.ahead 1).rdi n k := by
        have hadd : ∀ (a : BitVec 64) (i : ℕ),
            a + BitVec.ofNat 64 1 + BitVec.ofNat 64 i = a + BitVec.ofNat 64 (i + 1) := by
          intro a i
          rw [add_assoc, ← BitVec.ofNat_add, add_comm 1]
        refine ⟨Nat.lt_of_succ_lt_succ h.lt, fun i hi => ?_, ?_⟩
        · have hbyte := h.eq (i + 1) (by omega)
          simpa only [ahead, hadd] using hbyte
        · have hbyte := h.ne
          simpa only [ahead, hadd] using hbyte
      rw [cmpsbs, if_pos h0, cmpsb_decRcx hdf, ih (s := s.ahead 1) hdf hnext, ahead_succ]

end Machine

end EvtDrivenOs.Lib.X64
