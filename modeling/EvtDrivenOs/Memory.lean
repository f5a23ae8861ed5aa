/-
The memory functions of the x86-64 build, over the string instructions on bytes.

`memmove` is the forward copy of `memcpy`; `memcmp` gives the 8-bit difference of the first
two bytes that differ, with its sign bit extended.
-/
import EvtDrivenOs.Lib.X64Bytes

namespace EvtDrivenOs.Memory

open EvtDrivenOs.Lib.X64

/-! ### The routines -/

/-- `rdi` has the destination, `rsi` the source and `rdx` the number of bytes; `rax` gets the
destination. -/
def archMemcpy (s : Machine) : Option Machine :=
  let s := s.pushfq
  let s := s.push s.rcx
  let s := s.cld
  let s := { s with rax := s.rdi }
  let s := { s with rcx := s.rdx }
  let s := s.repMovsb
  let s := s.popRcx
  some s.popfq

/-- `_arch_memmove` calls `_arch_memcpy`. -/
def archMemmove (s : Machine) : Option Machine := s.call 1 archMemcpy

/-- The instructions between the `jz` of `_arch_memcmp` and `.mem_cmp_done`. -/
def memCmpDiff (s : Machine) : Machine :=
  let s := s.setAl (s.mem (s.rdi - 1))
  let s := s.setAl (s.al - s.mem (s.rsi - 1))
  let s := s.cbw
  { s with rax := (s.rax.setWidth 16).signExtend 64 }

/-- `rdi` and `rsi` have the arrays and `rdx` the number of bytes. -/
def archMemcmp (s : Machine) : Option Machine :=
  let s := s.pushfq
  let s := s.push s.rcx
  let s := s.cld
  let s := { s with rax := 0 } -- sets the zero flag
  let s := { s with rcx := s.rdx }
  let r := s.repzCmpsb true
  let s := if r.2 then r.1 else memCmpDiff r.1
  let s := s.popRcx
  some s.popfq

/-- The state after the call; `rax` has what the function returns. -/
def memmove (dest src n : BitVec 64) (s : Machine) : Option Machine :=
  { s with rdi := dest, rsi := src, rdx := n }.call 1 archMemmove

/-- The `int` that the function returns. -/
def memcmp (s1 s2 n : BitVec 64) (s : Machine) : Option (BitVec 32) :=
  ({ s with rdi := s1, rsi := s2, rdx := n }.call 1 archMemcmp).map
    fun (t : Machine) => t.rax.setWidth 32

/-! ### `memmove` -/

/-- What `memmove` is to do: `n` bytes at `dest` are those that were at `src` before, no
other byte has changed, and `dest` is returned. -/
structure Moves (dest src : BitVec 64) (n : ℕ) (s t : Machine) : Prop where
  /-- The destination has what the source had. -/
  copied : ∀ i < n, t.mem (dest + BitVec.ofNat 64 i) = s.mem (src + BitVec.ofNat 64 i)
  /-- Nothing else has changed. -/
  frame : ∀ a, (∀ i < n, a ≠ dest + BitVec.ofNat 64 i) → t.mem a = s.mem a
  /-- The result is the destination. -/
  returned : t.rax = dest

variable {s : Machine}

/-- The state in which `rep movsb` starts. -/
def copyEntry (s : Machine) : Machine :=
  { ((s.pushfq).push s.rcx).cld with rax := s.rdi, rcx := s.rdx }

lemma archMemcpy_eq (s : Machine) :
    archMemcpy s = some { (copyEntry s).repMovsb with
      rcx := s.rcx, df := s.df, stack := s.stack, rsp := s.rsp } := by
  have hcopy := Copying.repMovsb (s := copyEntry s) rfl
  have hstack : (copyEntry s).repMovsb.stack = s.rcx :: s.flags :: s.stack := by
    rw [hcopy.regs]
    rfl
  have hrsp : (copyEntry s).repMovsb.rsp = s.rsp - 8 - 8 := by
    rw [hcopy.regs]
    rfl
  change some ((copyEntry s).repMovsb.popRcx.popfq) = _
  simp [hstack, hrsp]

/-- The registers that a call of `memmove` sets, and the return addresses on the stack. -/
def moveCall (dest src n : BitVec 64) (s : Machine) : Machine :=
  (({ s with rdi := dest, rsi := src, rdx := n }).push 1).push 1

/-- A call of `memmove` is one run of `rep movsb`. -/
lemma memmove_eq (dest src n : BitVec 64) (s : Machine) :
    memmove dest src n s = some { (copyEntry (moveCall dest src n s)).repMovsb with
      rcx := s.rcx, df := s.df, stack := s.stack, rsp := s.rsp } := by
  have hmove : archMemmove (({ s with rdi := dest, rsi := src, rdx := n } : Machine).push 1) =
      some { (copyEntry (moveCall dest src n s)).repMovsb with
        rcx := s.rcx, df := s.df, stack := 1 :: s.stack, rsp := s.rsp - 8 } := by
    rw [archMemmove, Machine.call_of_eq (archMemcpy_eq _) rfl]
    simp [moveCall]
  rw [memmove, Machine.call_of_eq hmove rfl]
  simp

/-- A call of `memmove` moves the bytes just if the source's bytes repeat at the distance of
the two ranges. -/
lemma moves_iff_repeats (dest src n : BitVec 64) (s : Machine) :
    (∃ t, memmove dest src n s = some t ∧ Moves dest src n.toNat s t) ↔
      ∀ i, i + (dest - src).toNat < n.toNat →
        s.mem (src + BitVec.ofNat 64 (i + (dest - src).toNat)) =
          s.mem (src + BitVec.ofNat 64 i) := by
  have hcopy : Copying (copyEntry (moveCall dest src n s)) n.toNat _ := Copying.repMovsb rfl
  constructor
  · rintro ⟨t, ht, hmove⟩
    rw [memmove_eq] at ht
    cases ht
    exact hcopy.copied_iff.mp hmove.copied
  · intro hrep
    refine ⟨_, memmove_eq dest src n s, hcopy.copied_iff.mpr hrep, hcopy.frame, ?_⟩
    -- `rep movsb` leaves `rax`, which has the destination
    change (copyEntry (moveCall dest src n s)).repMovsb.rax = dest
    rw [hcopy.regs]
    rfl

/-- For ranges that do not wrap around: `memmove` moves the bytes if and only if the
destination does not start inside the source, or the source's bytes repeat at the distance
of the two ranges. -/
theorem memmove_moves_iff {dest src n : BitVec 64} (s : Machine)
    (hsrc : src.toNat + n.toNat ≤ 2 ^ 64) :
    (∃ t, memmove dest src n s = some t ∧ Moves dest src n.toNat s t) ↔
      dest ≤ src ∨ src.toNat + n.toNat ≤ dest.toNat ∨
        ∀ i, i + (dest.toNat - src.toNat) < n.toNat →
          s.mem (src + BitVec.ofNat 64 (i + (dest.toNat - src.toNat))) =
            s.mem (src + BitVec.ofNat 64 i) := by
  rw [moves_iff_repeats]
  rcases Nat.le_total dest.toNat src.toNat with hle | hle
  · -- below the source the gap is no part of a range, or is nothing
    refine iff_of_true (fun i hi => ?_) (.inl (BitVec.le_def.mpr hle))
    rw [BitVec.toNat_sub] at hi ⊢
    have hzero : (2 ^ 64 - src.toNat + dest.toNat) % 2 ^ 64 = 0 := by omega
    rw [hzero, Nat.add_zero]
  · have hgap : (dest - src).toNat = dest.toNat - src.toNat :=
      BitVec.toNat_sub_of_le (BitVec.le_def.mpr hle)
    rw [hgap]
    constructor
    · exact fun hrep => .inr (.inr hrep)
    · rintro (hge | hfar | hrep) i hi
      · have hge' := BitVec.le_def.mp hge
        have hzero : dest.toNat - src.toNat = 0 := by omega
        rw [hzero, Nat.add_zero]
      · omega
      · exact hrep i hi

/-- A machine with the given memory. -/
def holding (m : BitVec 64 → BitVec 8) : Machine where
  rax := 0
  rbx := 0
  rcx := 0
  rdx := 0
  rsi := 0
  rdi := 0
  r8 := 0
  r12 := 0
  rsp := 0
  df := false
  stack := []
  mem := m
  inp := fun _ => Stream'.const 0
  log := []

theorem memmove_moves_apart :
    ∃ t, memmove 0x2000 0x1000 16 (holding fun a => a.setWidth 8) = some t ∧
      Moves 0x2000 0x1000 16 (holding fun a => a.setWidth 8) t :=
  (memmove_moves_iff _ (by decide)).mpr (.inr (.inl (by decide)))

/-- Two bytes, `0` and `1`, are to be moved up by one: the first overwrites the second before
that is read. -/
theorem memmove_overwrites :
    ¬ ∃ t, memmove 1 0 2 (holding fun a => a.setWidth 8) = some t ∧
      Moves 1 0 2 (holding fun a => a.setWidth 8) t := by
  intro h
  have hrep := (moves_iff_repeats 1 0 2 _).mp h 0 (by decide)
  exact absurd hrep (by decide)

/-! ### `memcmp` -/

/-- The state in which `repz cmpsb` starts. -/
def compareEntry (s1 s2 n : BitVec 64) (s : Machine) : Machine :=
  { ((({ s with rdi := s1, rsi := s2, rdx := n } : Machine).push 1).pushfq.push s.rcx).cld with
    rax := 0, rcx := n }

lemma signExtend_int (v : BitVec 8) :
    ((v.signExtend 16).signExtend 64).setWidth 32 = v.signExtend 32 := by
  apply BitVec.eq_of_getLsbD_eq
  intro i hi
  simp only [BitVec.getLsbD_setWidth, BitVec.getLsbD_signExtend, BitVec.msb_signExtend]
  grind

lemma memCmpDiff_eq (s : Machine) : memCmpDiff s = { s with
    rax := ((s.mem (s.rdi - 1) - s.mem (s.rsi - 1)).signExtend 16).signExtend 64 } := by
  simp [memCmpDiff]

/-- What `memcmp` returns, by how `repz cmpsb` ends. -/
lemma memcmp_eq {s1 s2 n : BitVec 64} {k : ℕ} {zf : Bool}
    (h : (compareEntry s1 s2 n s).repzCmpsb true = ((compareEntry s1 s2 n s).ahead k, zf)) :
    memcmp s1 s2 n s = some (if zf then 0 else
      (s.mem (s1 + BitVec.ofNat 64 k - 1) - s.mem (s2 + BitVec.ofNat 64 k - 1)).signExtend 32) := by
  have hrun : archMemcmp (({ s with rdi := s1, rsi := s2, rdx := n } : Machine).push 1) =
      some (if zf then (compareEntry s1 s2 n s).ahead k
        else memCmpDiff ((compareEntry s1 s2 n s).ahead k)).popRcx.popfq := by
    change some (if ((compareEntry s1 s2 n s).repzCmpsb true).2
      then ((compareEntry s1 s2 n s).repzCmpsb true).1
      else memCmpDiff ((compareEntry s1 s2 n s).repzCmpsb true).1).popRcx.popfq = _
    rw [h]
  cases zf with
  | true =>
    rw [memcmp, Machine.call_of_eq hrun rfl]
    rfl
  | false =>
    rw [memCmpDiff_eq] at hrun
    rw [memcmp, Machine.call_of_eq hrun rfl, ← signExtend_int]
    rfl

lemma memcmp_of_eq {s1 s2 n : BitVec 64}
    (h : ∀ i < n.toNat, s.mem (s1 + BitVec.ofNat 64 i) = s.mem (s2 + BitVec.ofNat 64 i)) :
    memcmp s1 s2 n s = some 0 :=
  memcmp_eq (Machine.cmpsbs_of_eq rfl fun i hi => (h i hi).symm)

lemma memcmp_of_firstDiff {s1 s2 n : BitVec 64} {k : ℕ}
    (h : FirstDiff s.mem s1 s2 n.toNat k) :
    memcmp s1 s2 n s = some ((s.mem (s1 + BitVec.ofNat 64 k) -
      s.mem (s2 + BitVec.ofNat 64 k)).signExtend 32) := by
  have hcmp := memcmp_eq (Machine.cmpsbs_of_firstDiff (s := compareEntry s1 s2 n s) rfl h.symm)
  have hback : ∀ a : BitVec 64, a + BitVec.ofNat 64 (k + 1) - 1 = a + BitVec.ofNat 64 k := by
    intro a
    rw [BitVec.ofNat_add, ← add_assoc]
    exact add_sub_cancel_right _ _
  rw [hback, hback] at hcmp
  exact hcmp

/-- What `memcmp` is to do: `r` is what it returns for `s1` and `s2`, and `r'` for the two
the other way round. -/
structure Compares (m : BitVec 64 → BitVec 8) (s1 s2 : BitVec 64) (n : ℕ) (r r' : BitVec 32) :
    Prop where
  /-- The result is zero just if the bytes are the same. -/
  zero : r = 0 ↔ ∀ i < n, m (s1 + BitVec.ofNat 64 i) = m (s2 + BitVec.ofNat 64 i)
  /-- Its sign is that of the first difference, of the bytes as unsigned numbers. -/
  pos : ∀ k, FirstDiff m s1 s2 n k →
    (0 < r.toInt ↔ m (s2 + BitVec.ofNat 64 k) < m (s1 + BitVec.ofNat 64 k))
  /-- The result for the exchanged arguments has the opposite sign. -/
  opposite : r.toInt.sign = -r'.toInt.sign

/-- How far apart two bytes are. -/
def distance (a b : BitVec 8) : ℕ := (a.toNat - b.toNat : ℤ).natAbs

lemma difference_ne_zero {a b : BitVec 8} (hab : a ≠ b) : (a - b).signExtend 32 ≠ 0 := by
  intro h
  have hint := congrArg BitVec.toInt h
  rw [BitVec.toInt_signExtend_of_le (by decide)] at hint
  exact hab (sub_eq_zero.mp (BitVec.toInt_inj.mp hint))

lemma sign_opposite_iff {d e : ℤ} (hd : d ≠ 0) (he : e ≠ 0) :
    d.sign = -e.sign ↔ (0 < d ↔ e < 0) := by
  rcases lt_or_gt_of_ne hd with hd | hd <;> rcases lt_or_gt_of_ne he with he | he <;>
    simp [Int.sign_eq_one_of_pos, Int.sign_eq_neg_one_of_neg, hd, he, hd.asymm, he.asymm]

/-- The 8-bit difference has the right sign, in both orders, just for bytes that are less
than 128 apart. -/
lemma difference_iff {a b : BitVec 8} (hab : a ≠ b) :
    ((0 < ((a - b).signExtend 32).toInt ↔ b < a) ∧
        ((a - b).signExtend 32).toInt.sign = -((b - a).signExtend 32).toInt.sign) ↔
      distance a b < 128 := by
  have hne : a.toNat ≠ b.toNat := fun h => hab (BitVec.eq_of_toNat_eq h)
  have ha := a.isLt
  have hb := b.isLt
  have hd := BitVec.toInt_ne.mpr (difference_ne_zero hab)
  have he := BitVec.toInt_ne.mpr (difference_ne_zero hab.symm)
  rw [sign_opposite_iff hd he, BitVec.toInt_signExtend_of_le (by decide),
    BitVec.toInt_signExtend_of_le (by decide), BitVec.toInt_eq_toNat_cond,
    BitVec.toInt_eq_toNat_cond, BitVec.toNat_sub, BitVec.toNat_sub, BitVec.lt_def, distance]
  omega

/-- `memcmp` orders the arrays as it should if and only if the first bytes that differ, if
there are any, are less than 128 apart. -/
theorem memcmp_compares_iff (s1 s2 n : BitVec 64) (s : Machine) :
    (∃ r r', memcmp s1 s2 n s = some r ∧ memcmp s2 s1 n s = some r' ∧
        Compares s.mem s1 s2 n.toNat r r') ↔
      ∀ k, FirstDiff s.mem s1 s2 n.toNat k →
        distance (s.mem (s1 + BitVec.ofNat 64 k)) (s.mem (s2 + BitVec.ofNat 64 k)) < 128 := by
  rcases eq_or_firstDiff s.mem s1 s2 n.toNat with heq | ⟨k, hk⟩
  · -- equal arrays compare right
    refine iff_of_true ⟨0, 0, memcmp_of_eq heq, memcmp_of_eq fun i hi => (heq i hi).symm, ?_⟩ ?_
    · exact ⟨iff_of_true rfl heq, fun k hk => absurd (heq k hk.lt) hk.ne, rfl⟩
    · exact fun k hk => absurd (heq k hk.lt) hk.ne
  · rw [memcmp_of_firstDiff hk, memcmp_of_firstDiff hk.symm]
    constructor
    · rintro ⟨r, r', ⟨⟩, ⟨⟩, h⟩ j hj
      rw [hj.unique hk]
      exact (difference_iff hk.ne).mp ⟨h.pos k hk, h.opposite⟩
    · intro h
      obtain ⟨hpos, hopp⟩ := (difference_iff hk.ne).mpr (h k hk)
      refine ⟨_, _, rfl, rfl, ?_, ?_, hopp⟩
      · exact iff_of_false (difference_ne_zero hk.ne) fun heq => hk.ne (heq k hk.lt)
      · intro j hj
        rw [hj.unique hk]
        exact hpos

/-- `200` is above `10`, but their difference is negative as a signed byte. -/
theorem memcmp_wrong_order :
    ¬ ∃ r r', memcmp 0 1 1 (holding fun a => if a = 0 then 200 else 10) = some r ∧
      memcmp 1 0 1 (holding fun a => if a = 0 then 200 else 10) = some r' ∧
      Compares (fun a => if a = 0 then 200 else 10) 0 1 1 r r' := by
  have hfirst : FirstDiff (fun a => if a = 0 then 200 else 10) 0 1 1 0 :=
    ⟨by decide, fun i hi => absurd hi (Nat.not_lt_zero i), by decide⟩
  rintro ⟨r, r', hr, -, h⟩
  rw [memcmp_of_firstDiff (k := 0) hfirst] at hr
  cases hr
  exact absurd (h.pos 0 hfirst) (by decide)

end EvtDrivenOs.Memory
