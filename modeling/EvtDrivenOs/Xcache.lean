/-
The cache ranges of the MicroBlaze port.

`sys.S` hands the cache instructions one address for each line of a range, from the last
line down for the second level and from the first one up for the first level.
`xcache.c` combines the two levels for its write-through policy.
-/
import EvtDrivenOs.Lib.Cache
import Mathlib.Data.List.Range
import Mathlib.Tactic.Ring

namespace EvtDrivenOs.Xcache

open EvtDrivenOs.Lib

/-- An address. -/
abbrev Addr := BitVec 32

/-- A byte. -/
abbrev Byte := BitVec 8

/-- Four words make a line of the first level, sixteen one of the second. -/
def l1Line (a : Addr) : ℕ := a.toNat / 16

/-- The line of the second level: it has 64 bytes. -/
def l2Line (a : Addr) : ℕ := a.toNat / 64

/-- The data caches and the memory. -/
abbrev DCache := Caches Addr Byte ℕ ℕ

/-! ### The loops over a range -/

/-- The addresses that the loop of the second level hands to `wdc.ext`.  `r6` falls by 64 to
zero, so that `r6 / 64 + 1` turns are enough. -/
def mbL2Start (r5 : Addr) : ℕ → Addr → List Addr
  | 0, _ => []
  | n + 1, r6 => (r5 + r6) :: if r6 = 0 then [] else mbL2Start r5 n (r6 + -(4 * 16))

/-- `_mb_l2_cache_invalidate_range` -/
def mbL2CacheInvalidateRange (r5 r6 : Addr) : List Addr :=
  if r6 = 0 then []
  else
    let r6 := r5 + r6
    let r6 := r6 + -1
    let r6 := r6 &&& -(4 * 16)
    let r5 := r5 &&& -(4 * 16)
    let r6 := r6 - r5
    mbL2Start r5 (r6.toNat / 64 + 1) r6

/-- `_mb_l2_cache_flush_range` -/
def mbL2CacheFlushRange (r5 r6 : Addr) : List Addr :=
  if r6 = 0 then []
  else
    let r6 := r6 + -1
    let r6 := r5 + r6
    let r6 := r6 &&& -(4 * 16)
    let r5 := r5 &&& -(4 * 16)
    let r6 := r6 - r5
    mbL2Start r5 (r6.toNat / 64 + 1) r6

/-- The addresses that the loop of the first level hands to `wdc`.  If the turns do not
suffice, `r5` has passed the end of the address space and the loop never ends. -/
def mbL1InvStart (r6 : Addr) : ℕ → Addr → Option (List Addr)
  | 0, _ => none
  | n + 1, r5 =>
    if r6 < r5 then some []
    else (mbL1InvStart r6 n (r5 + 4 * 4)).map (r5 :: ·)

/-- `_mb_l1_cache_invalidate_range` -/
def mbL1CacheInvalidateRange (r5 r6 : Addr) : Option (List Addr) :=
  if r6 = 0 then some []
  else
    let r6 := r5 + r6
    let r6 := r6 + -1
    let r6 := r6 &&& -(4 * 4)
    let r5 := r5 &&& -(4 * 4)
    mbL1InvStart r6 ((r6.toNat - r5.toNat) / 16 + 2) r5

/-- `_xdcache_flush` -/
def xdcacheFlush (mem s : Addr) (c : DCache) : Option DCache := do
  let c := ((mbL2CacheFlushRange mem s).map l2Line).foldl (Caches.flush₂ l2Line) c
  let lines ← mbL1CacheInvalidateRange mem s
  some ((lines.map l1Line).foldl Caches.clear₁ c)

/-- `_xdcache_invalidate` -/
def xdcacheInvalidate (mem s : Addr) (c : DCache) : Option DCache := do
  let c := ((mbL2CacheInvalidateRange mem s).map l2Line).foldl Caches.clear₂ c
  let lines ← mbL1CacheInvalidateRange mem s
  some ((lines.map l1Line).foldl Caches.clear₁ c)

/-! ### The lines of a range -/

/-- Masking the low bits gives the address at which a line begins. -/
lemma toNat_and_allOnes_shiftLeft (x : Addr) {k : ℕ} (hk : k < 32) :
    (x &&& (BitVec.allOnes 32 <<< k)).toNat = 2 ^ k * (x.toNat / 2 ^ k) := by
  have h : x &&& (BitVec.allOnes 32 <<< k) = (x >>> k) <<< k := by
    apply BitVec.eq_of_getLsbD_eq
    intro i hi
    simp only [BitVec.getLsbD_and, BitVec.getLsbD_shiftLeft, BitVec.getLsbD_ushiftRight,
      BitVec.getLsbD_allOnes]
    by_cases hik : i < k
    · simp [hik]
    · simp [hik, hi, show i - k < 32 by omega, show k + (i - k) = i by omega]
  rw [h, BitVec.toNat_shiftLeft, BitVec.toNat_ushiftRight, Nat.shiftLeft_eq,
    Nat.shiftRight_eq_div_pow, Nat.mod_eq_of_lt, mul_comm]
  exact (Nat.div_mul_le_self _ _).trans_lt x.isLt

lemma toNat_l2Start (x : Addr) : (x &&& -(4 * 16)).toNat = 64 * l2Line x := by
  rw [show -(4 * 16 : Addr) = BitVec.allOnes 32 <<< 6 by decide]
  exact toNat_and_allOnes_shiftLeft x (by omega)

lemma toNat_l1Start (x : Addr) : (x &&& -(4 * 4)).toNat = 16 * l1Line x := by
  rw [show -(4 * 4 : Addr) = BitVec.allOnes 32 <<< 4 by decide]
  exact toNat_and_allOnes_shiftLeft x (by omega)

/-- The loop of the second level meets `n + 1` lines, the last one first. -/
lemma map_l2Line_mbL2Start {r5 r6 : Addr} {f n : ℕ} (hr5 : r5.toNat = 64 * f)
    (hr6 : r6.toNat = 64 * n) (hend : 64 * (f + n) < 2 ^ 32) :
    (mbL2Start r5 (n + 1) r6).map l2Line = (List.range' f (n + 1)).reverse := by
  induction n generalizing r6 with
  | zero =>
    have h0 : r6 = 0 := BitVec.eq_of_toNat_eq hr6
    have hline : l2Line (r5 + r6) = f := by
      rw [l2Line, BitVec.toNat_add, hr5, hr6]
      omega
    rw [mbL2Start, if_pos h0, List.map_cons, hline]
    rfl
  | succ n ih =>
    have hne : r6 ≠ 0 := by
      rintro rfl
      simp at hr6
    have hline : l2Line (r5 + r6) = f + (n + 1) := by
      rw [l2Line, BitVec.toNat_add, hr5, hr6]
      omega
    have hr6' : (r6 + -(4 * 16)).toNat = 64 * n := by
      have hneg : (-(4 * 16) : Addr).toNat = 2 ^ 32 - 64 := by decide
      rw [BitVec.toNat_add, hneg, hr6]
      omega
    have hsplit : List.range' f (n + 1 + 1) = List.range' f (n + 1) ++ [f + 1 * (n + 1)] :=
      List.range'_concat
    rw [mbL2Start, if_neg hne, List.map_cons, hline, ih hr6' (by omega), hsplit,
      List.reverse_append, one_mul]
    rfl

/-- The names of the lines, of `2 ^ k` bytes each, from the one of `mem` to the one of the last of
`len` bytes. -/
def linesOf (size : ℕ) (mem len : Addr) : List ℕ :=
  List.range' (mem.toNat / size) ((mem.toNat + len.toNat - 1) / size + 1 - mem.toNat / size)

lemma mem_linesOf {size k : ℕ} {mem len : Addr} (hlen : len ≠ 0) :
    k ∈ linesOf size mem len ↔
      mem.toNat / size ≤ k ∧ k ≤ (mem.toNat + len.toNat - 1) / size := by
  have hpos : len.toNat ≠ 0 := fun h => hlen (BitVec.eq_of_toNat_eq h)
  have hle : mem.toNat / size ≤ (mem.toNat + len.toNat - 1) / size :=
    Nat.div_le_div_right (by omega)
  rw [linesOf, List.mem_range'_1]
  omega

/-- The end of a range that does not wrap. -/
lemma toNat_last {mem len : Addr} (hlen : len ≠ 0) (hend : mem.toNat + len.toNat ≤ 2 ^ 32) :
    (mem + len + -1).toNat = mem.toNat + len.toNat - 1 := by
  have hpos : len.toNat ≠ 0 := fun h => hlen (BitVec.eq_of_toNat_eq h)
  have hneg : (-1 : Addr).toNat = 2 ^ 32 - 1 := by decide
  rw [BitVec.toNat_add, BitVec.toNat_add, hneg]
  omega

lemma map_l2Line_invalidate {mem len : Addr} (hlen : len ≠ 0)
    (hend : mem.toNat + len.toNat ≤ 2 ^ 32) :
    (mbL2CacheInvalidateRange mem len).map l2Line = (linesOf 64 mem len).reverse := by
  have hlast := toNat_last hlen hend
  have hfst := toNat_l2Start mem
  have hlst := toNat_l2Start (mem + len + -1)
  have hmem := mem.isLt
  have hpos : len.toNat ≠ 0 := fun h => hlen (BitVec.eq_of_toNat_eq h)
  rw [mbL2CacheInvalidateRange, if_neg hlen]
  simp only [l2Line, hlast] at hfst hlst
  have hle : mem.toNat / 64 ≤ (mem.toNat + len.toNat - 1) / 64 := Nat.div_le_div_right (by omega)
  have hr6 : ((mem + len + -1 &&& -(4 * 16)) - (mem &&& -(4 * 16))).toNat =
      64 * ((mem.toNat + len.toNat - 1) / 64 - mem.toNat / 64) := by
    rw [BitVec.toNat_sub, hfst, hlst]
    omega
  have hturns : 64 * ((mem.toNat + len.toNat - 1) / 64 - mem.toNat / 64) / 64 + 1 =
      ((mem.toNat + len.toNat - 1) / 64 - mem.toNat / 64) + 1 := by omega
  simp only [hr6, hturns]
  rw [map_l2Line_mbL2Start hfst hr6 (by omega), linesOf, Nat.sub_add_comm hle]

lemma map_l2Line_flush {mem len : Addr} (hlen : len ≠ 0) (hend : mem.toNat + len.toNat ≤ 2 ^ 32) :
    (mbL2CacheFlushRange mem len).map l2Line = (linesOf 64 mem len).reverse := by
  rw [← map_l2Line_invalidate hlen hend, mbL2CacheFlushRange, mbL2CacheInvalidateRange]
  simp only [BitVec.add_assoc]

/-- The loop of the first level meets the lines up to the last one and ends, unless that
one is the last of the address space. -/
lemma map_l1Line_mbL1InvStart {r5 r6 : Addr} {f n l : ℕ} (hr5 : r5.toNat = 16 * f)
    (hr6 : r6.toNat = 16 * l) (hn : f + n = l + 1) (hend : 16 * l < 2 ^ 32 - 16) :
    ∃ as, mbL1InvStart r6 (n + 1) r5 = some as ∧ as.map l1Line = List.range' f n := by
  induction n generalizing r5 f with
  | zero =>
    have hlt : r6 < r5 := by
      rw [BitVec.lt_def, hr5, hr6]
      omega
    exact ⟨[], by rw [mbL1InvStart, if_pos hlt], rfl⟩
  | succ n ih =>
    have hlt : ¬ r6 < r5 := by
      rw [BitVec.lt_def, hr5, hr6]
      omega
    have hr5' : (r5 + 4 * 4).toNat = 16 * (f + 1) := by
      have h16 : (4 * 4 : Addr).toNat = 16 := by decide
      rw [BitVec.toNat_add, h16, hr5]
      omega
    obtain ⟨as, has, hmap⟩ := ih hr5' (by omega)
    refine ⟨r5 :: as, by rw [mbL1InvStart, if_neg hlt, has, Option.map_some], ?_⟩
    have hline : l1Line r5 = f := by
      rw [l1Line, hr5]
      omega
    rw [List.map_cons, hline, hmap, List.range'_succ]

lemma map_l1Line_invalidate {mem len : Addr} (hlen : len ≠ 0)
    (hend : mem.toNat + len.toNat ≤ 2 ^ 32 - 16) :
    ∃ as, mbL1CacheInvalidateRange mem len = some as ∧ as.map l1Line = linesOf 16 mem len := by
  have hlast := toNat_last hlen (show mem.toNat + len.toNat ≤ 2 ^ 32 by omega)
  have hfst := toNat_l1Start mem
  have hlst := toNat_l1Start (mem + len + -1)
  have hpos : len.toNat ≠ 0 := fun h => hlen (BitVec.eq_of_toNat_eq h)
  simp only [l1Line, hlast] at hfst hlst
  have hle : mem.toNat / 16 ≤ (mem.toNat + len.toNat - 1) / 16 := Nat.div_le_div_right (by omega)
  obtain ⟨as, has, hmap⟩ := map_l1Line_mbL1InvStart (n := (mem.toNat + len.toNat - 1) / 16 + 1 -
    mem.toNat / 16) hfst hlst (by omega) (by omega)
  refine ⟨as, ?_, hmap⟩
  have hturns : (16 * ((mem.toNat + len.toNat - 1) / 16) - 16 * (mem.toNat / 16)) / 16 + 2 =
      (mem.toNat + len.toNat - 1) / 16 + 1 - mem.toNat / 16 + 1 := by omega
  rw [mbL1CacheInvalidateRange, if_neg hlen]
  simp only [hfst, hlst, hturns]
  exact has

/-! ### Ranges that end -/

/-- The last byte of the range is not in the last line of the address space. -/
def Ends (mem len : Addr) : Prop := l1Line (mem + len + -1) ≠ 2 ^ 28 - 1

/-- With the last line of the address space for its end, the loop goes round for ever. -/
lemma mbL1InvStart_eq_none {r6 : Addr} (hr6 : r6.toNat = 16 * (2 ^ 28 - 1)) (n : ℕ) {r5 : Addr}
    (hr5 : r5.toNat % 16 = 0) : mbL1InvStart r6 n r5 = none := by
  induction n generalizing r5 with
  | zero => rfl
  | succ n ih =>
    have hlt : ¬ r6 < r5 := by
      have := r5.isLt
      rw [BitVec.lt_def, hr6]
      omega
    have hr5' : (r5 + 4 * 4).toNat % 16 = 0 := by
      have h16 : (4 * 4 : Addr).toNat = 16 := by decide
      rw [BitVec.toNat_add, h16]
      omega
    rw [mbL1InvStart, if_neg hlt, ih hr5', Option.map_none]

lemma isSome_mbL1CacheInvalidateRange {mem len : Addr} (hlen : len ≠ 0) :
    (mbL1CacheInvalidateRange mem len).isSome ↔ Ends mem len := by
  have hfst := toNat_l1Start mem
  have hlst := toNat_l1Start (mem + len + -1)
  have hbound := (mem + len + -1).isLt
  rw [mbL1CacheInvalidateRange, if_neg hlen, Ends]
  simp only [hfst, hlst]
  by_cases hend : l1Line (mem + len + -1) = 2 ^ 28 - 1
  · rw [hend] at hlst
    rw [mbL1InvStart_eq_none hlst _ (by omega)]
    exact ⟨fun h => (Bool.false_ne_true h).elim, fun h => absurd hend h⟩
  · simp only [hend, not_false_eq_true, iff_true, ne_eq]
    have hl : l1Line (mem + len + -1) < 2 ^ 28 - 1 := by
      simp only [l1Line] at hend ⊢
      omega
    by_cases hle : l1Line mem ≤ l1Line (mem + len + -1)
    · have hturns : (16 * l1Line (mem + len + -1) - 16 * l1Line mem) / 16 + 2 =
          l1Line (mem + len + -1) + 1 - l1Line mem + 1 := by omega
      obtain ⟨as, has, -⟩ := map_l1Line_mbL1InvStart (n := l1Line (mem + len + -1) + 1 -
        l1Line mem) hfst hlst (by omega) (by omega)
      rw [hturns, has, Option.isSome_some]
    · have hlt : mem + len + -1 &&& -(4 * 4) < mem &&& -(4 * 4) := by
        rw [BitVec.lt_def, hfst, hlst]
        omega
      rw [mbL1InvStart, if_pos hlt, Option.isSome_some]

lemma isSome_xdcacheInvalidate {mem len : Addr} (hlen : len ≠ 0) (c : DCache) :
    (xdcacheInvalidate mem len c).isSome ↔ Ends mem len := by
  rw [← isSome_mbL1CacheInvalidateRange hlen, xdcacheInvalidate, Option.bind_eq_bind,
    Option.isSome_bind]
  simp

lemma isSome_xdcacheFlush {mem len : Addr} (hlen : len ≠ 0) (c : DCache) :
    (xdcacheFlush mem len c).isSome ↔ Ends mem len := by
  rw [← isSome_mbL1CacheInvalidateRange hlen, xdcacheFlush, Option.bind_eq_bind,
    Option.isSome_bind]
  simp

/-! ### What the two functions do -/

/-- Every line of the range is dropped in both levels. -/
lemma xdcacheInvalidate_spec {mem len : Addr} (hlen : len ≠ 0)
    (hend : mem.toNat + len.toNat ≤ 2 ^ 32 - 16) (c : DCache) :
    ∃ c', xdcacheInvalidate mem len c = some c' ∧ c'.mem = c.mem ∧
      (∀ a, c'.backing l2Line a =
        if l2Line a ∈ linesOf 64 mem len then c.mem a else c.backing l2Line a) ∧
      ∀ a, l1Line a ∈ linesOf 16 mem len → c'.view l1Line l2Line a = c'.backing l2Line a := by
  obtain ⟨as, has, hmap⟩ := map_l1Line_invalidate hlen hend
  obtain ⟨hmem, hback⟩ := Caches.foldl_clear₂ l2Line c (linesOf 64 mem len).reverse
  refine ⟨_, by rw [xdcacheInvalidate, has]; rfl, ?_, fun a => ?_, fun a ha => ?_⟩
  · rw [Caches.mem_foldl_clear₁, map_l2Line_invalidate hlen (by omega), hmem]
  · rw [Caches.backing_foldl_clear₁, map_l2Line_invalidate hlen (by omega), hback]
    simp only [List.mem_reverse]
  · rw [Caches.view_foldl_clear₁, hmap, if_pos ha, Caches.backing_foldl_clear₁]

/-- What is pending in the range is written back. -/
lemma xdcacheFlush_spec {mem len : Addr} (hlen : len ≠ 0)
    (hend : mem.toNat + len.toNat ≤ 2 ^ 32 - 16) (c : DCache) :
    ∃ c', xdcacheFlush mem len c = some c' ∧ c'.backing l2Line = c.backing l2Line ∧
      ∀ a, l2Line a ∈ linesOf 64 mem len → c.Pending (l2Line a) →
        c'.mem a = c.backing l2Line a := by
  obtain ⟨as, has, -⟩ := map_l1Line_invalidate hlen hend
  refine ⟨_, by rw [xdcacheFlush, has]; rfl, ?_, fun a ha hpend => ?_⟩
  · rw [Caches.backing_foldl_clear₁, Caches.backing_foldl_flush₂]
  · rw [Caches.mem_foldl_clear₁, map_l2Line_flush hlen (by omega)]
    exact Caches.mem_foldl_flush₂ (List.mem_reverse.mpr ha) hpend

/-- Behind the flush the processor sees in the range what the second level and the memory hold,
and elsewhere nothing new; and the memory gets nothing but what was seen there. -/
lemma xdcacheFlush_rest {mem len : Addr} (hlen : len ≠ 0)
    (hend : mem.toNat + len.toNat ≤ 2 ^ 32 - 16) {c c' : DCache}
    (h : xdcacheFlush mem len c = some c') :
    (∀ a, l1Line a ∈ linesOf 16 mem len → c'.view l1Line l2Line a = c'.backing l2Line a) ∧
      (∀ a, c'.view l1Line l2Line a = c.view l1Line l2Line a ∨
        c'.view l1Line l2Line a = c.backing l2Line a) ∧
      ∀ a, c'.mem a = c.mem a ∨ c'.mem a = c.backing l2Line a := by
  obtain ⟨as, has, hmap⟩ := map_l1Line_invalidate hlen hend
  rw [xdcacheFlush, has] at h
  obtain rfl := Option.some.inj h
  refine ⟨fun a ha => ?_, fun a => ?_, fun a => ?_⟩
  · rw [Caches.view_foldl_clear₁, hmap, if_pos ha, Caches.backing_foldl_clear₁]
  · rw [Caches.view_foldl_clear₁, Caches.backing_foldl_flush₂, Caches.view_foldl_flush₂]
    split
    · exact Or.inr rfl
    · exact Or.inl rfl
  · rw [Caches.mem_foldl_clear₁]
    exact Caches.mem_foldl_flush₂_or _ a

end EvtDrivenOs.Xcache
