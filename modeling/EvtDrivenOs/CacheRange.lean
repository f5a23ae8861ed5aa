/-
The cache range routines of `sys.S`, instruction by instruction.

The routines get the range in `r5` and `r6`.  On the second level they count an offset down to
zero, which the branch tests before its delay slot changes it; on the first level they count an
address up past the last line.  They hand the cache instructions the addresses that the model of
the caches takes for them (`l2Start_log`, `l1InvStart_log`), and so one in each line of the range.
-/
import EvtDrivenOs.Lib.MicroBlaze
import EvtDrivenOs.Xcache

namespace EvtDrivenOs.CacheRange

open EvtDrivenOs.Lib.MicroBlaze EvtDrivenOs.Xcache

/-! ### The routines -/

/-- The loop of both routines of the second level. -/
def l2Start (op : Wdc) : ℕ → Machine → Option Machine
  | 0, _ => none
  | fuel + 1, m =>
    let m := m.wdc op 5 6
    -- `bneid` with its delay slot
    let again := m.reg 6 ≠ 0
    let m := m.addik 6 6 (-(4 * 16))
    if again then l2Start op fuel m else some m

/-- `_mb_l2_cache_invalidate_range` -/
def mbL2CacheInvalidateRange (fuel : ℕ) (m : Machine) : Option Machine :=
  if m.reg 6 = 0 then some (m.rtsd 15 8)
  else
    let m := m.add 6 5 6
    let m := m.addik 6 6 (-1)
    let m := m.andi 6 6 (-(4 * 16))
    let m := m.andi 5 5 (-(4 * 16))
    let m := m.rsubk 6 5 6
    (l2Start .extClear fuel m).map (·.rtsd 15 8)

/-- `_mb_l2_cache_flush_range` -/
def mbL2CacheFlushRange (fuel : ℕ) (m : Machine) : Option Machine :=
  if m.reg 6 = 0 then some (m.rtsd 15 8)
  else
    let m := m.addik 6 6 (-1)
    let m := m.add 6 5 6
    let m := m.andi 6 6 (-(4 * 16))
    let m := m.andi 5 5 (-(4 * 16))
    let m := m.rsubk 6 5 6
    (l2Start .extFlush fuel m).map (·.rtsd 15 8)

/-- The loop of `_mb_l1_cache_invalidate_range`. -/
def l1InvStart : ℕ → Machine → Option Machine
  | 0, _ => none
  | fuel + 1, m =>
    let m := m.cmpu 18 5 6
    if (m.reg 18).msb then some m
    else
      let m := m.wdc .line 5 0
      l1InvStart fuel (m.addik 5 5 (4 * 4))

/-- `_mb_l1_cache_invalidate_range` -/
def mbL1CacheInvalidateRange (fuel : ℕ) (m : Machine) : Option Machine :=
  if m.reg 6 = 0 then some (m.rtsd 15 8)
  else
    let m := m.add 6 5 6
    let m := m.addik 6 6 (-1)
    let m := m.andi 6 6 (-(4 * 4))
    let m := m.andi 5 5 (-(4 * 4))
    (l1InvStart fuel m).map (·.rtsd 15 8)

/-! ### Covering a range -/

/-- Line `k`, of `size` bytes, has a byte of the range. -/
def Meets (size k : ℕ) (addr len : Addr) : Prop :=
  ∃ a, addr.toNat ≤ a ∧ a < addr.toNat + len.toNat ∧ a / size = k

/-- The routine returns.  It has issued its instruction once for each line that meets the range
in `r5` and `r6`, and for no other line, and not at all for an empty range. -/
def Covers (routine : ℕ → Machine → Option Machine) (op : Wdc) (size : ℕ) (m : Machine) : Prop :=
  ∃ rounds m' as, (∀ fuel ≥ rounds, routine fuel m = some m') ∧
    m'.log = m.log ++ as.map (op, ·) ∧ (m.reg 6 = 0 → as = []) ∧
    ∀ k, (Meets size k (m.reg 5) (m.reg 6) → (as.map (BitVec.toNat · / size)).count k = 1) ∧
      (¬ Meets size k (m.reg 5) (m.reg 6) → (as.map (BitVec.toNat · / size)).count k = 0)

lemma meets_iff {size k : ℕ} (hsize : 0 < size) {addr len : Addr} (hlen : len ≠ 0) :
    Meets size k addr len ↔ k ∈ linesOf size addr len := by
  have hpos : len.toNat ≠ 0 := fun h => hlen (BitVec.eq_of_toNat_eq h)
  rw [mem_linesOf hlen]
  constructor
  · rintro ⟨a, hle, hlt, rfl⟩
    exact ⟨Nat.div_le_div_right hle, Nat.div_le_div_right (by omega)⟩
  · rintro ⟨hfst, hlst⟩
    have hend : k * size ≤ addr.toNat + len.toNat - 1 := (Nat.le_div_iff_mul_le hsize).1 hlst
    -- the first byte of the line, or that of the range when the range begins later
    rcases Nat.le_total addr.toNat (k * size) with hle | hle
    · exact ⟨k * size, hle, by omega, Nat.mul_div_cancel k hsize⟩
    · refine ⟨addr.toNat, Nat.le_refl _, by omega, ?_⟩
      exact Nat.le_antisymm hfst ((Nat.le_div_iff_mul_le hsize).2 hle)

/-- Some addresses with one in each line of a range. -/
lemma covers_of_map {routine : ℕ → Machine → Option Machine} {op : Wdc} {size rounds : ℕ}
    {m m' : Machine} {as : List Addr} (hsize : 0 < size) (hlen : m.reg 6 ≠ 0)
    (hrun : ∀ fuel ≥ rounds, routine fuel m = some m') (hlog : m'.log = m.log ++ as.map (op, ·))
    (hmap : (as.map (BitVec.toNat · / size)).Perm (linesOf size (m.reg 5) (m.reg 6))) :
    Covers routine op size m := by
  refine ⟨rounds, m', as, hrun, hlog, fun h => absurd h hlen, fun k => ?_⟩
  have hnodup : (linesOf size (m.reg 5) (m.reg 6)).Nodup := List.nodup_range'
  rw [hmap.count_eq, meets_iff hsize hlen]
  exact ⟨fun hk => List.count_eq_one_of_mem hnodup hk, List.count_eq_zero_of_not_mem⟩

lemma covers_of_empty {routine : ℕ → Machine → Option Machine} {op : Wdc} {size : ℕ}
    {m : Machine} (hlen : m.reg 6 = 0) (hrun : ∀ fuel, routine fuel m = some (m.rtsd 15 8)) :
    Covers routine op size m := by
  refine ⟨0, _, [], fun fuel _ => hrun fuel, ?_, fun _ => rfl, fun k => ⟨?_, fun _ => rfl⟩⟩
  · exact (List.append_nil _).symm
  · rintro ⟨a, hle, hlt, -⟩
    rw [hlen] at hlt
    simp at hlt
    omega

/-! ### The second level -/

/-- The loop issues `op` for the addresses of the model, one more than there are lines to count
down. -/
lemma l2Start_log (op : Wdc) {m : Machine} {k : ℕ} (hr6 : (m.reg 6).toNat = 64 * k) :
    ∃ m', (∀ fuel > k, l2Start op fuel m = some m') ∧
      m'.log = m.log ++ (mbL2Start (m.reg 5) (k + 1) (m.reg 6)).map (op, ·) := by
  induction k generalizing m with
  | zero =>
    have h0 : m.reg 6 = 0 := BitVec.eq_of_toNat_eq hr6
    refine ⟨(m.wdc op 5 6).addik 6 6 (-(4 * 16)), fun fuel hfuel => ?_, ?_⟩
    · obtain ⟨fuel, rfl⟩ := Nat.exists_eq_succ_of_ne_zero (Nat.ne_of_gt hfuel)
      rw [l2Start, if_neg (by simp [h0])]
    · rw [mbL2Start, if_pos h0]
      rfl
  | succ k ih =>
    have hne : m.reg 6 ≠ 0 := by
      intro h0
      rw [h0] at hr6
      simp at hr6
    -- the state after one turn
    have h5 : ((m.wdc op 5 6).addik 6 6 (-(4 * 16))).reg 5 = m.reg 5 :=
      Machine.reg_setReg_of_ne _ (by decide) _
    have h6 : ((m.wdc op 5 6).addik 6 6 (-(4 * 16))).reg 6 = m.reg 6 + -(4 * 16) :=
      Machine.reg_setReg_self _ (by decide) _
    have hr6' : (m.reg 6 + -(4 * 16)).toNat = 64 * k := by
      have hneg : (-(4 * 16) : Addr).toNat = 2 ^ 32 - 64 := by decide
      rw [BitVec.toNat_add, hneg, hr6]
      omega
    obtain ⟨m', hloop, hlog⟩ := @ih ((m.wdc op 5 6).addik 6 6 (-(4 * 16))) (by rw [h6, hr6'])
    refine ⟨m', fun fuel hfuel => ?_, ?_⟩
    · obtain ⟨fuel, rfl⟩ := Nat.exists_eq_succ_of_ne_zero (by omega : fuel ≠ 0)
      rw [l2Start, if_pos (by simpa using hne)]
      exact hloop fuel (by omega)
    · have hturn : mbL2Start (m.reg 5) (k + 1 + 1) (m.reg 6) =
          (m.reg 5 + m.reg 6) :: mbL2Start (m.reg 5) (k + 1) (m.reg 6 + -(4 * 16)) := by
        rw [mbL2Start, if_neg hne]
      rw [hlog, h5, h6, hturn, List.map_cons]
      exact List.append_assoc ..

/-- The rest of a routine, from the loop on, which starts with the offset of the line of `last`
from that of `first`. -/
lemma l2Start_return_log (op : Wdc) {m : Machine} {first last : Addr}
    (h6 : m.reg 6 = (last &&& -(4 * 16)) - (first &&& -(4 * 16))) :
    ∃ rounds m', (∀ fuel ≥ rounds, (l2Start op fuel m).map (·.rtsd 15 8) = some m') ∧
      m'.log = m.log ++
        (mbL2Start (m.reg 5) ((m.reg 6).toNat / 64 + 1) (m.reg 6)).map (op, ·) := by
  -- the offset is one of whole lines
  have hlines : (m.reg 6).toNat = 64 * ((m.reg 6).toNat / 64) := by
    have hfst := toNat_l2Start first
    have hlst := toNat_l2Start last
    rw [h6, BitVec.toNat_sub, hfst, hlst]
    simp only [l2Line]
    omega
  obtain ⟨m', hloop, hlog⟩ := l2Start_log op hlines
  refine ⟨(m.reg 6).toNat / 64 + 1, m'.rtsd 15 8, fun fuel hfuel => ?_, hlog⟩
  rw [hloop fuel (by omega), Option.map_some]

/-- The routines of the second level do what the model of the caches says. -/
lemma mbL2CacheInvalidateRange_log {m : Machine} (hlen : m.reg 6 ≠ 0) :
    ∃ rounds m', (∀ fuel ≥ rounds, mbL2CacheInvalidateRange fuel m = some m') ∧
      m'.log = m.log ++
        (Xcache.mbL2CacheInvalidateRange (m.reg 5) (m.reg 6)).map (Wdc.extClear, ·) := by
  let m₁ := ((((m.add 6 5 6).addik 6 6 (-1)).andi 6 6 (-(4 * 16))).andi 5 5 (-(4 * 16))).rsubk 6 5 6
  have h5 : m₁.reg 5 = m.reg 5 &&& -(4 * 16) := by
    simp [m₁, Machine.add, Machine.addik, Machine.andi, Machine.rsubk, Machine.reg_setReg]
  have h6 : m₁.reg 6 =
      (m.reg 5 + m.reg 6 + -1 &&& -(4 * 16)) - (m.reg 5 &&& -(4 * 16)) := by
    simp [m₁, Machine.add, Machine.addik, Machine.andi, Machine.rsubk, Machine.reg_setReg]
  obtain ⟨rounds, m', hrun, hlog⟩ := l2Start_return_log .extClear h6
  refine ⟨rounds, m', fun fuel hfuel => ?_, ?_⟩
  · rw [mbL2CacheInvalidateRange, if_neg hlen]
    exact hrun fuel hfuel
  · rw [hlog, h5, h6, Xcache.mbL2CacheInvalidateRange, if_neg hlen]
    rfl

lemma mbL2CacheFlushRange_log {m : Machine} (hlen : m.reg 6 ≠ 0) :
    ∃ rounds m', (∀ fuel ≥ rounds, mbL2CacheFlushRange fuel m = some m') ∧
      m'.log = m.log ++
        (Xcache.mbL2CacheFlushRange (m.reg 5) (m.reg 6)).map (Wdc.extFlush, ·) := by
  let m₁ := ((((m.addik 6 6 (-1)).add 6 5 6).andi 6 6 (-(4 * 16))).andi 5 5 (-(4 * 16))).rsubk 6 5 6
  have h5 : m₁.reg 5 = m.reg 5 &&& -(4 * 16) := by
    simp [m₁, Machine.add, Machine.addik, Machine.andi, Machine.rsubk, Machine.reg_setReg]
  have h6 : m₁.reg 6 =
      (m.reg 5 + (m.reg 6 + -1) &&& -(4 * 16)) - (m.reg 5 &&& -(4 * 16)) := by
    simp [m₁, Machine.add, Machine.addik, Machine.andi, Machine.rsubk, Machine.reg_setReg]
  obtain ⟨rounds, m', hrun, hlog⟩ := l2Start_return_log .extFlush h6
  refine ⟨rounds, m', fun fuel hfuel => ?_, ?_⟩
  · rw [mbL2CacheFlushRange, if_neg hlen]
    exact hrun fuel hfuel
  · rw [hlog, h5, h6, Xcache.mbL2CacheFlushRange, if_neg hlen]
    rfl

/-! ### The first level -/

/-- The loop issues `wdc` for the addresses of the model, and ends where that does. -/
lemma l1InvStart_log {m : Machine} {n : ℕ} {as : List Addr}
    (h : mbL1InvStart (m.reg 6) n (m.reg 5) = some as) :
    ∃ m', (∀ fuel ≥ n, l1InvStart fuel m = some m') ∧
      m'.log = m.log ++ as.map (Wdc.line, ·) := by
  induction n generalizing m as with
  | zero => cases h
  | succ n ih =>
    have hcmpu : ((m.cmpu 18 5 6).reg 18).msb = decide (m.reg 6 < m.reg 5) :=
      Machine.msb_reg_cmpu _ (by decide) _ _
    rw [mbL1InvStart] at h
    split at h
    case isTrue hlt =>
      obtain rfl := Option.some.inj h
      refine ⟨m.cmpu 18 5 6, fun fuel hfuel => ?_, ?_⟩
      · obtain ⟨fuel, rfl⟩ := Nat.exists_eq_succ_of_ne_zero (by omega : fuel ≠ 0)
        rw [l1InvStart, if_pos (by rw [hcmpu, decide_eq_true hlt])]
      · exact (List.append_nil _).symm
    case isFalse hge =>
      obtain ⟨as', has', rfl⟩ := Option.map_eq_some_iff.1 h
      have h5 : (((m.cmpu 18 5 6).wdc .line 5 0).addik 5 5 (4 * 4)).reg 5 = m.reg 5 + 4 * 4 := by
        rw [Machine.addik, Machine.reg_setReg_self _ (by decide), Machine.wdc_reg, Machine.cmpu,
          Machine.reg_setReg_of_ne _ (by decide)]
      have h6 : (((m.cmpu 18 5 6).wdc .line 5 0).addik 5 5 (4 * 4)).reg 6 = m.reg 6 := by
        rw [Machine.addik, Machine.reg_setReg_of_ne _ (by decide), Machine.wdc_reg, Machine.cmpu,
          Machine.reg_setReg_of_ne _ (by decide)]
      obtain ⟨m', hloop, hlog⟩ := @ih (((m.cmpu 18 5 6).wdc .line 5 0).addik 5 5 (4 * 4)) as'
        (by rw [h5, h6, has'])
      refine ⟨m', fun fuel hfuel => ?_, ?_⟩
      · obtain ⟨fuel, rfl⟩ := Nat.exists_eq_succ_of_ne_zero (by omega : fuel ≠ 0)
        rw [l1InvStart, if_neg (by rw [hcmpu, decide_eq_false hge]; decide)]
        exact hloop fuel (by omega)
      · have haddr : (m.cmpu 18 5 6).reg 5 + (m.cmpu 18 5 6).reg 0 = m.reg 5 := by
          rw [Machine.reg_zero, Machine.cmpu, Machine.reg_setReg_of_ne _ (by decide)]
          exact BitVec.add_zero _
        rw [hlog, Machine.addik, Machine.setReg_log, Machine.wdc_log, haddr, List.map_cons]
        exact List.append_assoc ..

lemma mbL1CacheInvalidateRange_log {m : Machine} {as : List Addr} (hlen : m.reg 6 ≠ 0)
    (h : Xcache.mbL1CacheInvalidateRange (m.reg 5) (m.reg 6) = some as) :
    ∃ rounds m', (∀ fuel ≥ rounds, mbL1CacheInvalidateRange fuel m = some m') ∧
      m'.log = m.log ++ as.map (Wdc.line, ·) := by
  let m₁ := (((m.add 6 5 6).addik 6 6 (-1)).andi 6 6 (-(4 * 4))).andi 5 5 (-(4 * 4))
  have h5 : m₁.reg 5 = m.reg 5 &&& -(4 * 4) := by
    simp [m₁, Machine.add, Machine.addik, Machine.andi, Machine.reg_setReg]
  have h6 : m₁.reg 6 = m.reg 5 + m.reg 6 + -1 &&& -(4 * 4) := by
    simp [m₁, Machine.add, Machine.addik, Machine.andi, Machine.reg_setReg]
  rw [Xcache.mbL1CacheInvalidateRange, if_neg hlen] at h
  dsimp only at h
  rw [← h5, ← h6] at h
  obtain ⟨m', hloop, hlog⟩ := l1InvStart_log h
  refine ⟨((m₁.reg 6).toNat - (m₁.reg 5).toNat) / 16 + 2, m'.rtsd 15 8, fun fuel hfuel => ?_, hlog⟩
  rw [mbL1CacheInvalidateRange, if_neg hlen]
  exact congrArg (Option.map (·.rtsd 15 8)) (hloop fuel hfuel)

/-! ### The ranges -/

/-- **What the cache ranges cover.**  For every range that ends sixteen bytes before the end of
the address space or earlier, the routines return, and they issue their instruction once for
each line that meets the range and for no other line. -/
theorem cacheRanges_cover (m : Machine) (hend : (m.reg 5).toNat + (m.reg 6).toNat ≤ 0xFFFFFFF0) :
    Covers mbL2CacheInvalidateRange .extClear 64 m ∧ Covers mbL2CacheFlushRange .extFlush 64 m ∧
      Covers mbL1CacheInvalidateRange .line 16 m := by
  by_cases hlen : m.reg 6 = 0
  · exact ⟨covers_of_empty hlen fun _ => if_pos hlen, covers_of_empty hlen fun _ => if_pos hlen,
      covers_of_empty hlen fun _ => if_pos hlen⟩
  · refine ⟨?_, ?_, ?_⟩
    · obtain ⟨rounds, m', hrun, hlog⟩ := mbL2CacheInvalidateRange_log hlen
      refine covers_of_map (by omega) hlen hrun hlog ?_
      show (List.map l2Line _).Perm _
      rw [map_l2Line_invalidate hlen (by omega)]
      exact List.reverse_perm _
    · obtain ⟨rounds, m', hrun, hlog⟩ := mbL2CacheFlushRange_log hlen
      refine covers_of_map (by omega) hlen hrun hlog ?_
      show (List.map l2Line _).Perm _
      rw [map_l2Line_flush hlen (by omega)]
      exact List.reverse_perm _
    · obtain ⟨as, has, hmap⟩ := map_l1Line_invalidate hlen (by omega)
      obtain ⟨rounds, m', hrun, hlog⟩ := mbL1CacheInvalidateRange_log hlen has
      refine covers_of_map (by omega) hlen hrun hlog ?_
      show (List.map l1Line as).Perm _
      rw [hmap]

/-- A range of a hundred bytes, across the ends of lines of both levels. -/
theorem cacheRanges_cover_hundred :
    Covers mbL2CacheInvalidateRange .extClear 64
        ⟨fun r => if r = 5 then 0x80000038 else 100, fun _ => 0, fun _ => 0, 0, []⟩ ∧
      Covers mbL2CacheFlushRange .extFlush 64
        ⟨fun r => if r = 5 then 0x80000038 else 100, fun _ => 0, fun _ => 0, 0, []⟩ ∧
      Covers mbL1CacheInvalidateRange .line 16
        ⟨fun r => if r = 5 then 0x80000038 else 100, fun _ => 0, fun _ => 0, 0, []⟩ :=
  cacheRanges_cover _ (by decide)

end EvtDrivenOs.CacheRange
