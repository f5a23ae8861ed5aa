/-
The millisecond clock of the MicroBlaze port, `sys/xtimer.c`.

The 32-bit counter counts at 100 MHz, and `timer_irq` counts its overflows before the
interrupted code goes on.  `_xtimer_millis` loads the number of overflows, then the counter,
and tries again if the number of overflows has changed.

A number that has not changed is the same modulo 2^32.  Either the counter has not
overflowed, and the value is that of the load of the counter.  Or it has overflowed 2^32
times, and the clock has shown every value in the meantime.
-/
import Mathlib.Algebra.Group.Nat.Defs
import Mathlib.Logic.Function.Iterate
import Mathlib.Order.Monotone.Basic
import Mathlib.Tactic.Common

namespace EvtDrivenOs.Xtimer

/-! ### The timer -/

/-- The overflows counted so far and the counter of the timer. -/
structure Tc0 where
  tmrOvrflows : UInt32
  cntr : UInt32
deriving DecidableEq, Repr

/-- `timer_irq` -/
def timerIrq (s : Tc0) : Tc0 := { s with tmrOvrflows := s.tmrOvrflows + 1 }

/-- The counter counts, and its overflow is served at once. -/
def tick (s : Tc0) : Tc0 :=
  let s := { s with cntr := s.cntr + 1 }
  if s.cntr = 0 then timerIrq s else s

/-- `_xtimer_start` -/
def xtimerStart : Tc0 := ⟨0, 0⟩

/-- The timer at a time, in ticks since it was started. -/
def clock (t : ℕ) : Tc0 := tick^[t] xtimerStart

/-- The number of ticks of a millisecond. -/
def xtimerMsFreq : UInt32 := 100000

/-- The milliseconds of an overflow; a division of 64-bit numbers. -/
def xtimerMaxMs : UInt64 := 0x100000000 / 100000

/-- `_xtimer_millis`, where access `n` of the main context takes place at `time n` and the
call starts with access `n`: the value, and the number of the access that follows the call. -/
def xtimerMillis (time : ℕ → ℕ) : ℕ → ℕ → Option (UInt32 × ℕ)
  | 0, _ => none
  | fuel + 1, n =>
    let tmrOvr := (clock (time n)).tmrOvrflows
    let ticks := (clock (time (n + 1))).cntr
    -- an overflow in between: the loads are made again
    if tmrOvr ≠ (clock (time (n + 2))).tmrOvrflows then xtimerMillis time fuel (n + 3)
    else
      let millis := (xtimerMaxMs * tmrOvr.toUInt64 + (ticks / xtimerMsFreq).toUInt64).toUInt32
      some (millis, n + 3)

/-! ### What the clock shows -/

/-- The number of overflows until `t`. -/
def wraps (t : ℕ) : ℕ := t / 2 ^ 32

/-- The milliseconds at `t`: 42949 for each overflow and those that the counter stands for. -/
def millisAt (t : ℕ) : ℕ := 42949 * wraps t + t % 2 ^ 32 / 100000

/-- The clock does not run backwards within an overflow, nor with it. -/
lemma millisAt_mono : Monotone millisAt := by
  intro t t' h
  simp only [millisAt, wraps]
  omega

lemma clock_succ (t : ℕ) : clock (t + 1) = tick (clock t) := Function.iterate_succ_apply' _ _ _

lemma toNat_clock (t : ℕ) :
    (clock t).cntr.toNat = t % 2 ^ 32 ∧ (clock t).tmrOvrflows.toNat = wraps t % 2 ^ 32 := by
  induction t with
  | zero => exact ⟨rfl, rfl⟩
  | succ t ih =>
    obtain ⟨hcntr, hovr⟩ := ih
    have hnext : ((clock t).cntr + 1).toNat = (t % 2 ^ 32 + 1) % 2 ^ 32 := by
      rw [UInt32.toNat_add, hcntr]
      rfl
    have hovrnext : ((clock t).tmrOvrflows + 1).toNat = (wraps t % 2 ^ 32 + 1) % 2 ^ 32 := by
      rw [UInt32.toNat_add, hovr]
      rfl
    rw [clock_succ, tick]
    simp only [wraps] at hovr hovrnext ⊢
    split
    · next h0 =>
      have hzero : (t % 2 ^ 32 + 1) % 2 ^ 32 = 0 := by rw [← hnext, h0]; rfl
      simp only [timerIrq]
      rw [hnext, hovrnext]
      omega
    · next h0 =>
      have hne : (t % 2 ^ 32 + 1) % 2 ^ 32 ≠ 0 := fun h => h0 (UInt32.toNat_inj.1 (hnext.trans h))
      rw [hnext, hovr]
      omega

/-- The value that a call works out from its last two loads. -/
lemma toNat_millis (t₁ t₂ : ℕ) :
    (xtimerMaxMs * (clock t₁).tmrOvrflows.toUInt64 +
      ((clock t₂).cntr / xtimerMsFreq).toUInt64).toUInt32.toNat =
      (42949 * wraps t₁ + t₂ % 2 ^ 32 / 100000) % 2 ^ 32 := by
  obtain ⟨-, hovr⟩ := toNat_clock t₁
  obtain ⟨hcntr, -⟩ := toNat_clock t₂
  have hmax : xtimerMaxMs.toNat = 42949 := by decide
  have hfreq : xtimerMsFreq.toNat = 100000 := by decide
  simp only [UInt64.toNat_toUInt32, UInt64.toNat_add, UInt64.toNat_mul, UInt32.toNat_toUInt64,
    UInt32.toNat_div, hmax, hfreq, hovr, hcntr]
  omega

/-- The time at which the clock shows `m` milliseconds after `k` overflows. -/
lemma millisAt_eq {k m : ℕ} (hm : m ≤ 42949) :
    wraps (k * 2 ^ 32 + m * 100000) = k ∧ millisAt (k * 2 ^ 32 + m * 100000) = 42949 * k + m := by
  have hwraps : wraps (k * 2 ^ 32 + m * 100000) = k := by
    rw [wraps]
    omega
  refine ⟨hwraps, ?_⟩
  rw [millisAt, hwraps]
  omega

/-- If the number of overflows is the same modulo 2^32 before and after, then the clock has
shown the value that consists of this number and a counter loaded in between. -/
lemma exists_instant {t₁ t₂ t₃ : ℕ} (h₁₂ : t₁ ≤ t₂) (h₂₃ : t₂ ≤ t₃)
    (h : wraps t₁ % 2 ^ 32 = wraps t₃ % 2 ^ 32) :
    ∃ t, t₁ ≤ t ∧ t ≤ t₃ ∧
      (42949 * wraps t₁ + t₂ % 2 ^ 32 / 100000) % 2 ^ 32 = millisAt t % 2 ^ 32 := by
  by_cases heq : wraps t₁ = wraps t₃
  · have hwraps : wraps t₂ = wraps t₁ := by
      simp only [wraps] at heq ⊢
      omega
    exact ⟨t₂, h₁₂, h₂₃, by rw [millisAt, hwraps]⟩
  · -- 100001 overflows are 24347 milliseconds short of 2^32, and 100002 are 18602 too many
    have hlater : wraps t₁ + 2 ^ 32 ≤ wraps t₃ := by
      simp only [wraps] at h heq ⊢
      omega
    obtain ⟨d, m, hd, hd', hm, hsum⟩ : ∃ d m, 1 ≤ d ∧ d < 2 ^ 32 ∧ m ≤ 42949 ∧
        42949 * d + m = 2 ^ 32 + t₂ % 2 ^ 32 / 100000 := by
      by_cases hle : t₂ % 2 ^ 32 / 100000 ≤ 18602
      · exact ⟨100001, t₂ % 2 ^ 32 / 100000 + 24347, by omega⟩
      · exact ⟨100002, t₂ % 2 ^ 32 / 100000 - 18602, by omega⟩
    obtain ⟨hwraps, hmillis⟩ := @millisAt_eq (wraps t₁ + d) m hm
    refine ⟨(wraps t₁ + d) * 2 ^ 32 + m * 100000, ?_, ?_, ?_⟩
    · simp only [wraps] at hwraps ⊢
      omega
    · simp only [wraps] at hwraps hlater ⊢
      omega
    · rw [hmillis]
      omega

/-! ### Calls -/

/-- What the calls of `_xtimer_millis` return when the accesses take place at `time`. -/
structure Consistent (time : ℕ → ℕ) : Prop where
  /-- A call returns after the first attempt without an overflow at the latest. -/
  returns : ∀ n i, wraps (time (n + 3 * i)) = wraps (time (n + 3 * i + 2)) →
    ∃ v m, n < m ∧ m ≤ n + 3 * i + 3 ∧ ∀ fuel > i, xtimerMillis time fuel n = some (v, m)
  /-- The value is that of the clock at an instant between the first access of the call and
  its last. -/
  instant : ∀ fuel n v m, xtimerMillis time fuel n = some (v, m) →
    ∃ t, time n ≤ t ∧ t ≤ time (m - 1) ∧ v.toNat = millisAt t % 2 ^ 32
  /-- A later call does not return less until the milliseconds exceed 32 bits. -/
  mono : ∀ fuel n v m fuel' n' v' m', xtimerMillis time fuel n = some (v, m) → m ≤ n' →
    xtimerMillis time fuel' n' = some (v', m') →
    42949 * wraps (time (m' - 1)) + 42949 < 2 ^ 32 → v ≤ v'

variable {time : ℕ → ℕ}

/-- The last attempt of a call that returns. -/
lemma xtimerMillis_some {fuel n : ℕ} {v : UInt32} {m : ℕ}
    (h : xtimerMillis time fuel n = some (v, m)) :
    n + 3 ≤ m ∧
      (clock (time (m - 3))).tmrOvrflows = (clock (time (m - 1))).tmrOvrflows ∧
        v.toNat = (42949 * wraps (time (m - 3)) + time (m - 2) % 2 ^ 32 / 100000) % 2 ^ 32 := by
  induction fuel generalizing n with
  | zero => cases h
  | succ fuel ih =>
    rw [xtimerMillis] at h
    dsimp only at h
    split at h
    · obtain ⟨hle, hrest⟩ := ih h
      exact ⟨by omega, hrest⟩
    · next hsame =>
      cases h
      exact ⟨le_rfl, not_not.1 hsame, toNat_millis _ _⟩

lemma instant_of_xtimerMillis (htime : Monotone time) {fuel n : ℕ} {v : UInt32} {m : ℕ}
    (h : xtimerMillis time fuel n = some (v, m)) :
    ∃ t, time n ≤ t ∧ t ≤ time (m - 1) ∧ v.toNat = millisAt t % 2 ^ 32 := by
  obtain ⟨hle, hsame, hv⟩ := xtimerMillis_some h
  have hwraps : wraps (time (m - 3)) % 2 ^ 32 = wraps (time (m - 1)) % 2 ^ 32 := by
    rw [← (toNat_clock _).2, ← (toNat_clock _).2, hsame]
  obtain ⟨t, ht, ht', hmillis⟩ := @exists_instant (time (m - 3)) (time (m - 2)) (time (m - 1))
    (htime (by omega)) (htime (by omega)) hwraps
  exact ⟨t, (htime (by omega)).trans ht, ht', hv.trans hmillis⟩

/-- A call whose two loads of the number of overflows agree returns. -/
lemma xtimerMillis_agree {n : ℕ}
    (h : (clock (time n)).tmrOvrflows = (clock (time (n + 2))).tmrOvrflows) :
    ∃ v, ∀ fuel > 0, xtimerMillis time fuel n = some (v, n + 3) := by
  refine ⟨(xtimerMaxMs * (clock (time n)).tmrOvrflows.toUInt64 +
    ((clock (time (n + 1))).cntr / xtimerMsFreq).toUInt64).toUInt32, fun fuel hf => ?_⟩
  obtain ⟨fuel, rfl⟩ := Nat.exists_eq_succ_of_ne_zero (Nat.ne_of_gt hf)
  rw [xtimerMillis]
  exact if_neg (not_not.2 h)

/-- A call whose attempt `i` is without an overflow comes that far at most. -/
lemma xtimerMillis_returns {n i : ℕ}
    (h : wraps (time (n + 3 * i)) = wraps (time (n + 3 * i + 2))) :
    ∃ v m, n < m ∧ m ≤ n + 3 * i + 3 ∧ ∀ fuel > i, xtimerMillis time fuel n = some (v, m) := by
  induction i generalizing n with
  | zero =>
    have hsame : (clock (time n)).tmrOvrflows = (clock (time (n + 2))).tmrOvrflows := by
      apply UInt32.toNat_inj.1
      rw [(toNat_clock _).2, (toNat_clock _).2]
      exact congrArg (· % 2 ^ 32) h
    obtain ⟨v, hv⟩ := xtimerMillis_agree hsame
    exact ⟨v, n + 3, by omega, le_rfl, hv⟩
  | succ i ih =>
    by_cases hsame : (clock (time n)).tmrOvrflows = (clock (time (n + 2))).tmrOvrflows
    · obtain ⟨v, hv⟩ := xtimerMillis_agree hsame
      exact ⟨v, n + 3, by omega, by omega, fun fuel hf => hv fuel (Nat.zero_lt_of_lt hf)⟩
    · -- the attempt fails, and the call goes on with the next one
      have hnext : n + 3 + 3 * i = n + 3 * (i + 1) := by omega
      obtain ⟨v, m, hlt, hle, hrest⟩ := @ih (n + 3) (by rw [hnext]; exact h)
      refine ⟨v, m, by omega, by omega, fun fuel hf => ?_⟩
      obtain ⟨fuel, rfl⟩ := Nat.exists_eq_succ_of_ne_zero (Nat.ne_of_gt (Nat.zero_lt_of_lt hf))
      rw [xtimerMillis]
      exact (if_pos hsame).trans (hrest fuel (Nat.lt_of_succ_lt_succ hf))

lemma xtimerMillis_mono (htime : Monotone time) {fuel n m fuel' n' m' : ℕ} {v v' : UInt32}
    (h : xtimerMillis time fuel n = some (v, m)) (hnext : m ≤ n')
    (h' : xtimerMillis time fuel' n' = some (v', m'))
    (hfits : 42949 * wraps (time (m' - 1)) + 42949 < 2 ^ 32) : v ≤ v' := by
  obtain ⟨t, -, ht, hv⟩ := instant_of_xtimerMillis htime h
  obtain ⟨t', ht', hlast, hv'⟩ := instant_of_xtimerMillis htime h'
  have hle : t ≤ t' := ht.trans ((htime (by omega)).trans ht')
  have hmillis : millisAt t ≤ millisAt t' := millisAt_mono hle
  have hwraps : wraps t' ≤ wraps (time (m' - 1)) := Nat.div_le_div_right hlast
  have hbound : millisAt t' ≤ 42949 * wraps t' + 42949 := by
    rw [millisAt]
    omega
  rw [UInt32.le_iff_toNat_le, hv, hv']
  omega

/-- **The clock never runs backwards**, wherever the counter overflows. -/
theorem xtimerMillis_consistent {time : ℕ → ℕ} (htime : Monotone time) : Consistent time where
  returns _ _ h := xtimerMillis_returns h
  instant _ _ _ _ h := instant_of_xtimerMillis htime h
  mono _ _ _ _ _ _ _ _ h hnext h' hfits := xtimerMillis_mono htime h hnext h' hfits

/-- An access every tick. -/
theorem xtimerMillis_consistent_id : Consistent id := xtimerMillis_consistent monotone_id

/-! ### Drift -/

/-- The whole milliseconds among the ticks left over at `t`: 67296 for each overflow, and
those of the counter's last millisecond. -/
def lag (t : ℕ) : ℕ := (67296 * wraps t + t % 2 ^ 32 % 100000) / 100000

lemma millisAt_add_lag (t : ℕ) : millisAt t + lag t = t / 100000 := by
  simp only [millisAt, lag, wraps]
  omega

/-- A call at the time `t` returns what the clock shows then. -/
lemma xtimerMillis_const (t : ℕ) {fuel : ℕ} (hfuel : 0 < fuel) (n : ℕ) :
    xtimerMillis (fun _ => t) fuel n = some (UInt32.ofNat (millisAt t), n + 3) := by
  obtain ⟨fuel, rfl⟩ := Nat.exists_eq_succ_of_ne_zero hfuel.ne'
  have hval : (xtimerMaxMs * (clock t).tmrOvrflows.toUInt64 +
      ((clock t).cntr / xtimerMsFreq).toUInt64).toUInt32 = UInt32.ofNat (millisAt t) := by
    apply UInt32.toNat_inj.1
    rw [toNat_millis, UInt32.toNat_ofNat', millisAt]
  rw [xtimerMillis, ← hval]
  exact if_neg (not_not.2 rfl)

lemma ofNat_millisAt_iff (t : ℕ) :
    UInt32.ofNat (millisAt t) = UInt32.ofNat (t / 100000) ↔ lag t % 2 ^ 32 = 0 := by
  rw [← UInt32.toNat_inj, UInt32.toNat_ofNat', UInt32.toNat_ofNat', ← millisAt_add_lag]
  omega

/-- A call at the time `t` returns the milliseconds since the start, modulo 2^32, if and only
if the ticks that the overflows leave over do not make up milliseconds, or just 2^32 of them
or a multiple of that. -/
theorem xtimerMillis_exact_iff (t n : ℕ) :
    (∀ fuel > 0, ∃ m, xtimerMillis (fun _ => t) fuel n = some (UInt32.ofNat (t / 100000), m)) ↔
      lag t % 2 ^ 32 = 0 := by
  rw [← ofNat_millisAt_iff]
  constructor
  · intro h
    obtain ⟨m, hm⟩ := h 1 Nat.one_pos
    rw [xtimerMillis_const t Nat.one_pos] at hm
    exact congrArg Prod.fst (Option.some.inj hm)
  · intro h fuel hfuel
    exact ⟨n + 3, h ▸ xtimerMillis_const t hfuel n⟩

/-- Until the counted overflows exceed 32 bits the clock is exact before the first overflow,
and until 32704 ticks of a millisecond after it. -/
lemma lag_eq_zero_iff {t : ℕ} (ht : t < 2 ^ 64) :
    lag t % 2 ^ 32 = 0 ↔ wraps t = 0 ∨ wraps t = 1 ∧ t % 2 ^ 32 % 100000 < 32704 := by
  have hq : wraps t < 2 ^ 32 := Nat.div_lt_of_lt_mul ht
  have hr : t % 2 ^ 32 % 100000 < 100000 := Nat.mod_lt _ (by omega)
  have hlag : lag t < 2 ^ 32 := by
    rw [lag]
    omega
  rw [Nat.mod_eq_of_lt hlag, lag]
  omega

/-- The first tick at which the clock is behind: 42950 milliseconds have passed. -/
theorem xtimerMillis_behind :
    ¬ ∀ fuel > 0, ∃ m, xtimerMillis (fun _ => 4295000000) fuel 0 = some (42950, m) := by
  intro h
  obtain ⟨m, hm⟩ := h 1 Nat.one_pos
  rw [xtimerMillis_const _ Nat.one_pos] at hm
  have hval : UInt32.ofNat (millisAt 4295000000) = 42950 := congrArg Prod.fst (Option.some.inj hm)
  exact absurd hval (by decide)

end EvtDrivenOs.Xtimer
