/-
The command `systime` of the MicroBlaze port, which waits five seconds.

The end of the wait is a sum of 32 bits, and the loop compares it with the clock as numbers.
So the comparison is right as long as the end and the reading are on the same side of the
wrap of the clock, and wrong otherwise.
-/
import EvtDrivenOs.Xtimer
import Mathlib.Data.Int.Notation
import Mathlib.Order.Bounds.Basic
import Mathlib.Tactic.Common

namespace EvtDrivenOs.Systime

open EvtDrivenOs.Xtimer

/-! ### The first of some readings -/

section First

variable {P Q : ℕ → Prop}

lemma isLeast_setOf_iff {k : ℕ} : IsLeast {k | P k} k ↔ P k ∧ ∀ j < k, ¬ P j := by
  constructor
  · rintro ⟨hP, hfirst⟩
    exact ⟨hP, fun j hj hPj => absurd (hfirst hPj) (Nat.not_le.2 hj)⟩
  · rintro ⟨hP, hbefore⟩
    exact ⟨hP, fun j hj => Nat.le_of_not_lt fun hlt => hbefore j hlt hj⟩

/-- The first number to meet `P` is the first to meet `Q` just when the two agree up to there. -/
lemma isLeast_iff_isLeast :
    (∀ k, IsLeast {k | P k} k ↔ IsLeast {k | Q k} k) ↔ ∀ k, (∀ j < k, ¬ Q j) → (P k ↔ Q k) := by
  simp only [isLeast_setOf_iff]
  constructor
  · intro h k hQ
    have hP : ∀ j < k, ¬ P j := by
      intro j
      induction j using Nat.strong_induction_on with
      | _ j ih =>
        intro hj hPj
        exact hQ j hj ((h j).1 ⟨hPj, fun i hi => ih i hi (by omega)⟩).1
    exact ⟨fun hPk => ((h k).1 ⟨hPk, hP⟩).1, fun hQk => ((h k).2 ⟨hQk, hQ⟩).1⟩
  · intro h k
    have hbefore : (∀ j < k, ¬ P j) ↔ ∀ j < k, ¬ Q j := by
      constructor
      · intro hP j
        induction j using Nat.strong_induction_on with
        | _ j ih =>
          intro hj hQj
          exact hP j hj ((h j fun i hi => ih i hi (by omega)).2 hQj)
      · intro hQ j hj hPj
        exact hQ j hj ((h j fun i hi => hQ i (by omega)).1 hPj)
    rw [hbefore]
    exact and_congr_left fun hQ => h k hQ

end First

/-! ### The command -/

/-- `WAIT_TIME_MILLIS` -/
def waitTimeMillis : UInt32 := 5000

/-- The loop from reading `n` of the clock on: the number of the reading that ends it, or
`none` if `fuel` readings are too few. -/
def waitLoop (now : ℕ → UInt32) (endTime : UInt32) : ℕ → ℕ → Option ℕ
  | 0, _ => none
  | fuel + 1, n => if endTime > now n then waitLoop now endTime fuel (n + 1) else some n

/-- The formats printed with their numbers, the result, and the number of the last reading. -/
structure Output where
  printed : List (String × ℤ)
  result : ℤ
  lastReading : ℕ
deriving DecidableEq, Repr

/-- `systime_m`, where call `n` of `_xtimer_millis` returns `now n`. -/
def systimeM (now : ℕ → UInt32) (fuel : ℕ) : Option Output :=
  let printed : List (String × ℤ) :=
    [("time since system startup: %d ms\n", (now 0).toBitVec.toInt),
      ("wait %d milliseconds...\n", waitTimeMillis.toBitVec.toInt)]
  let endTime := now 1 + waitTimeMillis
  (waitLoop now endTime fuel 2).map fun n => ⟨printed, 0, n⟩

/-- The readings of a call: the one that is printed, the one from which the wait is counted,
and those of the loop, of which number `k` comes `elapsed k` milliseconds later. -/
def readings (printed start : UInt32) (elapsed : ℕ → ℕ) : ℕ → UInt32
  | 0 => printed
  | 1 => start
  | k + 2 => start + UInt32.ofNat (elapsed k)

/-- The loop ends with its reading `k`. -/
def ExitsAt (now : ℕ → UInt32) (k : ℕ) : Prop :=
  ∃ fuel out, systimeM now fuel = some out ∧ out.lastReading = k + 2

/-! ### The wait -/

lemma waitLoop_eq_some_iff {now : ℕ → UInt32} {endTime : UInt32} {n m : ℕ} :
    (∃ fuel, waitLoop now endTime fuel n = some m) ↔
      n ≤ m ∧ endTime ≤ now m ∧ ∀ j, n ≤ j → j < m → now j < endTime := by
  constructor
  · rintro ⟨fuel, hloop⟩
    induction fuel generalizing n with
    | zero => simp [waitLoop] at hloop
    | succ fuel ih =>
      rw [waitLoop] at hloop
      split at hloop
      case isTrue hlt =>
        obtain ⟨hle, hend, hbefore⟩ := ih hloop
        refine ⟨by omega, hend, fun j hnj hjm => ?_⟩
        rcases Nat.eq_or_lt_of_le hnj with rfl | hnj
        · exact hlt
        · exact hbefore j hnj hjm
      case isFalse hge =>
        obtain rfl := Option.some.inj hloop
        exact ⟨Nat.le_refl n, UInt32.not_lt.1 hge, fun j hnj hjn => by omega⟩
  · rintro ⟨hle, hend, hbefore⟩
    -- as many rounds as there are readings
    obtain ⟨d, rfl⟩ := Nat.exists_eq_add_of_le hle
    refine ⟨d + 1, ?_⟩
    induction d generalizing n with
    | zero =>
      have hge : ¬ endTime > now n := UInt32.not_lt.2 hend
      rw [waitLoop, if_neg hge]
      rfl
    | succ d ih =>
      rw [waitLoop, if_pos (hbefore n (Nat.le_refl n) (by omega))]
      have := ih (n := n + 1) (by omega) (by rwa [show n + 1 + d = n + (d + 1) by omega])
        fun j hnj hjm => hbefore j (by omega) (by omega)
      rwa [show n + 1 + d = n + (d + 1) by omega] at this

/-- The loop ends with the first reading that is not below the end of the wait. -/
lemma exitsAt_iff {now : ℕ → UInt32} {k : ℕ} :
    ExitsAt now k ↔ IsLeast {k | now 1 + waitTimeMillis ≤ now (k + 2)} k := by
  have hloop : ExitsAt now k ↔
      ∃ fuel, waitLoop now (now 1 + waitTimeMillis) fuel 2 = some (k + 2) := by
    simp [ExitsAt, systimeM]
  rw [hloop, waitLoop_eq_some_iff, isLeast_setOf_iff]
  constructor
  · rintro ⟨-, hend, hbefore⟩
    exact ⟨hend, fun j hj => UInt32.not_le.2 (hbefore (j + 2) (by omega) (by omega))⟩
  · rintro ⟨hend, hbefore⟩
    refine ⟨by omega, hend, fun j hj hlt => ?_⟩
    obtain ⟨i, rfl⟩ := Nat.exists_eq_add_of_le' hj
    exact UInt32.not_le.1 (hbefore i (by omega))

/-- The loop sees that the wait is over just when it is, on one side of the wrap, and just when
it is not, otherwise. -/
lemma end_le_iff {start : UInt32} {elapsed : ℕ} (hlt : elapsed < 2 ^ 31) :
    (start + waitTimeMillis ≤ start + UInt32.ofNat elapsed ↔ 5000 ≤ elapsed) ↔
      (start.toNat + elapsed < 2 ^ 32 ↔ start.toNat + 5000 < 2 ^ 32) := by
  have hstart := start.toNat_lt
  have hwait : waitTimeMillis.toNat = 5000 := rfl
  rw [UInt32.le_iff_toNat_le, UInt32.toNat_add, UInt32.toNat_add, hwait, UInt32.toNat_ofNat']
  omega

lemma waits_iff {now : ℕ → UInt32} {elapsed : ℕ → ℕ}
    (hnow : ∀ k, now (k + 2) = now 1 + UInt32.ofNat (elapsed k)) (hlt : ∀ k, elapsed k < 2 ^ 31) :
    (∀ k, ExitsAt now k ↔ IsLeast {k | 5000 ≤ elapsed k} k) ↔
      ∀ k, (∀ j < k, elapsed j < 5000) →
        ((now 1).toNat + elapsed k < 2 ^ 32 ↔ (now 1).toNat + 5000 < 2 ^ 32) := by
  simp only [exitsAt_iff]
  rw [isLeast_iff_isLeast]
  refine forall_congr' fun k => ?_
  simp only [hnow, Nat.not_le]
  exact imp_congr_right fun _ => end_le_iff (hlt k)

/-- **When the wait has its full time.**  The loop ends with the first reading that is at least
5000 ms after the start, if there is one, just when all readings up to that one are on the same
side of the wrap as the end of the wait. -/
theorem systimeM_waits_iff (printed start : UInt32) (elapsed : ℕ → ℕ)
    (hlt : ∀ k, elapsed k < 2 ^ 31) :
    (∀ k, ExitsAt (readings printed start elapsed) k ↔ IsLeast {k | 5000 ≤ elapsed k} k) ↔
      ∀ k, (∀ j < k, elapsed j < 5000) →
        (start.toNat + elapsed k < 2 ^ 32 ↔ start.toNat + 5000 < 2 ^ 32) :=
  waits_iff (fun _ => rfl) hlt

/-- The clock is read every second, long before it wraps: the loop ends with reading 5. -/
theorem systimeM_waits_iff_seconds :
    ExitsAt (readings 70 70 fun k => min (1000 * k) 9000) 5 := by
  have hexits := (systimeM_waits_iff 70 70 (fun k => min (1000 * k) 9000) fun k => by omega).2
    fun k _ => by
      have hstart : (70 : UInt32).toNat = 70 := rfl
      omega
  rw [hexits, isLeast_setOf_iff]
  exact ⟨by omega, fun j hj => by omega⟩

/-- When the end of the wait wraps, the loop ends with its first reading, at once.  When it
just does not, and the reading that is due has wrapped, the loop does not end. -/
theorem systimeM_wrap :
    (ExitsAt (readings 0 0xFFFFFFFF fun k => min (1000 * k) 9000) 0 ∧
        ¬ IsLeast {k | 5000 ≤ min (1000 * k) 9000} 0) ∧
      (∀ k, ¬ ExitsAt (readings 0 0xFFFFEC77 fun k => min (2000 * k) 6000) k) ∧
        IsLeast {k | 5000 ≤ min (2000 * k) 6000} 3 := by
  simp only [exitsAt_iff, isLeast_setOf_iff]
  refine ⟨⟨⟨by decide, by omega⟩, fun h => absurd h.1 (by omega)⟩, ?_,
    by omega, fun j hj => by omega⟩
  rintro k ⟨hend, -⟩
  -- from reading 3 on the clock shows 999
  have hreading : ∀ j ≤ 3, ¬ (0xFFFFEC77 + waitTimeMillis : UInt32)
      ≤ 0xFFFFEC77 + UInt32.ofNat (min (2000 * j) 6000) := by decide
  rcases Nat.le_total k 3 with hk | hk
  · exact hreading k hk hend
  · have hmin : min (2000 * k) 6000 = min (2000 * 3) 6000 := by omega
    refine hreading 3 (Nat.le_refl 3) ?_
    rw [← hmin]
    exact hend

/-- On the clock of the port, whose call `n` is made at the tick `time n`: the wait has its full
time as long as the clock stays five seconds away from its wrap. -/
theorem systimeM_clock {time : ℕ → ℕ} (htime : Monotone time) {now : ℕ → UInt32}
    (hnow : ∀ n, xtimerMillis (fun _ => time n) 1 0 = some (now n, 3))
    (hwrap : ∀ n, millisAt (time n) + 5000 < 2 ^ 32)
    (hlt : ∀ n, millisAt (time n) < millisAt (time 1) + 2 ^ 31) (k : ℕ) :
    ExitsAt now k ↔ IsLeast {k | millisAt (time 1) + 5000 ≤ millisAt (time (k + 2))} k := by
  have hmillis : ∀ n, now n = UInt32.ofNat (millisAt (time n)) := fun n => by
    have := hnow n
    rw [xtimerMillis_const _ Nat.one_pos, Option.some.injEq, Prod.mk.injEq] at this
    exact this.1.symm
  have hmono : ∀ k, millisAt (time 1) ≤ millisAt (time (k + 2)) := fun k =>
    millisAt_mono (htime (by omega))
  have hstart : (now 1).toNat = millisAt (time 1) := by
    have := hwrap 1
    rw [hmillis, UInt32.toNat_ofNat', Nat.mod_eq_of_lt (by omega)]
  have helapsed : ∀ k, now (k + 2) =
      now 1 + UInt32.ofNat (millisAt (time (k + 2)) - millisAt (time 1)) := fun k => by
    rw [hmillis, hmillis, ← UInt32.ofNat_add, Nat.add_sub_cancel' (hmono k)]
  have hdue : {k | 5000 ≤ millisAt (time (k + 2)) - millisAt (time 1)}
      = {k | millisAt (time 1) + 5000 ≤ millisAt (time (k + 2))} := by
    ext k
    exact Nat.le_sub_iff_add_le' (hmono k)
  have hwaits := (waits_iff helapsed fun k => by have := hlt (k + 2); omega).2 fun k _ => by
    have := hwrap (k + 2)
    have := hwrap 1
    omega
  rw [hwaits k, hdue]

end EvtDrivenOs.Systime
