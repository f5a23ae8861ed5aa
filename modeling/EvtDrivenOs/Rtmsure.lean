/-
The reaction timer of the MicroBlaze port, `rtmsure.c`.

The data register contains a time in packed BCD, a decimal digit in every four bits.  The
driver keeps it as an `int`, and a negative `int` is not a time.  So what `bcd_toDec` gets has
its top bit clear, and then it gives the number with the same digits in base 10.
-/
import EvtDrivenOs.Basic
import Mathlib.Data.BitVec
import Mathlib.Data.Int.Notation
import Mathlib.Data.Nat.Digits.Lemmas

namespace EvtDrivenOs.Rtmsure

/-! ### The code -/

/-- The driver with what it did to the rest of the system. -/
structure Driver where
  bcdTime : ℤ := -1
  /-- What was written to the status register last. -/
  sr : BitVec 32 := 0
  raised : List Signal := []

/-- `_rtmsure_start`, which also connects the interrupt. -/
def rtmsureStart (s : Driver) : Driver := { s with bcdTime := -1 }

/-- `onRtmsure_irq` with the contents of the data register. -/
def onRtmsureIrq (s : Driver) (dtr : BitVec 32) : Driver :=
  { bcdTime := dtr.toInt, sr := 1, raised := .sigint :: s.raised }

/-- The result of an operation on `int`s, if it does not overflow. -/
def toInt? (z : ℤ) : Option ℤ := if -2 ^ 31 ≤ z ∧ z < 2 ^ 31 then some z else none

/-- The loop of `bcd_toDec`; `none` when an `int` overflows or `fuel` rounds are too few.
The digit is unsigned, and so are the product and the sum. -/
def bcdToDecLoop : ℕ → ℤ → ℤ → ℤ → Option ℤ
  | 0, _, _, _ => none
  | fuel + 1, time, base, dec =>
    if time > 0 then
      let decNth := (BitVec.ofInt 32 time &&& 0x0F) * BitVec.ofInt 32 base
      (toInt? (base * 10)).bind fun base =>
        bcdToDecLoop fuel (time >>> (4 : ℕ)) base (BitVec.ofInt 32 dec + decNth).toInt
    else some dec

/-- The digits of a number in BCD, as a number. -/
def bcdToDec (fuel : ℕ) (bcdTime : ℤ) : Option ℤ := bcdToDecLoop fuel bcdTime 1 0

/-- `_rtmsure_time` -/
def rtmsureTime (fuel : ℕ) (s : Driver) : Option (ℤ × Driver) :=
  let time := s.bcdTime
  let s := { s with bcdTime := -1 }
  if time < 0 then some (time, s) else (bcdToDec fuel time).map (·, s)

/-- The next call of `_rtmsure_time` returns `time` and the one after it -1. -/
def Returns (s : Driver) (time : ℤ) : Prop :=
  ∃ rounds, ∀ fuel ≥ rounds, ∃ s₁ s₂,
    rtmsureTime fuel s = some (time, s₁) ∧ rtmsureTime fuel s₁ = some (-1, s₂)

/-! ### Decimal digits in base 16 -/

/-- The BCD encoding of a number. -/
def bcd (t : ℕ) : ℕ := Nat.ofDigits 16 (Nat.digits 10 t)

lemma bcd_zero : bcd 0 = 0 := by simp [bcd]

lemma bcd_eq (t : ℕ) : bcd t = t % 10 + 16 * bcd (t / 10) := by
  rcases Nat.eq_zero_or_pos t with rfl | ht
  · rw [Nat.zero_mod, Nat.zero_div, bcd_zero]
  · rw [bcd, Nat.digits_def' (by omega) ht, Nat.ofDigits_cons, bcd]

lemma bcd_strictMono : StrictMono bcd := by
  intro s t hlt
  induction t using Nat.strong_induction_on generalizing s with
  | _ t ih =>
    rw [bcd_eq s, bcd_eq t]
    rcases Nat.lt_or_ge (s / 10) (t / 10) with hdiv | hdiv
    · have := ih (t / 10) (by omega) hdiv
      omega
    · have heq : s / 10 = t / 10 := by omega
      rw [heq]
      omega

/-- The digits can be read off again. -/
lemma digits_bcd (t : ℕ) : Nat.digits 16 (bcd t) = Nat.digits 10 t := by
  rw [bcd]
  refine Nat.digits_ofDigits 16 (by omega) _ (fun d hd => ?_) fun _ => ?_
  · have := Nat.digits_lt_base (by omega) hd
    omega
  · exact Nat.getLast_digit_ne_zero 10 (by rintro rfl; simp_all)

/-- A BCD encoding of eight digits leaves the top bit clear as long as the first is below 8. -/
lemma bcd_lt_two_pow_iff (t : ℕ) : bcd t < 2 ^ 31 ↔ t < 80000000 := by
  rw [← show bcd 80000000 = 2 ^ 31 by decide, bcd_strictMono.lt_iff_lt]

lemma bcd_le {t : ℕ} (ht : t < 10 ^ 8) : bcd t ≤ 0x99999999 := by
  rw [← show bcd 99999999 = 0x99999999 by decide]
  exact bcd_strictMono.monotone (by omega)

/-! ### The decoder -/

/-- The digit that a round takes off, in units of `base`, and what it makes of the sum. -/
lemma decNth_eq {n base dec : ℕ} (hdec : dec + base * (n % 16) < 2 ^ 31) :
    (BitVec.ofInt 32 dec + (BitVec.ofInt 32 n &&& 0x0F) * BitVec.ofInt 32 base).toInt
      = (dec + base * (n % 16) : ℕ) := by
  have hdigit : BitVec.ofInt 32 n &&& 0x0F = BitVec.ofNat 32 (n % 16) := by
    apply BitVec.eq_of_toNat_eq
    rw [BitVec.ofInt_natCast, BitVec.toNat_and, BitVec.toNat_ofNat, BitVec.toNat_ofNat]
    show n % 2 ^ 32 &&& 2 ^ 4 - 1 = _
    rw [Nat.and_two_pow_sub_one_eq_mod]
    omega
  have hsum : BitVec.ofInt 32 dec + BitVec.ofNat 32 (n % 16) * BitVec.ofInt 32 base
      = BitVec.ofNat 32 (dec + base * (n % 16)) := by
    rw [BitVec.ofInt_natCast, BitVec.ofInt_natCast, ← BitVec.ofNat_mul, ← BitVec.ofNat_add,
      Nat.mul_comm]
  rw [hdigit, hsum, BitVec.toInt_eq_toNat_of_lt, BitVec.toNat_ofNat, Nat.mod_eq_of_lt (by omega)]
  rw [BitVec.toNat_ofNat]
  omega

/-- The loop adds the number that the remaining digits stand for, in units of `base`. -/
lemma bcdToDecLoop_eq {n base dec fuel : ℕ} (hfuel : (Nat.digits 16 n).length < fuel)
    (hbase : base * 10 ^ (Nat.digits 16 n).length < 2 ^ 31)
    (hdec : dec + base * Nat.ofDigits 10 (Nat.digits 16 n) < 2 ^ 31) :
    bcdToDecLoop fuel n base dec =
      some (dec + base * Nat.ofDigits 10 (Nat.digits 16 n) : ℕ) := by
  induction fuel generalizing n base dec with
  | zero => omega
  | succ fuel ih =>
    rcases Nat.eq_zero_or_pos n with rfl | hn
    · simp [bcdToDecLoop]
    · have hdigits : Nat.digits 16 n = n % 16 :: Nat.digits 16 (n / 16) :=
        Nat.digits_def' (by omega) hn
      rw [hdigits, List.length_cons] at hfuel hbase
      rw [hdigits, Nat.ofDigits_cons] at hdec ⊢
      -- one digit is added, and the others count ten times as much
      have hsplit : dec + base * (n % 16 + 10 * Nat.ofDigits 10 (Nat.digits 16 (n / 16)))
          = dec + base * (n % 16) + base * 10 * Nat.ofDigits 10 (Nat.digits 16 (n / 16)) := by
        ring
      have hten : base * 10 ^ ((Nat.digits 16 (n / 16)).length + 1)
          = base * 10 * 10 ^ (Nat.digits 16 (n / 16)).length := by
        ring
      have hle : base * 10 ≤ base * 10 * 10 ^ (Nat.digits 16 (n / 16)).length :=
        Nat.le_mul_of_pos_right _ (Nat.pow_pos (by omega))
      have hstep : toInt? ((base : ℤ) * 10) = some ((base * 10 : ℕ) : ℤ) := by
        rw [toInt?, if_pos (by omega)]
        rfl
      have htime : (n : ℤ) >>> (4 : ℕ) = ((n / 16 : ℕ) : ℤ) := by
        rw [Int.shiftRight_eq_div_pow]
        rfl
      rw [hsplit] at hdec ⊢
      rw [hten] at hbase
      rw [bcdToDecLoop, if_pos (by omega), hstep, Option.bind_some, htime, decNth_eq (by omega)]
      exact ih (by omega) hbase hdec

/-- **The decoder.**  No `int` overflows, whatever digits the register contains: the number
they stand for in base 10 is at most what they stand for in base 16. -/
theorem bcdToDec_eq {n fuel : ℕ} (hn : n < 2 ^ 31) (hfuel : 8 < fuel) :
    bcdToDec fuel n = some (Nat.ofDigits 10 (Nat.digits 16 n) : ℕ) := by
  have hlen : (Nat.digits 16 n).length ≤ 8 := by
    rw [Nat.digits_length_le_iff (by omega)]
    omega
  have hpow : 10 ^ (Nat.digits 16 n).length ≤ 10 ^ 8 := Nat.pow_le_pow_right (by omega) hlen
  have hmono : Nat.ofDigits 10 (Nat.digits 16 n) ≤ n := by
    calc Nat.ofDigits 10 (Nat.digits 16 n)
        ≤ Nat.ofDigits 16 (Nat.digits 16 n) := Nat.ofDigits_monotone _ (by omega)
      _ = n := Nat.ofDigits_digits 16 n
  have hloop := @bcdToDecLoop_eq n 1 0 fuel (by omega) (by omega) (by omega)
  rw [Nat.zero_add, Nat.one_mul] at hloop
  exact hloop

/-! ### Reading a time -/

@[simp] lemma onRtmsureIrq_bcdTime (s : Driver) (dtr : BitVec 32) :
    (onRtmsureIrq s dtr).bcdTime = dtr.toInt := rfl

/-- Before the first interrupt there is no time. -/
lemma returns_start (s : Driver) : Returns (rtmsureStart s) (-1) :=
  ⟨0, fun _ _ => ⟨_, _, rfl, rfl⟩⟩

/-- What the next two calls return after an interrupt, whatever the register contains. -/
lemma returns_irq (s : Driver) (dtr : BitVec 32) : Returns (onRtmsureIrq s dtr)
    (if dtr.toNat < 2 ^ 31 then (Nat.ofDigits 10 (Nat.digits 16 dtr.toNat) : ℕ)
      else dtr.toInt) := by
  refine ⟨9, fun fuel hfuel => ?_⟩
  split
  case isTrue hlt =>
    have htime : dtr.toInt = dtr.toNat := BitVec.toInt_eq_toNat_of_lt (by omega)
    refine ⟨{ onRtmsureIrq s dtr with bcdTime := -1 }, _, ?_, rfl⟩
    rw [rtmsureTime, onRtmsureIrq_bcdTime, htime, if_neg (by omega), bcdToDec_eq hlt (by omega)]
    rfl
  case isFalse hge =>
    have hneg : dtr.toInt < 0 := by
      rw [BitVec.toInt_eq_toNat_cond, if_neg (by omega)]
      omega
    refine ⟨{ onRtmsureIrq s dtr with bcdTime := -1 }, _, ?_, rfl⟩
    rw [rtmsureTime, onRtmsureIrq_bcdTime, if_pos hneg]

/-- **Reaction times.**  A time below 80000000 is returned once, and then there is none.  From
there on the encoding sets the top bit of the register; the driver returns that negative `int`
once, which is not the one for no time, and then there is none. -/
theorem rtmsureTime_irq (s : Driver) {t : ℕ} (ht : t < 10 ^ 8) :
    (t < 80000000 → Returns (onRtmsureIrq s (BitVec.ofNat 32 (bcd t))) t) ∧
      (80000000 ≤ t → (bcd t : ℤ) - 2 ^ 32 < -1 ∧
        Returns (onRtmsureIrq s (BitVec.ofNat 32 (bcd t))) (bcd t - 2 ^ 32)) := by
  have hle := bcd_le ht
  have hreg : (BitVec.ofNat 32 (bcd t)).toNat = bcd t := by
    rw [BitVec.toNat_ofNat, Nat.mod_eq_of_lt (by omega)]
  have hreturns := returns_irq s (BitVec.ofNat 32 (bcd t))
  rw [hreg] at hreturns
  constructor
  · intro hlow
    rwa [if_pos ((bcd_lt_two_pow_iff t).2 hlow), digits_bcd, Nat.ofDigits_digits] at hreturns
  · intro hhigh
    have hbig : ¬ bcd t < 2 ^ 31 := fun h => by
      have := (bcd_lt_two_pow_iff t).1 h
      omega
    rw [if_neg hbig, BitVec.toInt_eq_toNat_cond, if_neg (by omega), hreg] at hreturns
    exact ⟨by omega, hreturns⟩

/-- A time of 1234 ms, and one of eight digits that is not a time to the driver. -/
theorem rtmsureTime_irq_1234 :
    Returns (onRtmsureIrq {} (BitVec.ofNat 32 (bcd 1234))) (1234 : ℕ) ∧
      Returns (onRtmsureIrq {} (BitVec.ofNat 32 (bcd 98765432))) (bcd 98765432 - 2 ^ 32) :=
  ⟨(rtmsureTime_irq {} (by omega : 1234 < 10 ^ 8)).1 (by omega),
    ((rtmsureTime_irq {} (by omega : 98765432 < 10 ^ 8)).2 (by omega)).2⟩

/-- The smallest time that is not returned. -/
theorem rtmsureTime_top_digit :
    ¬ Returns (onRtmsureIrq {} (BitVec.ofNat 32 (bcd 80000000))) (80000000 : ℕ) := by
  rintro ⟨rounds, hreturns⟩
  obtain ⟨s₁, s₂, hfirst, -⟩ := hreturns rounds (Nat.le_refl rounds)
  have hdtr : (BitVec.ofNat 32 (bcd 80000000)).toInt = -2 ^ 31 := by decide
  rw [rtmsureTime, onRtmsureIrq_bcdTime, hdtr, if_pos (by decide), Option.some.injEq,
    Prod.mk.injEq] at hfirst
  exact absurd hfirst.1 (by decide)

end EvtDrivenOs.Rtmsure
