/-
The time stamps of directory entries: how `fat.c` takes the two packed words apart.

The seconds have five bits of the time word, in steps of two.  `to_filDateTime` takes six,
and so the lowest bit of the minute counts for 64 seconds.
-/
import Mathlib.Data.BitVec

namespace EvtDrivenOs.Fat

/-! ### The code -/

/-- What is assigned to the fields of a `fildatetime_t`. -/
structure FilDateTime where
  year : ℕ
  month : ℕ
  day : ℕ
  hour : ℕ
  minute : ℕ
  second : ℕ
deriving DecidableEq, Repr

/-- The year that FAT counts from. -/
def fileYearBase : ℕ := 1980

/-- `FILE_YEAR` -/
def fileYear (yearMod : ℕ) : ℕ := yearMod + fileYearBase

/-- The fields of the two words of FAT. -/
def toFilDateTime (fsDate fsTime : UInt16) : FilDateTime :=
  let yearMod := ((fsDate >>> 9) &&& 0x7F).toNat
  { year := fileYear yearMod
    day := (fsDate &&& 0x1F).toNat
    month := ((fsDate >>> 5) &&& 0x0F).toNat
    hour := ((fsTime >>> 11) &&& 0x1F).toNat
    minute := ((fsTime >>> 5) &&& 0x3F).toNat
    second := (fsTime &&& 0x3F).toNat <<< 1 }

/-! ### The format -/

/-- The rule of the calendar. -/
def isLeapYear (year : ℕ) : Bool := year % 4 = 0 && (year % 100 ≠ 0 || year % 400 = 0)

/-- The number of days of a month. -/
def daysInMonth (year : ℕ) : ℕ → ℕ
  | 2 => if isLeapYear year then 29 else 28
  | 4 | 6 | 9 | 11 => 30
  | _ => 31

lemma daysInMonth_le (year month : ℕ) : daysInMonth year month ≤ 31 := by
  unfold daysInMonth
  split <;> try split
  all_goals omega

/-- A date of the calendar that a directory entry can have. -/
structure CalendarDate where
  year : ℕ
  month : ℕ
  day : ℕ
  year_ge : 1980 ≤ year
  year_le : year ≤ 2107
  month_pos : 1 ≤ month
  month_le : month ≤ 12
  day_pos : 1 ≤ day
  day_le : day ≤ daysInMonth year month

/-- A time of day with an even second. -/
structure DayTime where
  hour : ℕ
  minute : ℕ
  second : ℕ
  hour_lt : hour < 24
  minute_lt : minute < 60
  second_lt : second < 60
  second_even : second % 2 = 0

/-- The year in bits 15 to 9, the month in bits 8 to 5 and the day in bits 4 to 0. -/
def CalendarDate.word (d : CalendarDate) : UInt16 :=
  UInt16.ofNat ((d.year - 1980) * 2 ^ 9 + d.month * 2 ^ 5 + d.day)

/-- The hour in bits 15 to 11, the minute in bits 10 to 5 and half the second in bits 4 to
0. -/
def DayTime.word (t : DayTime) : UInt16 :=
  UInt16.ofNat (t.hour * 2 ^ 11 + t.minute * 2 ^ 5 + t.second / 2)

/-- What the entry says. -/
def stamp (d : CalendarDate) (t : DayTime) : FilDateTime :=
  ⟨d.year, d.month, d.day, t.hour, t.minute, t.second⟩

/-! ### Decoding -/

/-- A field of `k` bits is a remainder. -/
lemma toNat_mask (w : UInt16) {m : UInt16} {k : ℕ} (hm : m.toNat = 2 ^ k - 1) :
    (w &&& m).toNat = w.toNat % 2 ^ k := by
  rw [UInt16.toNat_and, hm, Nat.and_two_pow_sub_one_eq_mod]

/-- A field of `k` bits from bit `i` on. -/
lemma toNat_field (w : UInt16) {j m : UInt16} {i k : ℕ} (hj : j.toNat % 16 = i)
    (hm : m.toNat = 2 ^ k - 1) : ((w >>> j) &&& m).toNat = w.toNat / 2 ^ i % 2 ^ k := by
  rw [toNat_mask _ hm, UInt16.toNat_shiftRight, hj, Nat.shiftRight_eq_div_pow]

lemma toFilDateTime_eq (fsDate fsTime : UInt16) : toFilDateTime fsDate fsTime =
    { year := fsDate.toNat / 2 ^ 9 % 2 ^ 7 + 1980
      month := fsDate.toNat / 2 ^ 5 % 2 ^ 4
      day := fsDate.toNat % 2 ^ 5
      hour := fsTime.toNat / 2 ^ 11 % 2 ^ 5
      minute := fsTime.toNat / 2 ^ 5 % 2 ^ 6
      second := fsTime.toNat % 2 ^ 6 * 2 } := by
  rw [toFilDateTime, @toNat_field fsDate 9 0x7F 9 7 rfl rfl, @toNat_field fsDate 5 0x0F 5 4 rfl rfl,
    @toNat_mask fsDate 0x1F 5 rfl, @toNat_field fsTime 11 0x1F 11 5 rfl rfl,
    @toNat_field fsTime 5 0x3F 5 6 rfl rfl, @toNat_mask fsTime 0x3F 6 rfl, Nat.shiftLeft_eq]
  rfl

lemma toNat_dateWord (d : CalendarDate) :
    d.word.toNat = (d.year - 1980) * 2 ^ 9 + d.month * 2 ^ 5 + d.day := by
  have hyear := d.year_le
  have hmonth := d.month_le
  have hday := d.day_le.trans (daysInMonth_le _ _)
  rw [CalendarDate.word, UInt16.toNat_ofNat', Nat.mod_eq_of_lt]
  omega

lemma toNat_timeWord (t : DayTime) :
    t.word.toNat = t.hour * 2 ^ 11 + t.minute * 2 ^ 5 + t.second / 2 := by
  have hhour := t.hour_lt
  have hminute := t.minute_lt
  have hsecond := t.second_lt
  rw [DayTime.word, UInt16.toNat_ofNat', Nat.mod_eq_of_lt]
  omega

/-- Everything is decoded as it was encoded, but for the seconds of an odd minute. -/
lemma toFilDateTime_words (d : CalendarDate) (t : DayTime) :
    toFilDateTime d.word t.word = { stamp d t with second := t.second + 64 * (t.minute % 2) } := by
  have hyear := d.year_le
  have hyear' := d.year_ge
  have hmonth := d.month_le
  have hday := d.day_le.trans (daysInMonth_le _ _)
  have hhour := t.hour_lt
  have hminute := t.minute_lt
  have hsecond := t.second_lt
  have heven := t.second_even
  rw [toFilDateTime_eq, toNat_dateWord, toNat_timeWord, stamp]
  simp only [FilDateTime.mk.injEq]
  omega

/-- A time stamp is decoded right if and only if its minute is even. -/
theorem toFilDateTime_decodes_iff (d : CalendarDate) (t : DayTime) :
    toFilDateTime d.word t.word = stamp d t ↔ t.minute % 2 = 0 := by
  rw [toFilDateTime_words, stamp]
  simp only [FilDateTime.mk.injEq, true_and]
  omega

/-- The 29th of February 2024. -/
def leapDay : CalendarDate :=
  ⟨2024, 2, 29, by decide, by decide, by decide, by decide, by decide, by decide⟩

/-- One minute past noon. -/
def pastNoon : DayTime := ⟨12, 1, 0, by decide, by decide, by decide, by decide⟩

/-- The minute has become 64 seconds. -/
theorem toFilDateTime_odd_minute :
    toFilDateTime leapDay.word pastNoon.word = ⟨2024, 2, 29, 12, 1, 64⟩ ∧
      toFilDateTime leapDay.word pastNoon.word ≠ stamp leapDay pastNoon := by
  decide

end EvtDrivenOs.Fat
