import Mathlib

/-!
# The proleptic Gregorian calendar

Civil dates and the days from `1970-01-01` they fall on, in the proleptic Gregorian calendar of
RFC 3339 timestamps, and instants in nanoseconds from the Unix epoch split into a date and a time
of day.

The conversions are the classic `days_from_civil` and `civil_from_days`. Years are counted from
March, so that the leap day ends the year and a month's first day is `(153 * m + 2) / 5` for the
month `m` counted from March. The 146097 days of a 400-year era are split into centuries of 36524
days, four-year cycles of 1461 days and years of 365 days; the last century of an era and the last
year of a cycle have one day more (`yearOfEra`). The date of a day count gives the count back
(`toDays_ofDays`) and is a date of the calendar (`valid_ofDays`), and the year of a day count
grows with it (`le_year_ofDays_iff`).
-/

namespace Calendar

/-- The leap years of the Gregorian calendar. -/
def isLeapYear (year : Int) : Bool :=
  year % 4 == 0 && (year % 100 != 0 || year % 400 == 0)

/-- The days of a month of a year. -/
def daysInMonth (year : Int) : Nat → Nat
  | 2 => if isLeapYear year then 29 else 28
  | 4 | 6 | 9 | 11 => 30
  | _ => 31

/-- A civil date: a year, a month from `1` and a day of the month from `1`. -/
structure Date where
  year : Int
  month : Nat
  day : Nat
deriving DecidableEq, Repr

namespace Date

/-- A date of the calendar: a month of the year, and a day of that month. -/
def Valid (d : Date) : Prop :=
  1 ≤ d.month ∧ d.month ≤ 12 ∧ 1 ≤ d.day ∧ d.day ≤ daysInMonth d.year d.month

instance : DecidablePred Valid := fun _ => inferInstanceAs (Decidable (_ ∧ _))

/-- The days from `1970-01-01` to the date (`days_from_civil`). -/
def toDays (d : Date) : Int :=
  -- the year and the month, counted from March
  let y : Int := if d.month ≤ 2 then d.year - 1 else d.year
  let mp : Int := if d.month ≤ 2 then d.month + 9 else d.month - 3
  let era := y / 400
  let yoe := y - era * 400
  let doy := (153 * mp + 2) / 5 + d.day - 1
  era * 146097 + (yoe * 365 + yoe / 4 - yoe / 100 + doy) - 719468

end Date

/-- The year of a 400-year era counted from March, and the day of that year, of a day of the era:
the century (the last one a day longer), the four-year cycle, and the year of the cycle (the last
one a day longer). -/
def yearOfEra (doe : Int) : Int × Int :=
  let c := min (doe / 36524) 3
  let r := doe - c * 36524
  let a := min (r % 1461 / 365) 3
  (100 * c + 4 * (r / 1461) + a, r % 1461 - 365 * a)

/-- The month counted from March, and the day of the month from `1`, of a day of a year counted
from March. -/
def monthOfYear (doy : Int) : Int × Int :=
  let mp := (5 * doy + 2) / 153
  (mp, doy - (153 * mp + 2) / 5 + 1)

/-- The civil date of a month and a day counted from March, in a year counted from March. -/
def ofMarchYear (y mp day : Int) : Date :=
  let month := if mp < 10 then mp + 3 else mp - 9
  ⟨y + (if month ≤ 2 then 1 else 0), month.toNat, day.toNat⟩

/-- The date of a day counted from `1970-01-01` (`civil_from_days`). -/
def ofDays (days : Int) : Date :=
  let z := days + 719468
  let era := z / 146097
  let yd := yearOfEra (z - era * 146097)
  let md := monthOfYear yd.2
  ofMarchYear (era * 400 + yd.1) md.1 md.2

/-! ## The steps of `civil_from_days` -/

/-- The year of the era and its day add up to the day of the era; a year counted from March has a
366th day only when the February that ends it is a leap one. -/
theorem yearOfEra_spec {doe : Int} (h0 : 0 ≤ doe) (h1 : doe < 146097) :
    0 ≤ (yearOfEra doe).1 ∧ (yearOfEra doe).1 < 400 ∧ 0 ≤ (yearOfEra doe).2 ∧
      (yearOfEra doe).2 ≤ 365 ∧
      ((yearOfEra doe).2 = 365 →
        (yearOfEra doe).1 % 4 = 3 ∧ ((yearOfEra doe).1 % 100 ≠ 99 ∨ (yearOfEra doe).1 = 399)) ∧
      (yearOfEra doe).1 * 365 + (yearOfEra doe).1 / 4 - (yearOfEra doe).1 / 100 +
        (yearOfEra doe).2 = doe := by
  simp only [yearOfEra]
  generalize hc : min (doe / 36524) 3 = c
  -- a century of the era, the last one a day longer
  have hc0 : 0 ≤ c ∧ c ≤ 3 := by omega
  have hr : 0 ≤ doe - c * 36524 ∧ doe - c * 36524 ≤ 36524 ∧
      (c < 3 → doe - c * 36524 < 36524) := by omega
  generalize hr' : doe - c * 36524 = r at hr ⊢
  generalize ha : min (r % 1461 / 365) 3 = a
  -- a year of the four-year cycle, the last one a day longer
  have ha0 : 0 ≤ a ∧ a ≤ 3 ∧ 365 * a ≤ r % 1461 ∧ (a < 3 → r % 1461 < 365 * a + 365) := by
    omega
  have hq : r / 1461 ≤ 24 := by omega
  have h4 : (100 * c + 4 * (r / 1461) + a) / 4 = 25 * c + r / 1461 := by omega
  have h100 : (100 * c + 4 * (r / 1461) + a) / 100 = c := by omega
  rw [h4, h100]
  omega

/-- The month counted from March and its day: the month's first day and the day add up to the
day of the year, and every month but the last, February, ends before the next begins. -/
theorem monthOfYear_spec {doy : Int} (h0 : 0 ≤ doy) (h1 : doy ≤ 365) :
    0 ≤ (monthOfYear doy).1 ∧ (monthOfYear doy).1 ≤ 11 ∧ 1 ≤ (monthOfYear doy).2 ∧
      (153 * (monthOfYear doy).1 + 2) / 5 + (monthOfYear doy).2 - 1 = doy ∧
      ((monthOfYear doy).1 < 11 →
        doy < (153 * ((monthOfYear doy).1 + 1) + 2) / 5) := by
  simp only [monthOfYear]
  omega

/-- The February after the year `yoe` of an era, counted from March, is a leap one exactly when
the cycle and the century let it be. -/
theorem isLeapYear_era_add_one {era yoe : Int} (h0 : 0 ≤ yoe) (h1 : yoe < 400) :
    isLeapYear (era * 400 + yoe + 1) = true ↔ yoe % 4 = 3 ∧ (yoe % 100 ≠ 99 ∨ yoe = 399) := by
  simp only [isLeapYear, Bool.and_eq_true, beq_iff_eq, Bool.or_eq_true, bne_iff_ne, ne_eq]
  omega

/-- `days_from_civil` of a date given from March: the day of its year counted from March, in its
era. -/
theorem toDays_ofMarchYear {y mp day : Int} (hm0 : 0 ≤ mp) (hm1 : mp ≤ 11) (hday : 1 ≤ day) :
    (ofMarchYear y mp day).toDays =
      y / 400 * 146097 + ((y - y / 400 * 400) * 365 + (y - y / 400 * 400) / 4 -
        (y - y / 400 * 400) / 100 + ((153 * mp + 2) / 5 + day - 1)) - 719468 := by
  -- March to December, or January and February of the next calendar year
  by_cases hmp : mp < 10
  · have hmonth : ¬ (mp + 3).toNat ≤ 2 := by omega
    have hmonth' : ¬ mp + 3 ≤ 2 := by omega
    simp only [ofMarchYear, Date.toDays, hmp, hmonth, hmonth', if_true, if_false, add_zero]
    omega
  · have hmonth : (mp - 9).toNat ≤ 2 := by omega
    have hmonth' : mp - 9 ≤ 2 := by omega
    simp only [ofMarchYear, Date.toDays, hmp, hmonth, hmonth', if_true, if_false,
      add_sub_cancel_right]
    omega

/-- A month counted from March and a day that falls in it make a date of the calendar: a day of a
month before February, or a day of February, whose 29th day only a leap year has. -/
theorem valid_ofMarchYear {y mp day : Int} (hm0 : 0 ≤ mp) (hm1 : mp ≤ 11) (hday : 1 ≤ day)
    (hend : mp < 11 → (153 * mp + 2) / 5 + day - 1 < (153 * (mp + 1) + 2) / 5)
    (hfeb : mp = 11 → day ≤ 28 ∨ (day = 29 ∧ isLeapYear (y + 1) = true)) :
    (ofMarchYear y mp day).Valid := by
  rcases (show mp < 11 ∨ mp = 11 by omega) with hlt | rfl
  · -- March to January: the month's length is the distance to the next month's first day
    have hlen := hend hlt
    interval_cases mp <;>
      simp only [ofMarchYear, Date.Valid, daysInMonth, Int.reduceLT, Int.reduceAdd, Int.reduceSub,
        Int.reduceLE, Int.reduceToNat, ↓reduceIte] <;> omega
  · rcases hfeb rfl with h28 | ⟨rfl, hleap⟩
    · simp only [ofMarchYear, Date.Valid, daysInMonth, Int.reduceLT, Int.reduceSub, Int.reduceLE,
        Int.reduceToNat, ↓reduceIte]
      split_ifs <;> omega
    · simp only [ofMarchYear, Date.Valid, daysInMonth, Int.reduceLT, Int.reduceSub, Int.reduceLE,
        Int.reduceToNat, ↓reduceIte, hleap]
      omega

/-! ## The date of a day count -/

/-- The day of its era that `civil_from_days` splits, counted from the March before the era's first
year. -/
theorem dayOfEra_mem (days : Int) :
    0 ≤ days + 719468 - (days + 719468) / 146097 * 146097 ∧
      days + 719468 - (days + 719468) / 146097 * 146097 < 146097 := by
  omega

/-- The date of a day count gives the day count back. -/
theorem toDays_ofDays (days : Int) : (ofDays days).toDays = days := by
  have hdoe := dayOfEra_mem days
  obtain ⟨hy0, hy1, hd0, hd1, -, hyd⟩ := yearOfEra_spec hdoe.1 hdoe.2
  obtain ⟨hm0, hm1, hday, hmd, -⟩ := monthOfYear_spec hd0 hd1
  rw [ofDays, toDays_ofMarchYear hm0 hm1 hday]
  -- the year counted from March is the era's year, whose era and year of era come back
  have hera : ((days + 719468) / 146097 * 400 +
      (yearOfEra (days + 719468 - (days + 719468) / 146097 * 146097)).1) / 400 =
      (days + 719468) / 146097 := by omega
  rw [hera, add_sub_cancel_left]
  omega

/-- The date of a day count is a date of the calendar. -/
theorem valid_ofDays (days : Int) : (ofDays days).Valid := by
  have hdoe := dayOfEra_mem days
  obtain ⟨hy0, hy1, hd0, hd1, hleap, -⟩ := yearOfEra_spec hdoe.1 hdoe.2
  obtain ⟨hm0, hm1, hday, hmd, hend⟩ := monthOfYear_spec hd0 hd1
  refine valid_ofMarchYear hm0 hm1 hday (fun hlt => by omega) (fun hfeb => ?_)
  -- the 29th of February is the 366th day of a year counted from March, which ends a leap one
  by_cases h365 : (yearOfEra (days + 719468 - (days + 719468) / 146097 * 146097)).2 = 365
  · exact .inr ⟨by omega, (isLeapYear_era_add_one hy0 hy1).mpr (hleap h365)⟩
  · exact .inl (by omega)

/-! ## Years -/

theorem daysInMonth_le (year : Int) (month : Nat) : daysInMonth year month ≤ 31 := by
  unfold daysInMonth
  split
  · split <;> omega
  all_goals omega

/-- A date with a month of the year and a day up to the 31st falls between the first day of its
year and that of the next. -/
theorem toDays_mem_year {d : Date} (hm0 : 1 ≤ d.month) (hm1 : d.month ≤ 12) (hd0 : 1 ≤ d.day)
    (hd1 : d.day ≤ 31) :
    (Date.mk d.year 1 1).toDays ≤ d.toDays ∧ d.toDays < (Date.mk (d.year + 1) 1 1).toDays := by
  obtain ⟨year, month, day⟩ := d
  simp only [Date.toDays] at *
  split_ifs <;> omega

/-- The first days of the years come in order. -/
theorem toDays_jan_one_le {y y' : Int} (h : y ≤ y') :
    (Date.mk y 1 1).toDays ≤ (Date.mk y' 1 1).toDays := by
  simp only [Date.toDays]
  omega

/-- The year of a day count is at least `y` exactly when the count is past the first day of `y`. -/
theorem le_year_ofDays_iff (y days : Int) :
    y ≤ (ofDays days).year ↔ (Date.mk y 1 1).toDays ≤ days := by
  obtain ⟨hm0, hm1, hd0, hd1⟩ := valid_ofDays days
  have hmem := toDays_mem_year hm0 hm1 hd0 (le_trans hd1 (daysInMonth_le _ _))
  rw [toDays_ofDays] at hmem
  constructor
  · intro h
    exact le_trans (toDays_jan_one_le h) hmem.1
  · intro h
    by_contra hlt
    have hnext := toDays_jan_one_le (show (ofDays days).year + 1 ≤ y by omega)
    omega

/-! ## Instants -/

/-- Nanoseconds in a day. -/
def nanosPerDay : Int := 86400 * 10 ^ 9

/-- A date and a time of day, to the nanosecond. -/
structure DateTime where
  date : Date
  hour : Nat
  minute : Nat
  second : Nat
  nanosecond : Nat
deriving DecidableEq, Repr

namespace DateTime

/-- A date of the calendar and a time of its day. -/
def Valid (t : DateTime) : Prop :=
  t.date.Valid ∧ t.hour < 24 ∧ t.minute < 60 ∧ t.second < 60 ∧ t.nanosecond < 10 ^ 9

instance : DecidablePred Valid := fun _ => inferInstanceAs (Decidable (_ ∧ _))

/-- The nanoseconds from the Unix epoch to the date-time, read in UTC. -/
def toUnixNanos (t : DateTime) : Int :=
  t.date.toDays * nanosPerDay + ((t.hour * 60 + t.minute) * 60 + t.second) * 10 ^ 9 + t.nanosecond

/-- The UTC date-time of an instant in nanoseconds from the Unix epoch. -/
def ofUnixNanos (nanos : Int) : DateTime :=
  let time := (nanos % nanosPerDay).toNat
  ⟨ofDays (nanos / nanosPerDay), time / (3600 * 10 ^ 9), time / (60 * 10 ^ 9) % 60,
    time / 10 ^ 9 % 60, time % 10 ^ 9⟩

theorem toUnixNanos_ofUnixNanos (nanos : Int) : (ofUnixNanos nanos).toUnixNanos = nanos := by
  have htime : 0 ≤ nanos % nanosPerDay ∧ nanos % nanosPerDay < nanosPerDay :=
    ⟨Int.emod_nonneg _ (by decide), Int.emod_lt_of_pos _ (by decide)⟩
  simp only [toUnixNanos, ofUnixNanos, toDays_ofDays]
  -- the time of day is the remainder, split into hours, minutes, seconds and nanoseconds
  have hsplit := Int.ediv_mul_add_emod nanos nanosPerDay
  simp only [nanosPerDay] at htime hsplit ⊢
  omega

theorem valid_ofUnixNanos (nanos : Int) : (ofUnixNanos nanos).Valid := by
  have htime : nanos % nanosPerDay < nanosPerDay := Int.emod_lt_of_pos _ (by decide)
  refine ⟨valid_ofDays _, ?_, ?_, ?_, ?_⟩ <;> simp only [ofUnixNanos, nanosPerDay] at htime ⊢ <;>
    omega

/-- The year of an instant is at least `y` exactly when the instant is past the first day of
`y`. -/
theorem le_year_ofUnixNanos_iff (y nanos : Int) :
    y ≤ (ofUnixNanos nanos).date.year ↔ (Date.mk y 1 1).toDays * nanosPerDay ≤ nanos := by
  rw [ofUnixNanos, le_year_ofDays_iff, Int.le_ediv_iff_mul_le (by decide)]

end DateTime

end Calendar
