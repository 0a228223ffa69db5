import Mathlib.Tactic
import Recordsmith.Calendar.Date

/-!
# The numbers of dates

* `Date.ofDays_toDays`, `Date.toDays_ofDays`: a date and its number determine each other;
* `Date.toDays_lt_iff`: numbers follow the order of year, month and day;
* `Date.inRange_iff`: the dates that calculations may reach are those of an interval of numbers;
* `Date.addMonths_eq_some`: what a step of months does to year, month and day;
* `Date.moved_eq_addMonths`: steps forward and back are one step by a signed number of months.
-/

namespace Recordsmith

/-! ## Lengths of months and years -/

theorem daysInMonth_ge (year : Int) {month : Nat} (h₁ : 1 ≤ month) (h₂ : month ≤ 12) :
    28 ≤ daysInMonth year month := by
  interval_cases month <;> simp only [daysInMonth] <;> (try split) <;> omega

theorem daysInMonth_le (year : Int) (month : Nat) : daysInMonth year month ≤ 31 := by
  unfold daysInMonth
  split <;> (try split) <;> omega

/-- The number of days of a year. -/
def yearLength (year : Int) : Nat := if isLeapYear year then 366 else 365

theorem isLeapYear_iff (year : Int) :
    isLeapYear year = true ↔ (year % 4 = 0 ∧ year % 100 ≠ 0) ∨ year % 400 = 0 := by
  simp [isLeapYear]

namespace Date

@[simp] theorem daysBeforeMonth_one (year : Int) : daysBeforeMonth year 1 = 0 := rfl

theorem daysBeforeMonth_succ (year : Int) {month : Nat} (h : 1 ≤ month) :
    daysBeforeMonth year (month + 1) = daysBeforeMonth year month + daysInMonth year month := by
  obtain ⟨m, rfl⟩ : ∃ m, month = m + 1 := ⟨month - 1, by omega⟩
  rfl

theorem daysBeforeMonth_mono (year : Int) {m n : Nat} (h : m ≤ n) :
    daysBeforeMonth year m ≤ daysBeforeMonth year n := by
  induction n, h using Nat.le_induction with
  | base => exact le_rfl
  | succ n _ ih =>
    rcases Nat.eq_zero_or_pos n with rfl | hn
    · simpa [daysBeforeMonth] using ih
    · rw [daysBeforeMonth_succ year hn]
      omega

/-- The twelve months fill the year. -/
theorem daysBeforeMonth_thirteen (year : Int) : daysBeforeMonth year 13 = yearLength year := by
  simp only [daysBeforeMonth, daysInMonth, yearLength]
  split <;> rfl

theorem daysBeforeYear_succ (year : Int) :
    daysBeforeYear (year + 1) = daysBeforeYear year + yearLength year := by
  have h := isLeapYear_iff year
  unfold daysBeforeYear yearLength
  split
  · rename_i hl
    rw [hl] at h
    simp only [true_iff] at h
    push_cast
    omega
  · rename_i hl
    simp only [hl, Bool.false_eq_true, false_iff, not_or, not_and, not_not] at h
    push_cast
    omega

theorem daysBeforeYear_mono {y z : Int} (h : y ≤ z) : daysBeforeYear y ≤ daysBeforeYear z := by
  unfold daysBeforeYear
  omega

/-! ## Order -/

theorem ordinal_pos (d : Date) : 1 ≤ d.ordinal := by
  have := d.day_pos
  unfold ordinal
  omega

/-- A date lies before the first day of the next month. -/
theorem ordinal_le (d : Date) : d.ordinal ≤ daysBeforeMonth d.year (d.month + 1) := by
  have := d.day_le
  unfold ordinal
  rw [daysBeforeMonth_succ d.year d.month_pos]
  omega

theorem ordinal_le_yearLength (d : Date) : d.ordinal ≤ yearLength d.year := by
  have h : d.month + 1 ≤ 13 := by have := d.month_le; omega
  rw [← daysBeforeMonth_thirteen]
  exact d.ordinal_le.trans (daysBeforeMonth_mono d.year h)

theorem day_le_31 (d : Date) : d.day ≤ 31 :=
  d.day_le.trans (daysInMonth_le d.year d.month)

theorem ordinal_le_366 (d : Date) : d.ordinal ≤ 366 := by
  refine d.ordinal_le_yearLength.trans ?_
  unfold yearLength
  split <;> omega

theorem weekday_le (d : Date) : d.weekday ≤ 6 := by
  unfold weekday
  omega

/-- A date lies in its year. -/
theorem toDays_bounds (d : Date) :
    daysBeforeYear d.year ≤ d.toDays + daysBeforeEpoch ∧
      d.toDays + daysBeforeEpoch < daysBeforeYear (d.year + 1) := by
  have h₁ := d.ordinal_pos
  have h₂ := d.ordinal_le_yearLength
  rw [daysBeforeYear_succ]
  unfold toDays
  constructor <;> omega

/-- Year, month and day in the order of the calendar. -/
def Earlier (d e : Date) : Prop :=
  d.year < e.year ∨ (d.year = e.year ∧ (d.month < e.month ∨ (d.month = e.month ∧ d.day < e.day)))

theorem toDays_lt_of_earlier {d e : Date} (h : d.Earlier e) : d.toDays < e.toDays := by
  rcases h with h | ⟨hy, h | ⟨hm, h⟩⟩
  · have hd := d.toDays_bounds.2
    have he := e.toDays_bounds.1
    have := daysBeforeYear_mono (show d.year + 1 ≤ e.year by omega)
    omega
  · have hd := d.ordinal_le
    have := daysBeforeMonth_mono d.year (show d.month + 1 ≤ e.month by omega)
    have he := e.day_pos
    unfold toDays
    rw [← hy]
    have : daysBeforeMonth d.year e.month + e.day = e.ordinal := by rw [ordinal, hy]
    omega
  · unfold toDays ordinal
    rw [hy, hm]
    omega

theorem earlier_trichotomy (d e : Date) : d.Earlier e ∨ d = e ∨ e.Earlier d := by
  rcases lt_trichotomy d.year e.year with hy | hy | hy
  · exact Or.inl (Or.inl hy)
  · rcases lt_trichotomy d.month e.month with hm | hm | hm
    · exact Or.inl (Or.inr ⟨hy, Or.inl hm⟩)
    · rcases lt_trichotomy d.day e.day with hd | hd | hd
      · exact Or.inl (Or.inr ⟨hy, Or.inr ⟨hm, hd⟩⟩)
      · refine Or.inr (Or.inl ?_)
        cases d; cases e
        simp_all
      · exact Or.inr (Or.inr (Or.inr ⟨hy.symm, Or.inr ⟨hm.symm, hd⟩⟩))
    · exact Or.inr (Or.inr (Or.inr ⟨hy.symm, Or.inl hm⟩))
  · exact Or.inr (Or.inr (Or.inl hy))

/-- **Numbers follow the order of the calendar.** -/
theorem toDays_lt_iff {d e : Date} : d.toDays < e.toDays ↔ d.Earlier e := by
  refine ⟨fun h => ?_, toDays_lt_of_earlier⟩
  rcases earlier_trichotomy d e with h' | rfl | h'
  · exact h'
  · exact absurd h (lt_irrefl _)
  · exact absurd (toDays_lt_of_earlier h') (by omega)

theorem toDays_injective {d e : Date} (h : d.toDays = e.toDays) : d = e := by
  rcases earlier_trichotomy d e with h' | h' | h'
  · exact absurd (toDays_lt_of_earlier h') (by omega)
  · exact h'
  · exact absurd (toDays_lt_of_earlier h') (by omega)

/-! ## The date of a number -/

theorem ofYmd?_eq_some {year : Int} {month day : Nat} {d : Date}
    (h : ofYmd? year month day = some d) : d.year = year ∧ d.month = month ∧ d.day = day := by
  unfold ofYmd? at h
  split at h
  · obtain rfl := Option.some.inj h
    exact ⟨rfl, rfl, rfl⟩
  · exact absurd h (by simp)

theorem ofYmd?_isSome {year : Int} {month day : Nat} (h₁ : 1 ≤ month) (h₂ : month ≤ 12)
    (h₃ : 1 ≤ day) (h₄ : day ≤ daysInMonth year month) : ∃ d, ofYmd? year month day = some d :=
  ⟨_, dif_pos ⟨⟨h₁, h₂⟩, h₃, h₄⟩⟩

/-- The search over the months finds the day it looks for, as long as months are left for it. -/
theorem locate?_spec (year : Int) : ∀ (fuel month day : Nat), 1 ≤ month → month + fuel = 13 →
    1 ≤ day → daysBeforeMonth year month + day ≤ yearLength year →
    ∃ d, locate? year fuel month day = some d ∧ d.year = year ∧
      d.ordinal = daysBeforeMonth year month + day
  | 0, month, day, _, hf, hd, hl => by
    obtain rfl : month = 13 := by omega
    rw [daysBeforeMonth_thirteen] at hl
    omega
  | fuel + 1, month, day, hm, hf, hd, hl => by
    unfold locate?
    split
    · rename_i h
      obtain ⟨d, hd'⟩ := ofYmd?_isSome hm (by omega) hd h
      obtain ⟨rfl, rfl, rfl⟩ := ofYmd?_eq_some hd'
      exact ⟨d, hd', rfl, rfl⟩
    · have hs := daysBeforeMonth_succ year hm
      obtain ⟨d, h₁, h₂, h₃⟩ := locate?_spec year fuel (month + 1)
        (day - daysInMonth year month) (by omega) (by omega) (by omega) (by omega)
      exact ⟨d, h₁, h₂, by omega⟩

theorem ofOrdinal?_spec (year : Int) (ordinal : Nat) (h₁ : 1 ≤ ordinal)
    (h₂ : ordinal ≤ yearLength year) :
    ∃ d, ofOrdinal? year ordinal = some d ∧ d.year = year ∧ d.ordinal = ordinal := by
  obtain ⟨d, h, hy, ho⟩ := locate?_spec year 12 1 ordinal le_rfl rfl h₁ (by simpa using h₂)
  exact ⟨d, h, hy, by simpa using ho⟩

theorem year_of_locate? {year : Int} {d : Date} : ∀ {fuel month day : Nat},
    locate? year fuel month day = some d → d.year = year
  | 0, _, _, h => absurd h (by simp [locate?])
  | fuel + 1, month, day, h => by
    unfold locate? at h
    split at h
    · exact (ofYmd?_eq_some h).1
    · exact year_of_locate? h

theorem year_of_ofOrdinal? {year : Int} {ordinal : Nat} {d : Date}
    (h : ofOrdinal? year ordinal = some d) : d.year = year :=
  year_of_locate? h

/-- The year of a day is the one whose days lie around it. -/
theorem yearOfDay_bounds (n : Int) :
    daysBeforeYear (yearOfDay n) ≤ n ∧ n < daysBeforeYear (yearOfDay n + 1) := by
  simp only [yearOfDay]
  split_ifs with h₁ h₂
  · rw [show n * 400 / 146097 + 1 - 1 + 1 = n * 400 / 146097 + 1 by omega]
    refine ⟨?_, h₁⟩
    unfold daysBeforeYear
    omega
  · refine ⟨h₂, ?_⟩
    unfold daysBeforeYear
    omega
  · omega

/-- **The date of a number has that number.** -/
@[simp] theorem toDays_ofDays (n : Int) : (ofDays n).toDays = n := by
  obtain ⟨h₁, h₂⟩ := yearOfDay_bounds (n + daysBeforeEpoch)
  rw [daysBeforeYear_succ] at h₂
  obtain ⟨d, hd, hy, ho⟩ := ofOrdinal?_spec (yearOfDay (n + daysBeforeEpoch))
    (n + daysBeforeEpoch - daysBeforeYear (yearOfDay (n + daysBeforeEpoch)) + 1).toNat
    (by omega) (by omega)
  have : ofDays n = d := by simp only [ofDays, hd, Option.getD_some]
  rw [this, toDays, hy, ho]
  omega

/-- **A date is the date of its number.** -/
@[simp] theorem ofDays_toDays (d : Date) : ofDays d.toDays = d :=
  toDays_injective (toDays_ofDays d.toDays)

/-! ## Range -/

/-- The number of the first date that calculations may reach. -/
def minDays : Int := daysBeforeYear minYear - daysBeforeEpoch

/-- The number of the last date that calculations may reach. -/
def maxDays : Int := daysBeforeYear (maxYear + 1) - daysBeforeEpoch - 1

theorem lt_year_iff {d : Date} {year : Int} :
    d.year < year ↔ d.toDays + daysBeforeEpoch < daysBeforeYear year := by
  obtain ⟨h₁, h₂⟩ := d.toDays_bounds
  constructor
  · intro h
    have := daysBeforeYear_mono (show d.year + 1 ≤ year by omega)
    omega
  · intro h
    by_contra hc
    have := daysBeforeYear_mono (show year ≤ d.year by omega)
    omega

/-- **The dates that calculations may reach are an interval.** -/
theorem inRange_iff {d : Date} : d.inRange = true ↔ minDays ≤ d.toDays ∧ d.toDays ≤ maxDays := by
  have h₁ := @lt_year_iff d minYear
  have h₂ := @lt_year_iff d (maxYear + 1)
  unfold inRange minDays maxDays
  simp only [Bool.and_eq_true, decide_eq_true_eq]
  constructor <;> rintro ⟨_, _⟩ <;> constructor <;> omega

theorem ofYmdInRange?_eq_some {year : Int} {month day : Nat} {d : Date}
    (h : ofYmdInRange? year month day = some d) :
    d.year = year ∧ d.month = month ∧ d.day = day ∧ d.inRange = true := by
  obtain ⟨h₁, h₂⟩ := Option.filter_eq_some_iff.1 h
  obtain ⟨hy, hm, hd⟩ := ofYmd?_eq_some h₁
  exact ⟨hy, hm, hd, h₂⟩

theorem ofYmdInRange?_isSome {year : Int} {month day : Nat} (h₁ : 1 ≤ month) (h₂ : month ≤ 12)
    (h₃ : 1 ≤ day) (h₄ : day ≤ daysInMonth year month) (h₅ : minYear ≤ year)
    (h₆ : year ≤ maxYear) : ∃ d, ofYmdInRange? year month day = some d := by
  obtain ⟨d, hd⟩ := ofYmd?_isSome h₁ h₂ h₃ h₄
  obtain ⟨rfl, -, -⟩ := ofYmd?_eq_some hd
  exact ⟨d, Option.filter_eq_some_iff.2 ⟨hd, by simp [inRange, h₅, h₆]⟩⟩

theorem ofYmdInRange?_self {d : Date} (h : d.inRange = true) :
    ofYmdInRange? d.year d.month d.day = some d :=
  Option.filter_eq_some_iff.2 ⟨dif_pos ⟨⟨d.month_pos, d.month_le⟩, d.day_pos, d.day_le⟩, h⟩

/-! ## Steps of months -/

/-- The number of the month of a date, counted from the start of the year 0. -/
def monthNumber (d : Date) : Int := 12 * d.year + (d.month - 1 : Nat)

theorem addMonths_eq_some {d e : Date} {amount : Int} (h : d.addMonths amount = some e) :
    e.monthNumber = d.monthNumber + amount ∧
      e.day = min d.day (daysInMonth e.year e.month) ∧ e.inRange = true := by
  obtain ⟨hy, hm, hd, hr⟩ := ofYmdInRange?_eq_some h
  refine ⟨?_, by rw [hd, hy, hm], hr⟩
  unfold monthNumber
  omega

theorem addMonths_isSome {d : Date} {amount : Int}
    (h₁ : minYear ≤ (d.monthNumber + amount) / 12) (h₂ : (d.monthNumber + amount) / 12 ≤ maxYear) :
    ∃ e, d.addMonths amount = some e := by
  have hmonth : ((d.monthNumber + amount) % 12).toNat + 1 ≤ 12 := by omega
  have hpos : 1 ≤ ((d.monthNumber + amount) % 12).toNat + 1 := by omega
  have hlen := daysInMonth_ge ((d.monthNumber + amount) / 12) hpos hmonth
  have hday : 1 ≤ min d.day (daysInMonth ((d.monthNumber + amount) / 12)
      (((d.monthNumber + amount) % 12).toNat + 1)) := le_min d.day_pos (by omega)
  exact ofYmdInRange?_isSome hpos hmonth hday (min_le_right _ _) h₁ h₂

theorem year_eq_monthNumber (d : Date) : d.year = d.monthNumber / 12 := by
  have := d.month_pos
  have := d.month_le
  unfold monthNumber
  omega

theorem month_eq_monthNumber (d : Date) : (d.month : Int) = d.monthNumber % 12 + 1 := by
  have := d.month_pos
  have := d.month_le
  unfold monthNumber
  omega

theorem year_bounds {d : Date} (h : d.inRange = true) : minYear ≤ d.year ∧ d.year ≤ maxYear := by
  simpa [inRange] using h

/-- A step of months fails exactly where it leaves the years that calculations may reach. -/
theorem addMonths_eq_none_iff {d : Date} {amount : Int} :
    d.addMonths amount = none ↔
      ¬ (minYear ≤ (d.monthNumber + amount) / 12 ∧ (d.monthNumber + amount) / 12 ≤ maxYear) := by
  constructor
  · rintro h ⟨h₁, h₂⟩
    obtain ⟨e, he⟩ := addMonths_isSome h₁ h₂
    rw [h] at he
    cases he
  · intro h
    rw [Option.eq_none_iff_forall_ne_some]
    intro e he
    obtain ⟨hnumber, -, hrange⟩ := addMonths_eq_some he
    rw [← hnumber, ← year_eq_monthNumber] at h
    exact h (year_bounds hrange)

/-- **Steps forward and back by the size of an amount are one step by the signed amount.** More
    months than a date is moved by lead out of range in either direction. -/
theorem moved_eq_addMonths {d : Date} (h : d.inRange = true) (amount : Int) :
    (if 0 ≤ amount then d.monthsLater amount.natAbs else d.monthsEarlier amount.natAbs) =
      d.addMonths amount := by
  have hsize : ∀ moved : Int, moved = amount →
      (if amount.natAbs ≤ maxMonths then d.addMonths moved else none) = d.addMonths amount := by
    rintro _ rfl
    split_ifs with hle
    · rfl
    · have hyear := year_bounds h
      have hmonth := d.month_le
      refine (addMonths_eq_none_iff.2 ?_).symm
      unfold minYear maxYear monthNumber at *
      unfold maxMonths at hle
      omega
  unfold monthsLater monthsEarlier
  by_cases hsign : 0 ≤ amount
  · rw [if_pos hsign]
    exact hsize _ (Int.natAbs_of_nonneg hsign)
  · rw [if_neg hsign]
    exact hsize _ (by omega)

theorem earlier_of_monthNumber_lt {d e : Date} (h : d.monthNumber < e.monthNumber) :
    d.Earlier e := by
  have := d.month_pos
  have := d.month_le
  have := e.month_pos
  have := e.month_le
  unfold monthNumber at h
  rcases lt_trichotomy d.year e.year with hy | hy | hy
  · exact Or.inl hy
  · exact Or.inr ⟨hy, Or.inl (by omega)⟩
  · omega

/-- A step of months forward is a step of days forward. -/
theorem toDays_lt_of_addMonths {d e : Date} {amount : Int} (h : d.addMonths amount = some e)
    (hpos : 0 < amount) : d.toDays < e.toDays :=
  toDays_lt_of_earlier (earlier_of_monthNumber_lt (by rw [(addMonths_eq_some h).1]; omega))

/-- A step of months back is a step of days back. -/
theorem toDays_gt_of_addMonths {d e : Date} {amount : Int} (h : d.addMonths amount = some e)
    (hneg : amount < 0) : e.toDays < d.toDays :=
  toDays_lt_of_earlier (earlier_of_monthNumber_lt (by rw [(addMonths_eq_some h).1]; omega))

end Date
end Recordsmith
