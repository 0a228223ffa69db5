import Recordsmith.Proofs.LocalSteps
import Recordsmith.Proofs.Places

/-!
# Steps of time, forward and back

* `TimeUnit.shift_direction`: in a zone whose clocks are never set back by a day, a step leads to a
  later moment if its amount is positive and to an earlier one if it is negative, whatever the
  clocks skip or repeat on the way;
* `Date.InMonth` is a day of a numbered month, or its last day if the month is too short;
* `TimeUnit.shift_months_clamped`: in universal time, steps of months and years are additions to the
  number of the month, in either direction.
-/

namespace Recordsmith

/-! ## Back -/

namespace Zoned

/-- A reading that lies a day back is placed earlier, if the clocks are never set back so far. -/
theorem gt_of_resolve {origin z : Zoned} {reading : Moment} (hz : origin.zone.KeepsDay)
    (h : origin.resolve reading = .ok z)
    (hday : reading.seconds + secondsPerDay ≤ origin.reading.seconds) : z.utc < origin.utc := by
  rw [seconds_reading] at hday
  simp only [secondsPerDay] at hday
  obtain ⟨hzone, -, hr | hr⟩ := resolve_cases h
  · -- the clocks show the reading: were it not earlier, they would be set back by a day
    refine Moment.lt_iff.2 (Or.inl ?_)
    by_contra hc
    have hback := hz origin.utc.seconds z.utc.seconds (by omega)
    rw [seconds_reading, offset, hzone] at hr
    simp only [secondsPerDay, offset] at hback hday
    omega
  · -- a leap second may be counted as the second after it, which is still a day too early
    refine Moment.lt_iff.2 (Or.inl ?_)
    have := (reading.add_bounds (-origin.offset)).2
    rw [← hr] at this
    omega

theorem addMonths_gt {z r : Zoned} {amount : Int} (hz : z.zone.KeepsDay)
    (h : z.addMonths amount = .ok r) (hneg : amount < 0) : r.utc < z.utc := by
  obtain ⟨date, hd, h⟩ := addMonths_eq_ok h
  have hearlier := Date.toDays_gt_of_addMonths hd hneg
  have hseconds := congrArg (· + (secondsPerDay : Int)) (seconds_with_date z.reading date)
  refine gt_of_resolve hz h (le_of_eq_of_le hseconds ?_)
  simp only [secondsPerDay]
  omega

end Zoned

namespace TimeUnit

/-- **A step back leads to an earlier moment.** -/
theorem shift_gt {unit : TimeUnit} {z r : Zoned} {amount : Int} (hz : z.zone.KeepsDay)
    (h : unit.shift z amount = .ok r) (hneg : amount < 0) : r.utc < z.utc := by
  rcases shift_cases h with ⟨hn, h⟩ | ⟨-, h⟩ | ⟨-, h⟩ | ⟨-, h⟩
  · obtain ⟨rfl, -⟩ := Zoned.addNanos_eq_ok h
    exact Moment.add_gt _ (Int.mul_neg_of_neg_of_pos hneg hn)
  · refine Zoned.gt_of_resolve hz (Zoned.addDays_eq_ok h) ?_
    rw [Moment.seconds_onClock, secondsPerDay]
    omega
  · exact Zoned.addMonths_gt hz h hneg
  · exact Zoned.addMonths_gt hz h (by omega)

/-- **A step moves in the direction of its sign.** In a zone whose clocks are never set back by a
    day or more, a step that can be made ends strictly later than it began if its amount is
    positive, and strictly earlier if it is negative, from leap seconds as well. -/
theorem shift_direction {unit : TimeUnit} {z r : Zoned} {amount : Int} (hz : z.zone.KeepsDay)
    (h : unit.shift z amount = .ok r) :
    (0 < amount → z.utc < r.utc) ∧ (amount < 0 → r.utc < z.utc) :=
  ⟨shift_lt hz h, shift_gt hz h⟩

/-- A leap second at half past two in the morning of the first of April 2024, in Paris. -/
def leapMorning : Zoned := ⟨.ofSeconds 1711931459 1750000000 (by decide), parisSpring⟩

/-- A day earlier, when the clocks skip half past two. -/
def leapMorningBefore : Zoned := ⟨.ofSeconds 1711845060 750000000 (by decide), parisSpring⟩

theorem shift_direction_leapMorning :
    (leapMorning.zone.KeepsDay ∧ leapMorning.utc.inLeapSecond = true ∧
      TimeUnit.day.shift leapMorning (-1) = .ok leapMorningBefore) ∧
    leapMorningBefore.utc < leapMorning.utc := by
  have hwithin : parisSpring.Within 3600 7200 := by
    intro offset hmem
    rcases mem_offsets_ofSpans hmem with rfl | ⟨span, hspan, rfl⟩
    · decide
    · obtain rfl := List.mem_singleton.1 hspan
      decide
  have hz : leapMorning.zone.KeepsDay := hwithin.keepsDay (by decide)
  have h : TimeUnit.day.shift leapMorning (-1) = .ok leapMorningBefore := by
    cbv
  exact ⟨⟨hz, by decide, h⟩, (shift_direction hz h).2 (by decide)⟩

end TimeUnit

/-! ## Months and years in universal time -/

/-- The date lies in the month with this number, counted from January of the year 0, on this day or
    on the last one of the month if the month is too short for it. -/
structure Date.InMonth (date : Date) (number : Int) (day : Nat) : Prop where
  year_eq : date.year = number / 12
  month_eq : (date.month : Int) = number % 12 + 1
  day_eq : date.day = min day (daysInMonth date.year date.month)

theorem Date.inMonth_addMonths {d e : Date} {amount : Int} (h : d.addMonths amount = some e) :
    e.InMonth (d.monthNumber + amount) d.day := by
  obtain ⟨hnumber, hday, -⟩ := addMonths_eq_some h
  rw [← hnumber]
  exact ⟨e.year_eq_monthNumber, e.month_eq_monthNumber, hday⟩

/-- In universal time a step of months moves the date alone. -/
theorem Zoned.addMonths_utc {m : Moment} (hm : m.inRange = true) (amount : Int) :
    (⟨m, .utc⟩ : Zoned).addMonths amount =
      match m.date.addMonths amount with
      | some date => .ok ⟨{ m with date }, .utc⟩
      | none => .error .outOfRange := by
  have hread : (⟨m, .utc⟩ : Zoned).checkedReading = .ok m := by
    rw [checkedReading, reading_utc, if_pos hm]
  rw [addMonths_eq]
  by_cases hmax : maxMonths < amount.natAbs
  · have hyear := Moment.year_bounds hm
    have hmonth := m.date.month_le
    have hnone : m.date.addMonths amount = none := by
      rw [Date.addMonths_eq_none_iff]
      unfold Date.minYear Date.maxYear Date.monthNumber at *
      unfold maxMonths at hmax
      omega
    rw [if_pos hmax, hnone]
  · rw [if_neg hmax, hread, ok_bind]
    cases hdate : m.date.addMonths amount with
    | none => rfl
    | some date => exact resolve_utc m (Date.addMonths_eq_some hdate).2.2

namespace TimeUnit

/-- **Steps of months and years are clamped arithmetic on the calendar.** A step of months from a
    moment of universal time adds its amount to the number of the month. It leads to the same time
    of day on the same day of the new month, or on its last day if there is no such day; and it
    cannot be made just if the new month lies outside the years that calculations may reach. A step
    of years is one of twelve months each, and cannot be made if their number does not fit a 64-bit
    word. -/
theorem shift_months_clamped {m : Moment} (hm : m.inRange = true) (amount : Int) :
    (∀ number, number = 12 * m.date.year + ((m.date.month : Int) - 1) + amount →
      (Date.minYear ≤ number / 12 ∧ number / 12 ≤ Date.maxYear → ∃ date : Date,
        date.InMonth number m.date.day ∧
          month.shift ⟨m, .utc⟩ amount = .ok ⟨{ m with date }, .utc⟩) ∧
      (number / 12 < Date.minYear ∨ Date.maxYear < number / 12 →
        month.shift ⟨m, .utc⟩ amount = .error .outOfRange)) ∧
    year.shift ⟨m, .utc⟩ amount = month.shift ⟨m, .utc⟩ (12 * amount) ∧
    (12 * amount < IntegerRange.int64.min ∨ IntegerRange.int64.max < 12 * amount →
      year.shift ⟨m, .utc⟩ amount = .error .outOfRange) := by
  have hmonths : month.shift ⟨m, .utc⟩ amount =
      match m.date.addMonths amount with
      | some date => .ok ⟨{ m with date }, .utc⟩
      | none => .error .outOfRange := Zoned.addMonths_utc hm amount
  refine ⟨?_, shift_year _ amount, fun hout => ?_⟩
  · rintro number hnumber
    have hpos := m.date.month_pos
    have hsum : number = m.date.monthNumber + amount := by
      unfold Date.monthNumber
      omega
    constructor
    · rintro ⟨hmin, hmax⟩
      rw [hsum] at hmin hmax ⊢
      obtain ⟨date, hdate⟩ := Date.addMonths_isSome hmin hmax
      rw [hdate] at hmonths
      exact ⟨date, Date.inMonth_addMonths hdate, hmonths⟩
    · intro hout
      rw [hsum] at hout
      rw [hmonths, Date.addMonths_eq_none_iff.2 (by omega)]
  · simp only [IntegerRange.int64] at hout
    rw [shift_year, Zoned.addMonths_eq, if_pos (by unfold Zoned.maxMonths; omega)]

/-- A quarter of a second into the leap second at the end of March in the year 0. -/
def marchEnd : Moment := .ofSeconds (-62159356801) 1250000000 (by decide)

/-- Thirteen months back it is the end of February in the year before the year 0. -/
theorem shift_months_clamped_marchEnd :
    marchEnd.inRange = true ∧
    (∃ date : Date, (date.year = -1 ∧ date.month = 2 ∧ date.day = 28) ∧
      month.shift ⟨marchEnd, .utc⟩ (-13) = .ok ⟨{ marchEnd with date }, .utc⟩) ∧
    year.shift ⟨marchEnd, .utc⟩ IntegerRange.int64.min = .error .outOfRange := by
  have hm : marchEnd.inRange = true := by decide
  obtain ⟨date, hmonth, hshift⟩ :=
    ((shift_months_clamped hm (-13)).1 (-11) (by decide)).1 (by decide)
  have hyear : date.year = -1 := hmonth.year_eq
  have hnumber : date.month = 2 := by
    have := hmonth.month_eq
    omega
  have hday : date.day = 28 := by
    rw [hmonth.day_eq, hyear, hnumber]
    decide
  exact ⟨hm, ⟨date, ⟨hyear, hnumber, hday⟩, hshift⟩,
    (shift_months_clamped hm IntegerRange.int64.min).2.2 (by decide)⟩

end TimeUnit
end Recordsmith
