import Recordsmith.Proofs.Steps

/-!
# Steps of days, months and years on the clocks

* `Zone.Skips` says that a change of the clocks skips a reading;
* `Zoned.resolve_placed`: a reading is placed where the clocks first show it; a skipped one lies
  after the change if the step began with the offset before it, and before the change if it began
  with the offset after it;
* `TimeUnit.shift_placed`: a step of days, months or years places the reading moved by the calendar.
-/

namespace Recordsmith

/-! ## Readings that are skipped -/

namespace Zone

variable {z : Zone} {reading : Int}

/-- At second `instant` the clocks jump ahead from the offset `before` to the offset `after`, both
    of which hold for the length of the jump at least, and thereby skip the reading, which they
    show at no other second either. -/
structure Skips (z : Zone) (instant before after reading : Int) : Prop where
  le_reading : instant + before ≤ reading
  reading_lt : reading < instant + after
  not_showsAt : ∀ t, ¬ z.ShowsAt reading t
  offsetAt_before : ∀ t, instant - (after - before) ≤ t → t < instant → z.offsetAt t = before
  offsetAt_after : ∀ t, instant ≤ t → t < instant + (after - before) → z.offsetAt t = after

/-- A zone whose offset changes once skips the readings between the two offsets. -/
theorem skips_ofSpans (name : Text) (first second : Span)
    (h₁ : second.start + first.offset ≤ reading) (h₂ : reading < second.start + second.offset) :
    (ofSpans name first [second]).Skips second.start first.offset second.offset reading := by
  have hoffset : ∀ t, (ofSpans name first [second]).offsetAt t =
      if t < second.start then first.offset else second.offset := by
    intro t
    simp only [ofSpans, Span.current]
    split <;> rfl
  refine ⟨h₁, h₂, fun t ht => ?_, fun t _ h => ?_, fun t h _ => ?_⟩
  · rw [ShowsAt, hoffset] at ht
    split at ht <;> omega
  · rw [hoffset, if_pos h]
  · rw [hoffset, if_neg (by omega)]

end Zone

/-! ## Where a reading is placed -/

namespace Zoned

/-- A reading is placed where the clocks show it first, if they show it. -/
theorem resolve_shown {origin r : Zoned} {reading : Moment} {t : Int}
    (h : origin.resolve reading = .ok r) (ht : origin.zone.FirstShowsAt reading.seconds t)
    (hmin : Moment.minSeconds ≤ t) (hmax : t ≤ Moment.maxSeconds) :
    r.reading = reading ∧ r.utc.seconds = t := by
  obtain ⟨z, hz⟩ : ∃ z, ofReading? origin.zone reading = some z := by
    refine ⟨⟨reading.onClock (t - reading.seconds), origin.zone⟩, ofReading?_eq_some_iff.2 ?_⟩
    have hseconds : (reading.onClock (t - reading.seconds)).seconds = t := by
      rw [Moment.seconds_onClock]
      omega
    refine ⟨rfl, Moment.eq_of_seconds_eq ?_ rfl, by rwa [hseconds], ?_⟩
    · rw [seconds_reading, offset, hseconds]
      exact ht.1
    · rw [Moment.inRange_iff, hseconds]
      exact ⟨hmin, hmax⟩
  rw [resolve, hz] at h
  obtain rfl := Except.ok.inj h
  obtain ⟨-, hreading, hfirst, -⟩ := ofReading?_eq_some_iff.1 hz
  exact ⟨hreading, le_antisymm (hfirst.2 t ht.1) (ht.2 _ hfirst.1)⟩

/-- A reading that the clocks do not show is taken with the offset of the origin. -/
theorem resolve_unshown {origin r : Zoned} {reading : Moment}
    (h : origin.resolve reading = .ok r)
    (hno : ∀ t, origin.zone.FirstShowsAt reading.seconds t →
      t < Moment.minSeconds ∨ Moment.maxSeconds < t) :
    r.utc = reading.add (-origin.offset * nanosPerSecond) := by
  rw [resolve] at h
  split at h
  · rename_i z hz
    obtain ⟨-, -, hfirst, hrange⟩ := ofReading?_eq_some_iff.1 hz
    have hin := Moment.inRange_iff.1 hrange
    have hout := hno _ hfirst
    omega
  · obtain ⟨utc, hutc, h⟩ := bind_eq_ok h
    obtain rfl := Except.ok.inj h
    exact (Moment.checked_eq_ok hutc).1

/-- How the zone of `origin` places a reading of its clocks at `r`. -/
structure Placed (origin : Zoned) (reading : Moment) (r : Zoned) : Prop where
  zone_eq : r.zone = origin.zone
  /-- Where the clocks show the reading, the first such second is meant. -/
  shown : ∀ t, origin.zone.FirstShowsAt reading.seconds t → Moment.minSeconds ≤ t →
    t ≤ Moment.maxSeconds → r.reading = reading ∧ r.utc.seconds = t
  /-- Where they do not, or too early or late, the reading is taken with the offset of `origin`. -/
  unshown : (∀ t, origin.zone.FirstShowsAt reading.seconds t → t < Moment.minSeconds ∨
    Moment.maxSeconds < t) → r.utc = reading.add (-origin.offset * nanosPerSecond)
  /-- A skipped reading is pushed to the other side of the change by the length of the skip just if
      `origin` has the offset before the change. -/
  pushed_iff : ∀ instant before after,
    origin.zone.Skips instant before after reading.seconds → reading.inLeapSecond = false →
    (r.reading = reading.onClock (after - before) ∧ instant ≤ r.utc.seconds ∧
      r.utc.seconds < instant + (after - before) ↔ origin.offset = before)
  /-- With the offset after the change, a skipped reading is pulled back before it. -/
  pulled : ∀ instant before after,
    origin.zone.Skips instant before after reading.seconds → reading.inLeapSecond = false →
    origin.offset = after →
    r.reading = reading.onClock (before - after) ∧ r.utc.seconds < instant

theorem resolve_placed {origin r : Zoned} {reading : Moment}
    (h : origin.resolve reading = .ok r) : origin.Placed reading r := by
  have hzone := (resolve_cases h).1
  -- a skipped reading lies as far from universal time as the clocks of the origin
  have hskipped : ∀ {instant before after : Int},
      origin.zone.Skips instant before after reading.seconds → reading.inLeapSecond = false →
      r.utc.seconds = reading.seconds - origin.offset ∧ r.utc.nano = reading.nano := by
    intro instant before after hs hleap
    have hutc := resolve_unshown h fun t ht => absurd ht.1 (hs.not_showsAt t)
    rw [Moment.add_seconds hleap] at hutc
    rw [hutc, Moment.seconds_onClock, Moment.nano_onClock]
    exact ⟨rfl, rfl⟩
  refine ⟨hzone, fun t ht => resolve_shown h ht, resolve_unshown h, ?_, ?_⟩
  · intro instant before after hs hleap
    obtain ⟨hseconds, hnano⟩ := hskipped hs hleap
    have hle := hs.le_reading
    have hlt := hs.reading_lt
    constructor
    · rintro ⟨hreading, h₁, h₂⟩
      have hoffset := hs.offsetAt_after _ h₁ h₂
      have hshown := congrArg Moment.seconds hreading
      rw [seconds_reading, Moment.seconds_onClock, offset, hzone, hoffset] at hshown
      omega
    · intro hbefore
      have h₁ : instant ≤ r.utc.seconds := by omega
      have h₂ : r.utc.seconds < instant + (after - before) := by omega
      refine ⟨Moment.eq_of_seconds_eq ?_ hnano, h₁, h₂⟩
      rw [seconds_reading, Moment.seconds_onClock, offset, hzone, hs.offsetAt_after _ h₁ h₂]
      omega
  · intro instant before after hs hleap hafter
    obtain ⟨hseconds, hnano⟩ := hskipped hs hleap
    have hle := hs.le_reading
    have hlt := hs.reading_lt
    have h₁ : instant - (after - before) ≤ r.utc.seconds := by omega
    have h₂ : r.utc.seconds < instant := by omega
    refine ⟨Moment.eq_of_seconds_eq ?_ hnano, h₂⟩
    rw [seconds_reading, Moment.seconds_onClock, offset, hzone, hs.offsetAt_before _ h₁ h₂]
    omega

end Zoned

/-! ## Steps -/

namespace TimeUnit

/-- What a step by an amount of days, months or years makes of a date. -/
inductive Moves (amount : Int) (d e : Date) : TimeUnit → Prop
  | day (number : e.toDays = d.toDays + amount) : Moves amount d e .day
  | month (number : e.monthNumber = d.monthNumber + amount)
      (clamped : e.day = min d.day (daysInMonth e.year e.month)) : Moves amount d e .month
  | year (number : e.monthNumber = d.monthNumber + 12 * amount)
      (clamped : e.day = min d.day (daysInMonth e.year e.month)) : Moves amount d e .year

/-- **A step of days, months or years moves the date that the clocks read and keeps the time of
    day; the new reading is placed in the zone.** -/
theorem shift_placed {unit : TimeUnit} {z r : Zoned} {amount : Int}
    (hunit : unit ∈ [TimeUnit.day, .month, .year]) (h : unit.shift z amount = .ok r) :
    ∃ moved : Moment, unit.Moves amount z.reading.date moved.date ∧
      moved.second = z.reading.second ∧ moved.nano = z.reading.nano ∧ z.Placed moved r := by
  have hmonths : ∀ {n : Int}, z.addMonths n = .ok r → ∃ moved : Moment,
      (moved.date.monthNumber = z.reading.date.monthNumber + n ∧
        moved.date.day = min z.reading.date.day (daysInMonth moved.date.year moved.date.month)) ∧
      moved.second = z.reading.second ∧ moved.nano = z.reading.nano ∧ z.Placed moved r := by
    intro n hn
    obtain ⟨date, hdate, hr⟩ := Zoned.addMonths_eq_ok hn
    obtain ⟨hnumber, hday, -⟩ := Date.addMonths_eq_some hdate
    exact ⟨{ z.reading with date }, ⟨hnumber, hday⟩, rfl, rfl, Zoned.resolve_placed hr⟩
  rcases shift_cases h with ⟨hn, -⟩ | ⟨rfl, h⟩ | ⟨rfl, h⟩ | ⟨rfl, hyears⟩
  · simp only [List.mem_cons, List.not_mem_nil, or_false] at hunit
    rcases hunit with rfl | rfl | rfl <;> exact absurd hn (by decide)
  · obtain ⟨hdays, hsecond⟩ := z.reading.onClock_days amount
    exact ⟨_, .day hdays, hsecond, Moment.nano_onClock ..,
      Zoned.resolve_placed (Zoned.addDays_eq_ok h)⟩
  · obtain ⟨moved, ⟨hnumber, hday⟩, hsecond, hnano, hplaced⟩ := hmonths h
    exact ⟨moved, .month hnumber hday, hsecond, hnano, hplaced⟩
  · obtain ⟨moved, ⟨hnumber, hday⟩, hsecond, hnano, hplaced⟩ := hmonths hyears
    exact ⟨moved, .year hnumber hday, hsecond, hnano, hplaced⟩

/-! ### A step back over a change -/

/-- The clocks of Paris around their change on 31 March 2024, at 01:00 of universal time. -/
def parisSpring : Zone :=
  .ofSpans "Europe/Paris".toList ⟨0, 3600, "CET".toList⟩ [⟨1711846800, 7200, "CEST".toList⟩]

/-- Half past two in the morning of the first of April 2024, in Paris. -/
def morningAfter : Zoned := ⟨(Moment.midnight .epoch).onClock 1711931400, parisSpring⟩

/-- Half past one in the morning of 31 March 2024, in Paris. -/
def morningBefore : Zoned := ⟨(Moment.midnight .epoch).onClock 1711845000, parisSpring⟩

theorem shift_morningAfter : TimeUnit.day.shift morningAfter (-1) = .ok morningBefore := by
  cbv

theorem shift_placed_morningAfter :
    (TimeUnit.day ∈ [TimeUnit.day, .month, .year] ∧
      TimeUnit.day.shift morningAfter (-1) = .ok morningBefore) ∧
    ∃ moved : Moment, TimeUnit.day.Moves (-1) morningAfter.reading.date moved.date ∧
      moved.second = morningAfter.reading.second ∧ moved.nano = morningAfter.reading.nano ∧
      morningAfter.Placed moved morningBefore :=
  ⟨⟨by decide, shift_morningAfter⟩, shift_placed (by decide) shift_morningAfter⟩

/-- A day back from half past two, which the clocks skip on the day before, is half past one and
    not half past three: it lies before the change and not after it. -/
theorem shift_back_before_skip :
    TimeUnit.day.shift morningAfter (-1) = .ok morningBefore ∧
      ∃ moved : Moment, TimeUnit.day.Moves (-1) morningAfter.reading.date moved.date ∧
        moved.second = morningAfter.reading.second ∧ moved.nano = morningAfter.reading.nano ∧
        morningAfter.zone.Skips 1711846800 3600 7200 moved.seconds ∧
        morningBefore.reading ≠ moved.onClock (7200 - 3600) ∧
        morningBefore.utc.seconds < 1711846800 := by
  obtain ⟨hdays, hsecond⟩ := morningAfter.reading.onClock_days (-1)
  refine ⟨shift_morningAfter, _, .day hdays, hsecond, Moment.nano_onClock .., ?_, by decide,
    by decide⟩
  exact Zone.skips_ofSpans _ _ _ (by decide) (by decide)

end TimeUnit
end Recordsmith
