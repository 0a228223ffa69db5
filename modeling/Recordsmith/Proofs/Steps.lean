import Recordsmith.Calendar.Unit
import Recordsmith.Proofs.Moments
import Recordsmith.Proofs.Outcomes

/-!
# Steps of time, forward

* `Zone.FirstShowsAt` is the first second at which the clocks of a zone show a reading, and
  `Zoned.ofReading?_eq_some_iff` finds it;
* `Zone.KeepsDay` are the zones whose clocks are never set back by a day or more;
* `Zoned.resolve_cases` says where a reading of the clocks is placed;
* `TimeUnit.shift_lt`: in such a zone a step forward leads to a later moment, whatever its unit,
  also where the clocks skip the new reading, repeat it, or where a month is too short for it.
-/

namespace Recordsmith

/-- The clocks of the zone are never set back by 24 hours or more. -/
def Zone.KeepsDay (z : Zone) : Prop :=
  ∀ t u, t ≤ u → t + z.offsetAt t - secondsPerDay < u + z.offsetAt u

/-! ## When the clocks show a reading -/

namespace Zone

variable {z : Zone} {reading t : Int}

/-- The clocks show the reading at second `t` of the time line. -/
def ShowsAt (z : Zone) (reading t : Int) : Prop := t + z.offsetAt t = reading

/-- Second `t` is the first at which the clocks show the reading. -/
def FirstShowsAt (z : Zone) (reading t : Int) : Prop :=
  z.ShowsAt reading t ∧ ∀ u, z.ShowsAt reading u → t ≤ u

theorem mem_offsetsFor {offset : Int} :
    offset ∈ z.offsetsFor reading ↔ z.ShowsAt reading (reading - offset) := by
  simp only [offsetsFor, List.mem_filter, decide_eq_true_eq, ShowsAt]
  constructor
  · rintro ⟨-, h⟩
    omega
  · intro h
    have hoffset : z.offsetAt (reading - offset) = offset := by omega
    have hmem := z.offsetAt_mem (reading - offset)
    rw [hoffset] at hmem
    exact ⟨hmem, hoffset⟩

/-- The greatest of the offsets belongs to the first of the seconds. -/
theorem earliest?_eq_some_iff {offset : Int} :
    z.earliest? reading = some offset ↔ z.FirstShowsAt reading (reading - offset) := by
  simp only [earliest?, List.max?_eq_some_iff, mem_offsetsFor, FirstShowsAt]
  refine and_congr_right fun _ => ⟨fun h u hu => ?_, fun h o ho => ?_⟩
  · have hle := h (reading - u) (by rwa [show reading - (reading - u) = u by omega])
    omega
  · have hle := h _ ho
    omega

end Zone

theorem Moment.checked_eq_ok {m m' : Moment} (h : m.checked = .ok m') :
    m' = m ∧ m.inRange = true := by
  unfold Moment.checked at h
  split at h
  · exact ⟨(Except.ok.inj h).symm, ‹_›⟩
  · exact absurd h (by simp)

namespace Zoned

@[simp] theorem seconds_reading (z : Zoned) : z.reading.seconds = z.utc.seconds + z.offset :=
  Moment.seconds_onClock ..

/-! ## Readings -/

theorem checkedReading_eq_ok {z : Zoned} {m : Moment} (h : z.checkedReading = .ok m) :
    m = z.reading ∧ z.reading.inRange = true := by
  unfold checkedReading at h
  split at h
  · exact ⟨(Except.ok.inj h).symm, ‹_›⟩
  · exact absurd h (by simp)

/-- **A reading is shown first at the moment that it names.** -/
theorem ofReading?_eq_some_iff {zone : Zone} {reading : Moment} {z : Zoned} :
    ofReading? zone reading = some z ↔
      z.zone = zone ∧ z.reading = reading ∧
        zone.FirstShowsAt reading.seconds z.utc.seconds ∧ z.utc.inRange = true := by
  simp only [ofReading?, Option.bind_eq_bind, Option.bind_eq_some_iff, Zone.earliest?_eq_some_iff,
    Option.ite_none_right_eq_some, Option.some.injEq]
  constructor
  · rintro ⟨offset, hfirst, hrange, rfl⟩
    have hseconds : (reading.onClock (-offset)).seconds = reading.seconds - offset :=
      Moment.seconds_onClock ..
    have hshows := hfirst.1
    rw [Zone.ShowsAt, ← hseconds] at hshows
    refine ⟨rfl, Moment.eq_of_seconds_eq ?_ rfl, by rwa [hseconds], hrange⟩
    rwa [seconds_reading]
  · rintro ⟨rfl, rfl, hfirst, hrange⟩
    have hutc : z.reading.onClock (-z.offset) = z.utc :=
      Moment.eq_of_seconds_eq (by rw [Moment.seconds_onClock, seconds_reading]; omega) rfl
    refine ⟨z.offset, ?_, by rwa [hutc], by rw [hutc]⟩
    rwa [seconds_reading, Int.add_sub_cancel, ← seconds_reading]

/-- **A reading is placed where the clocks show it**, or else with the offset before the step. -/
theorem resolve_cases {origin z : Zoned} {reading : Moment} (h : origin.resolve reading = .ok z) :
    z.zone = origin.zone ∧ z.utc.inRange = true ∧
      (z.reading.seconds = reading.seconds ∨
        z.utc = reading.add (-origin.offset * nanosPerSecond)) := by
  unfold resolve at h
  split at h
  · rename_i z' hz
    obtain rfl := Except.ok.inj h
    obtain ⟨h₁, h₂, -, h₄⟩ := ofReading?_eq_some_iff.1 hz
    exact ⟨h₁, h₄, Or.inl (congrArg Moment.seconds h₂)⟩
  · obtain ⟨utc, hutc, h⟩ := bind_eq_ok h
    obtain rfl := Except.ok.inj h
    obtain ⟨rfl, hr⟩ := Moment.checked_eq_ok hutc
    exact ⟨rfl, hr, Or.inr rfl⟩

/-- A reading that lies a day ahead is placed later, if the clocks are never set back so far. -/
theorem lt_of_resolve {origin z : Zoned} {reading : Moment} (hz : origin.zone.KeepsDay)
    (h : origin.resolve reading = .ok z)
    (hday : origin.reading.seconds + secondsPerDay ≤ reading.seconds) : origin.utc < z.utc := by
  rw [seconds_reading] at hday
  simp only [secondsPerDay] at hday
  obtain ⟨hzone, -, hr | hr⟩ := resolve_cases h
  · -- the clocks show the reading: were it not later, they would be set back by a day
    refine Moment.lt_iff.2 (Or.inl ?_)
    by_contra hc
    have hback := hz z.utc.seconds origin.utc.seconds (by omega)
    rw [seconds_reading, offset, hzone] at hr
    simp only [secondsPerDay, offset] at hback hday
    omega
  · refine Moment.lt_iff.2 (Or.inl ?_)
    have := (reading.add_bounds (-origin.offset)).1
    rw [← hr] at this
    omega

/-! ## Units -/

/-- A step of a length on the time line can be made unless it is too long or leads out of range. -/
theorem addNanos_eq (z : Zoned) (δ : Int) :
    z.addNanos δ =
      if δ.natAbs ≤ maxDuration ∧ (z.utc.add δ).inRange then .ok ⟨z.utc.add δ, z.zone⟩
      else .error .outOfRange := by
  unfold addNanos Moment.checked
  by_cases hlong : maxDuration < δ.natAbs
  · rw [if_pos hlong, if_neg fun h => absurd h.1 (not_le.2 hlong)]
  · rw [if_neg hlong]
    by_cases hrange : (z.utc.add δ).inRange = true
    · rw [if_pos hrange, if_pos ⟨not_lt.1 hlong, hrange⟩]
      rfl
    · rw [if_neg hrange, if_neg fun h => hrange h.2]
      rfl

theorem addNanos_eq_ok {z r : Zoned} {δ : Int} (h : z.addNanos δ = .ok r) :
    r = { z with utc := z.utc.add δ } ∧ r.utc.inRange = true := by
  rw [addNanos_eq] at h
  split at h
  · rename_i hmade
    obtain rfl := Except.ok.inj h
    exact ⟨rfl, hmade.2⟩
  · cases h

theorem addDays_eq_ok {z r : Zoned} {amount : Int} (h : z.addDays amount = .ok r) :
    z.resolve (z.reading.onClock (amount * secondsPerDay)) = .ok r := by
  obtain ⟨reading, hreading, h⟩ := bind_eq_ok h
  obtain ⟨rfl, -⟩ := checkedReading_eq_ok hreading
  obtain ⟨moved, hmoved, h⟩ := bind_eq_ok h
  obtain ⟨rfl, -⟩ := Moment.checked_eq_ok hmoved
  exact h

/-- **Forward and back, a step of months moves the reading by the signed amount.** -/
theorem addMonths_eq (z : Zoned) (amount : Int) :
    z.addMonths amount =
      if maxMonths < amount.natAbs then .error .outOfRange
      else (do
        let reading ← z.checkedReading
        match reading.date.addMonths amount with
        | some date => z.resolve { reading with date }
        | none => .error .outOfRange) := by
  unfold addMonths
  by_cases hmax : maxMonths < amount.natAbs
  · rw [if_pos hmax, if_pos hmax]
  · rw [if_neg hmax, if_neg hmax]
    cases hreading : z.checkedReading with
    | error fault => rfl
    | ok reading =>
      obtain ⟨rfl, hrange⟩ := checkedReading_eq_ok hreading
      cases hdate : z.reading.date.addMonths amount with
      | none => simp only [ok_bind, Date.moved_eq_addMonths hrange, hdate]
      | some date => simp only [ok_bind, Date.moved_eq_addMonths hrange, hdate]

theorem addMonths_eq_ok {z r : Zoned} {amount : Int} (h : z.addMonths amount = .ok r) :
    ∃ date, z.reading.date.addMonths amount = some date ∧
      z.resolve { z.reading with date } = .ok r := by
  rw [addMonths_eq] at h
  split at h
  · exact absurd h (by simp)
  · obtain ⟨reading, hreading, h⟩ := bind_eq_ok h
    obtain ⟨rfl, -⟩ := checkedReading_eq_ok hreading
    split at h
    · exact ⟨_, ‹_›, h⟩
    · exact absurd h (by simp)

/-- The time of day stays when the date moves. -/
theorem seconds_with_date (m : Moment) (date : Date) :
    ({ m with date } : Moment).seconds =
      m.seconds + (date.toDays - m.date.toDays) * secondsPerDay := by
  simp only [Moment.seconds, secondsPerDay]
  ring

theorem addMonths_lt {z r : Zoned} {amount : Int} (hz : z.zone.KeepsDay)
    (h : z.addMonths amount = .ok r) (hpos : 0 < amount) : z.utc < r.utc := by
  obtain ⟨date, hd, h⟩ := addMonths_eq_ok h
  have hlater := Date.toDays_lt_of_addMonths hd hpos
  refine lt_of_resolve hz h (le_of_le_of_eq ?_ (seconds_with_date z.reading date).symm)
  rw [secondsPerDay]
  omega

end Zoned

namespace TimeUnit

/-- **A step of years is one of months**, since more months than fit a word are refused anyway. -/
theorem shift_year (z : Zoned) (amount : Int) :
    year.shift z amount = z.addMonths (12 * amount) := by
  unfold shift IntegerRange.checked
  dsimp only
  split_ifs with hfits
  · rfl
  · simp only [IntegerRange.int64] at hfits
    rw [Zoned.addMonths_eq, if_pos (by unfold Zoned.maxMonths; omega)]

/-- What a step does, by the kind of its unit. -/
theorem shift_cases {unit : TimeUnit} {z r : Zoned} {amount : Int}
    (h : unit.shift z amount = .ok r) :
    (0 < unit.nanos ∧ z.addNanos (amount * unit.nanos) = .ok r) ∨
      (unit = .day ∧ z.addDays amount = .ok r) ∨
      (unit = .month ∧ z.addMonths amount = .ok r) ∨
      (unit = .year ∧ z.addMonths (12 * amount) = .ok r) := by
  cases unit with
  | millisecond | second | minute | hour => exact Or.inl ⟨by decide, h⟩
  | day => exact Or.inr (Or.inl ⟨rfl, h⟩)
  | month => exact Or.inr (Or.inr (Or.inl ⟨rfl, h⟩))
  | year =>
    rw [shift_year] at h
    exact Or.inr (Or.inr (Or.inr ⟨rfl, h⟩))

/-- **A step forward leads to a later moment.** -/
theorem shift_lt {unit : TimeUnit} {z r : Zoned} {amount : Int} (hz : z.zone.KeepsDay)
    (h : unit.shift z amount = .ok r) (hpos : 0 < amount) : z.utc < r.utc := by
  rcases shift_cases h with ⟨hn, h⟩ | ⟨-, h⟩ | ⟨-, h⟩ | ⟨-, h⟩
  · obtain ⟨rfl, -⟩ := Zoned.addNanos_eq_ok h
    exact Moment.add_lt _ (Int.mul_pos hpos hn)
  · refine Zoned.lt_of_resolve hz (Zoned.addDays_eq_ok h) ?_
    rw [Moment.seconds_onClock, secondsPerDay]
    omega
  · exact Zoned.addMonths_lt hz h hpos
  · exact Zoned.addMonths_lt hz h (by omega)

/-- A step stays in its zone and leads to a moment that calculations may reach. -/
theorem zone_shift {unit : TimeUnit} {z r : Zoned} {amount : Int}
    (h : unit.shift z amount = .ok r) : r.zone = z.zone ∧ r.utc.inRange = true := by
  have hmonths : ∀ {n : Int}, z.addMonths n = .ok r → r.zone = z.zone ∧ r.utc.inRange = true := by
    intro n h
    obtain ⟨date, -, h⟩ := Zoned.addMonths_eq_ok h
    exact ⟨(Zoned.resolve_cases h).1, (Zoned.resolve_cases h).2.1⟩
  rcases shift_cases h with ⟨-, h⟩ | ⟨-, h⟩ | ⟨-, h⟩ | ⟨-, h⟩
  · obtain ⟨rfl, hr⟩ := Zoned.addNanos_eq_ok h
    exact ⟨rfl, hr⟩
  · have h := Zoned.resolve_cases (Zoned.addDays_eq_ok h)
    exact ⟨h.1, h.2.1⟩
  · exact hmonths h
  · exact hmonths h

end TimeUnit
end Recordsmith
