import Recordsmith.Proofs.DateReading

/-!
# Patterns that read what they write

* `Field.render_congr`: what a field writes is determined by its parts, down to the unit it shows;
* `Pattern.parse_keeps_fields`: when the text that a pattern writes is read by the same pattern,
  every field that it shows is kept if its fields tell a time of day, and only those of the date are
  kept if they do not.
-/

namespace Recordsmith

namespace Field

variable {m m' : Moment}

/-- What a field writes is determined by the parts that it shows. -/
theorem render_congr {f : Field} (h : ∀ s ∈ f.slots, f.shown m s = f.shown m' s) :
    f.render ⟨m, .utc⟩ = f.render ⟨m', .utc⟩ := by
  have hparts : f.slots.map (f.shown m) = f.slots.map (f.shown m') := List.map_congr_left h
  cases f <;> simp only [slots, shown, unit, Moment.part, List.map_cons, List.map_nil, Int.ediv_one,
      Int.mul_one, List.cons.injEq, and_true] at hparts <;>
    simp only [render, Zoned.reading_utc, Zoned.offset_utc, Zoned.abbreviation_utc]
  case year | yearOfCentury => rw [hparts]
  case month | day | dayOfYear | minute | monthAbbreviated | monthName | weekdayAbbreviated |
      weekdayName => rw [Int.natCast_inj.1 hparts]
  case hour => rw [show m.hour = m'.hour by omega]
  case hourOfHalf =>
    have hsame : m.hour % 12 = m'.hour % 12 := by omega
    simp only [Recordsmith.hourOfHalf, hsame]
  case half =>
    have hhour := m.hour_le
    have hhour' := m'.hour_le
    simp only [show m.hour < 12 ↔ m'.hour < 12 by omega]
  case second =>
    rw [show m.secondOfMinute + m.nano / nanosPerSecond =
      m'.secondOfMinute + m'.nano / nanosPerSecond by exact_mod_cast hparts]
  case milliseconds =>
    simp only [nanosPerSecond] at hparts ⊢
    rw [show m.nano % 1000000000 / 1000000 = m'.nano % 1000000000 / 1000000 by omega]
  case microseconds =>
    simp only [nanosPerSecond] at hparts ⊢
    rw [show m.nano % 1000000000 / 1000 = m'.nano % 1000000000 / 1000 by omega]
  case nanoseconds =>
    rw [show m.nano % nanosPerSecond = m'.nano % nanosPerSecond by exact_mod_cast hparts]

theorem unit_pos (f : Field) : 0 < f.unit := by
  unfold unit
  split <;> decide

end Field

theorem Slot.ofDate_or_ofTime (s : Slot) :
    s.ofDate = true ∨ s.ofTime = true ∨ s = .offset := by
  cases s <;> decide

theorem Moment.part_midnight (date date' : Date) {s : Slot} (hs : s.ofTime = true) :
    (Moment.midnight date).part s = (Moment.midnight date').part s := by
  cases s <;> first | exact absurd hs (by decide) | rfl

namespace Pattern

/-- Each field of the text that the pattern writes for a moment ends before what follows it: a
    number has all the digits that are read for its field, or no digit follows. -/
def separates (p : Pattern) (z : Zoned) : Bool := separate z p.items

/-- What is told by a text that the pattern has written. -/
theorem get_of_readItems {p : Pattern} {m : Moment} {parts : DateParts} (hm : m.inRange = true)
    (hproper : ∀ i ∈ p.items, i.Proper) (hseparate : p.separates ⟨m, .utc⟩ = true)
    (h : DateParts.readItems {} p.items (p.render ⟨m, .utc⟩) = .ok parts) {f : Field}
    (hf : .field f ∈ p.items) {s : Slot} (hs : s ∈ f.slots) :
    parts.get s = some (f.shown m s) := by
  obtain ⟨tells, hscan, hget⟩ := DateParts.readItems_eq_ok_iff.1 h
  rw [render, scanItems_render hm hproper hseparate] at hscan
  obtain rfl := Except.ok.inj hscan
  exact (hget s _).2 (List.mem_flatMap.2 ⟨_, hf, List.mem_map.2 ⟨s, hs, rfl⟩⟩)

/-- **A pattern keeps the fields that it shows**, if they tell a time of day, and otherwise those of
    the date, beside midnight. -/
theorem render_of_parse_render {p : Pattern} {d d' : Moment} (hd : d.inRange = true)
    (hproper : ∀ i ∈ p.items, i.Proper) (hseparate : p.separates ⟨d, .utc⟩ = true)
    (h : p.parse (p.render ⟨d, .utc⟩) = .ok d') :
    p.render ⟨d', .utc⟩ =
      p.render ⟨if p.TellsTime then d else .midnight d.date, .utc⟩ := by
  obtain ⟨parts, hparts, hdate, htime⟩ := parse_eq_ok_iff.1 h
  have hadmitted := (readItems_spec hparts).2
  have hget := fun {f} hf {s} hs =>
    get_of_readItems (f := f) hd hproper hseparate hparts hf (s := s) hs
  -- a part that was told is shown as it was
  have htold : ∀ {f : Field} {s : Slot}, d'.part s = f.shown d s → f.shown d' s = f.shown d s := by
    intro f s hs
    rw [Field.shown, hs, Field.shown, Int.mul_ediv_cancel _ f.unit_pos.ne']
  refine List.flatMap_congr fun i hi => ?_
  cases i with
  | field f =>
    refine Field.render_congr fun s hs => ?_
    rcases s.ofDate_or_ofTime with hkind | hkind | rfl
    · have hpart := DateParts.shows_date hadmitted hdate s _ hkind (hget hi hs)
      rw [htold hpart]
      have htarget : (if p.TellsTime then d else .midnight d.date).date = d.date := by
        split <;> rfl
      rw [Field.shown, Field.shown, Moment.part_of_date_eq htarget hkind]
    · split at htime
      · have hpart := (DateParts.clock_shows hadmitted htime).2 s _ hkind (hget hi hs)
        rw [htold hpart, if_pos ‹_›]
      · rw [htime, if_neg ‹_›, Field.shown, Field.shown, Moment.part_midnight _ d.date hkind]
    · rfl
  | literal t | percent | space t | invalid => rfl

/-- **A pattern reads a time of day if its fields tell one, and midnight if they do not**, whatever
    other fields of the time it shows. So the text that it writes for a moment, where its fields do
    not run into each other, is read as a moment with the same fields just if they tell a time of
    day or look the same at midnight. -/
theorem parse_keeps_fields {source : Text} {p : Pattern} (hp : compile source = .ok p) :
    (∀ t m, p.parse t = .ok m ↔
      ∃ parts, DateParts.readItems {} p.items t = .ok parts ∧ parts.date = .ok m.date ∧
        if p.TellsTime then parts.clock m.date = .ok m else m = .midnight m.date) ∧
    ∀ d d', d.inRange = true → p.separates ⟨d, .utc⟩ = true →
      p.parse (p.render ⟨d, .utc⟩) = .ok d' →
      (p.render ⟨d', .utc⟩ = p.render ⟨d, .utc⟩ ↔
        p.TellsTime ∨ p.render ⟨.midnight d.date, .utc⟩ = p.render ⟨d, .utc⟩) := by
  refine ⟨fun t m => parse_eq_ok_iff, fun d d' hd hseparate h => ?_⟩
  rw [render_of_parse_render hd (proper_of_compile hp) hseparate h]
  split <;> simp [*]

/-- The tenth of March 2024, at five hours, six minutes and seven seconds. -/
def march : Moment := (Moment.midnight .epoch).onClock 1710047167

/-- A quarter of a second later. -/
def marchQuarter : Moment := .ofSeconds 1710047167 250000000 (by decide)

/-- Date and time of day to the second. -/
def full : Pattern := ⟨"yyyy-MM-dd HH:mm:ss".toList, "%Y-%m-%d %H:%M:%S".toList⟩

/-- The date and the hour. -/
def hourly : Pattern := ⟨"yyyy-MM-dd HH".toList, "%Y-%m-%d %H".toList⟩

theorem parse_keeps_fields_full :
    (compile full.source = .ok full ∧ marchQuarter.inRange = true ∧
      full.separates ⟨marchQuarter, .utc⟩ = true ∧
      full.parse (full.render ⟨marchQuarter, .utc⟩) = .ok march) ∧
    (full.render ⟨march, .utc⟩ = full.render ⟨marchQuarter, .utc⟩ ↔ full.TellsTime ∨
      full.render ⟨.midnight marchQuarter.date, .utc⟩ = full.render ⟨marchQuarter, .utc⟩) := by
  have hcompile : compile full.source = .ok full := rfl
  have hrender : full.render ⟨marchQuarter, .utc⟩ = "2024-03-10 05:06:07".toList := rfl
  have hparse : full.parse (full.render ⟨marchQuarter, .utc⟩) = .ok march := by
    rw [hrender]
    rfl
  exact ⟨⟨hcompile, rfl, rfl, hparse⟩,
    (parse_keeps_fields hcompile).2 marchQuarter march rfl rfl hparse⟩

/-- The hour is shown, but it is lost: without minutes it is not read as a time of day, and the date
    is taken at midnight. -/
theorem parse_loses_hour :
    compile hourly.source = .ok hourly ∧ .field (.hour .zeros) ∈ hourly.items ∧
      march.inRange = true ∧
      hourly.parse (hourly.render ⟨march, .utc⟩) = .ok (.midnight march.date) ∧
      hourly.render ⟨.midnight march.date, .utc⟩ ≠ hourly.render ⟨march, .utc⟩ :=
  ⟨rfl, by decide, rfl, rfl, by decide⟩

end Pattern
end Recordsmith
