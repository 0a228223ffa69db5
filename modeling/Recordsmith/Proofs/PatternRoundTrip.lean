import Recordsmith.Proofs.PatternReading

/-!
# Patterns that read back what they write

* `Moment.truncate` and `Moment.carry` are what a clock can show of a moment: no fractions below a
  unit, and leap seconds only after second 59;
* `DateParts.date_eq` and `DateParts.clock_eq` make a moment of parts that are true of it;
* `Pattern.Complete` says that a pattern shows a moment down to a unit, and
  `Pattern.Complete.parse_render` that it then reads the moment back from what it writes;
* `Pattern.roundTrip_of_inRange`: so do the patterns that have bounds of their own.
-/

namespace Recordsmith

/-! ## What a clock shows -/

namespace Moment

/-- The moment without fractions below `unit` nanoseconds. A leap second stays one. -/
def truncate (unit : Nat) (m : Moment) : Moment :=
  { m with
    nano := m.nano / unit * unit
    nano_lt := (Nat.div_mul_le_self _ _).trans_lt m.nano_lt }

/-- The moment as its clock is read. A leap second is second 60 of its minute, and the one after any
    other second but 59 is read as the second that follows. -/
def carry (m : Moment) : Moment :=
  if h : m.inLeapSecond = true ∧ m.secondOfMinute ≠ 59 then
    { m with
      second := m.second + 1
      nano := m.nano - nanosPerSecond
      second_lt := by
        have := m.second_lt
        have := h.2
        unfold secondOfMinute at this
        omega
      nano_lt := (Nat.sub_le _ _).trans_lt m.nano_lt }
  else m

theorem carry_eq_self {m : Moment} (h : m.inLeapSecond = true → m.secondOfMinute = 59) :
    m.carry = m :=
  dif_neg fun hleap => hleap.2 (h hleap.1)

theorem carry_onClock (m : Moment) : m.carry.nano < 1000000000 ∨ m.carry.secondOfMinute = 59 := by
  have hnano := m.nano_lt
  unfold carry
  split
  · refine Or.inl ?_
    simp only [nanosPerSecond]
    omega
  · rename_i h
    rw [inLeapSecond_iff] at h
    omega

theorem date_carry (m : Moment) : m.carry.date = m.date := by
  unfold carry
  split <;> rfl

/-- Reading the clock changes no part. -/
theorem part_carry (m : Moment) (s : Slot) : m.carry.part s = m.part s := by
  have hlt := m.nano_lt
  unfold carry
  split
  · rename_i h
    obtain ⟨hleap, hsecond⟩ := h
    rw [inLeapSecond_iff] at hleap
    unfold secondOfMinute at hsecond
    cases s <;> simp only [part, hour, minute, secondOfMinute, nanosPerSecond] <;> omega
  · rfl

variable {unit : Nat}

/-- A whole second is shown in full. -/
theorem truncate_carry_of_whole {m : Moment} (h : m.nano = 0) : m.carry.truncate unit = m := by
  have hleap : ¬ m.inLeapSecond = true := by
    rw [inLeapSecond_iff, h]
    decide
  rw [carry_eq_self fun hm => absurd hm hleap]
  cases m
  subst h
  simp [truncate]

theorem truncate_onClock {m : Moment} (h : m.nano < 1000000000 ∨ m.secondOfMinute = 59) :
    (m.truncate unit).nano < 1000000000 ∨ (m.truncate unit).secondOfMinute = 59 :=
  h.imp_left (Nat.div_mul_le_self _ _).trans_lt

/-- Only the fraction of the second is truncated. -/
theorem part_truncate (hunit : unit ∣ nanosPerSecond) (m : Moment) {s : Slot} (hs : s ≠ .nano) :
    (m.truncate unit).part s = m.part s := by
  have hwhole : m.nano / unit * unit / nanosPerSecond = m.nano / nanosPerSecond := by
    obtain ⟨k, hk⟩ := hunit
    have hpos : 0 < unit := Nat.pos_of_mul_pos_right (hk ▸ (by decide : 0 < nanosPerSecond))
    rw [hk, ← Nat.div_div_eq_div_mul, Nat.mul_div_cancel _ hpos, Nat.div_div_eq_div_mul]
  cases s with
  | second =>
    simp only [part]
    exact_mod_cast congrArg (m.secondOfMinute + ·) hwhole
  | nano => exact absurd rfl hs
  | _ => rfl

theorem part_nano_truncate (hunit : unit ∣ nanosPerSecond) (m : Moment) :
    (m.truncate unit).part .nano = m.part .nano / unit * unit := by
  have hmod : m.nano / unit * unit % nanosPerSecond = m.nano % nanosPerSecond / unit * unit := by
    obtain ⟨k, hk⟩ := hunit
    rw [hk, Nat.mul_comm unit k, Nat.mul_mod_mul_right, Nat.mod_mul_left_div_self]
  simp only [part]
  exact_mod_cast hmod

/-- Whole seconds have no fraction. -/
theorem part_nano_truncate_second (m : Moment) : (m.truncate nanosPerSecond).part .nano = 0 := by
  simp only [part]
  exact_mod_cast Nat.mul_mod_left (m.nano / nanosPerSecond) nanosPerSecond

end Moment

/-! ## Moments from their parts -/

namespace DateParts

/-- The parts with these values. -/
def ofParts (value : Slot → Option Int) : DateParts :=
  ⟨value .year, value .yearOfCentury, value .month, value .day, value .dayOfYear, value .weekday,
    value .half, value .hourOfHalf, value .minute, value .second, value .nano, value .offset⟩

theorem get_ofParts (value : Slot → Option Int) (s : Slot) : (ofParts value).get s = value s := by
  cases s <;> rfl

variable {parts : DateParts} {m : Moment}

/-- A date agrees with the parts that are true of it. -/
theorem agrees_of_shows (h : parts.Shows Slot.ofDate m) : parts.agrees m.date = true := by
  have hpart : ∀ (s : Slot) (told : Option Int), s.ofDate = true → parts.get s = told →
      told.getD (m.part s) = m.part s := by
    rintro s (_ | v) hs htold
    · rfl
    · exact (h s v hs htold).symm
  simp only [agrees, Bool.and_eq_true, decide_eq_true_eq]
  exact ⟨⟨⟨hpart .month _ rfl rfl, hpart .day _ rfl rfl⟩, hpart .dayOfYear _ rfl rfl⟩,
    hpart .weekday _ rfl rfl⟩

/-- **A date is made of year, month and day** that are true of it, as are all other parts. -/
theorem date_eq (hm : m.inRange = true) (h : parts.Shows Slot.ofDate m)
    (hyear : parts.year = some m.date.year) (hshort : parts.yearOfCentury = none)
    (hmonth : parts.month = some (m.date.month : Int))
    (hday : parts.day = some (m.date.day : Int)) : parts.date = .ok m.date := by
  have hresolved : parts.resolveYear = .ok (some m.date.year) := by
    simp only [resolveYear, hyear, hshort]
  have hfound : Date.ofYmdInRange? m.date.year m.date.month m.date.day = some m.date :=
    Date.ofYmdInRange?_self hm
  simp only [date, hresolved, ok_bind, hmonth, hday, Int.toNat_natCast, hfound]
  exact if_pos (agrees_of_shows h)

/-- **A time of day is made of hour, minute, second and fraction** that are true of it, on a clock
    that shows leap seconds only after second 59. -/
theorem clock_eq (hm : m.nano < 1000000000 ∨ m.secondOfMinute = 59)
    (hhalf : parts.half = some (m.part .half))
    (hhour : parts.hourOfHalf = some (m.part .hourOfHalf))
    (hminute : parts.minute = some (m.part .minute))
    (hsecond : parts.second = some (m.part .second))
    (hnano : parts.nano.getD 0 = m.part .nano) : parts.clock m.date = .ok m := by
  have hlt := m.nano_lt
  have hle := m.secondOfMinute_le
  have hread : parts.secondAndNano = .ok (m.secondOfMinute, m.nano) := by
    simp only [secondAndNano, hsecond, hnano, Moment.part, nanosPerSecond]
    congr 1
    split
    · refine Prod.ext ?_ ?_ <;> simp only <;> omega
    · refine Prod.ext ?_ ?_ <;> simp only <;> omega
  have hclock : Moment.ofClock? m.date ((m.hour / 12 : Int) * 12 + (m.hour % 12 : Int)).toNat
      (m.minute : Int).toNat m.secondOfMinute m.nano = some m := by
    rw [show ((m.hour / 12 : Int) * 12 + (m.hour % 12 : Int)).toNat = m.hour by omega,
      Int.toNat_natCast]
    exact Moment.ofClock?_self hm
  simp only [clock, hhalf, hhour, hminute, hread, ok_bind, Moment.part, hclock]
  rfl

end DateParts

/-! ## Spaces between fields -/

namespace Item

/-- What is written for the item begins with a character that is not a digit. -/
def interrupts : Item → Bool
  | .literal t | .space t => t.head?.any fun c => (Text.digit? c).isNone
  | .percent => true
  | .field _ | .invalid => false

theorem noDigitAhead_of_interrupts {i : Item} (h : i.interrupts = true) (z : Zoned) (rest : Text) :
    Text.noDigitAhead (i.render z ++ rest) = true := by
  cases i with
  | literal t | space t =>
    cases t with
    | nil => exact absurd h (by decide)
    | cons c cs => simpa [interrupts, Text.noDigitAhead, render] using h
  | percent => rfl
  | field f | invalid => exact absurd h Bool.false_ne_true

end Item

/-- Every field of the items stands at the end or before a character that is not a digit, and none
    is the name of a zone. -/
def spaced : List Item → Bool
  | [] => true
  | .field f :: items => f != .zoneAbbreviation && items.head?.all Item.interrupts && spaced items
  | _ :: items => spaced items

theorem Field.endsBefore_of_noDigitAhead {f : Field} (hf : f ≠ .zoneAbbreviation) {rest : Text}
    (h : Text.noDigitAhead rest = true) (z : Zoned) : f.endsBefore z rest = true := by
  cases f <;> simp_all [endsBefore]

/-- Fields with spaces between them do not run into each other, whatever is written. -/
theorem separate_of_spaced (z : Zoned) {items : List Item} (h : spaced items = true) :
    separate z items = true := by
  induction items with
  | nil => rfl
  | cons item items ih =>
    cases item with
    | field f =>
      simp only [spaced, Bool.and_eq_true, bne_iff_ne] at h
      obtain ⟨⟨hf, hnext⟩, hitems⟩ := h
      refine Bool.and_eq_true_iff.2 ⟨?_, ih hitems⟩
      refine Field.endsBefore_of_noDigitAhead hf ?_ z
      cases items with
      | nil => rfl
      | cons next items => exact next.noDigitAhead_of_interrupts (by simpa using hnext) z _
    | literal t | percent | space t | invalid => exact ih h

/-! ## Round trips -/

/-- The nanoseconds that an item shows. -/
def Item.unit : Item → Int
  | .field f => f.unit
  | _ => 1

namespace Pattern

/-- A pattern shows all that there is to a moment, down to `unit` nanoseconds: its date by year,
    month and day, and the seconds and their fraction if it shows the time of day. -/
@[mk_iff]
structure Complete (p : Pattern) (unit : Nat) : Prop where
  year : Slot.year ∈ p.slots
  not_yearOfCentury : Slot.yearOfCentury ∉ p.slots
  month : Slot.month ∈ p.slots
  day : Slot.day ∈ p.slots
  second : p.TellsTime → Slot.second ∈ p.slots
  unit_dvd : unit ∣ nanosPerSecond
  unit_eq : ∀ i ∈ p.items, Slot.nano ∈ i.slots → i.unit = unit
  no_unit : Slot.nano ∉ p.slots → unit = nanosPerSecond
  spaced : spaced p.items = true

instance (p : Pattern) (unit : Nat) : Decidable (p.Complete unit) :=
  decidable_of_iff' _ (complete_iff p unit)

variable {p : Pattern} {unit : Nat}

/-- What is written for a moment is what there is to be seen of it. -/
theorem Complete.shown_eq (h : p.Complete unit) (m : Moment) {f : Field}
    (hf : .field f ∈ p.items) {s : Slot} (hs : s ∈ f.slots) :
    f.shown m s = (m.carry.truncate unit).part s := by
  by_cases hnano : s = .nano
  · subst s
    have hunit : f.unit = unit := h.unit_eq _ hf hs
    rw [Field.shown, hunit, Moment.part_nano_truncate h.unit_dvd, Moment.part_carry]
  · have hunit : f.unit = 1 := by
      cases f <;> first | rfl | exact absurd (List.mem_singleton.1 hs) hnano
    rw [Field.shown, hunit, Int.ediv_one, Int.mul_one, Moment.part_truncate h.unit_dvd _ hnano,
      Moment.part_carry]

/-- The parts that a text tells are the moment's, for each part that the pattern shows. -/
theorem Complete.mem_tells_iff (h : p.Complete unit) (m : Moment) (s : Slot) (v : Int) :
    (s, v) ∈ p.items.flatMap (·.tells m) ↔
      s ∈ p.slots ∧ v = (m.carry.truncate unit).part s := by
  simp only [slots, List.mem_flatMap]
  constructor
  · rintro ⟨i, hi, htold⟩
    cases i with
    | field f =>
      obtain ⟨s', hs, heq⟩ := List.mem_map.1 htold
      obtain ⟨rfl, rfl⟩ := Prod.mk.inj heq
      exact ⟨⟨_, hi, hs⟩, h.shown_eq m hi hs⟩
    | literal t | percent | space t | invalid => exact absurd htold List.not_mem_nil
  · rintro ⟨⟨i, hi, hs⟩, rfl⟩
    cases i with
    | field f =>
      refine ⟨_, hi, List.mem_map.2 ⟨s, hs, ?_⟩⟩
      rw [h.shown_eq m hi hs]
    | literal t | percent | space t | invalid => exact absurd hs List.not_mem_nil

/-- The text tells each part that the pattern shows, and no other. -/
theorem Complete.exists_parts (h : p.Complete unit) (hproper : ∀ i ∈ p.items, i.Proper)
    {m : Moment} (hm : m.inRange = true) :
    ∃ parts, DateParts.readItems {} p.items (p.render ⟨m, .utc⟩) = .ok parts ∧
      ∀ s, parts.get s = if s ∈ p.slots then some ((m.carry.truncate unit).part s) else none := by
  refine ⟨.ofParts fun s => if s ∈ p.slots then some ((m.carry.truncate unit).part s) else none,
    DateParts.readItems_eq_ok_iff.2
      ⟨_, scanItems_render hm hproper (separate_of_spaced _ h.spaced), fun s v => ?_⟩,
    DateParts.get_ofParts _⟩
  rw [h.mem_tells_iff, DateParts.get_ofParts, Option.ite_none_right_eq_some, Option.some.injEq,
    eq_comm (a := v)]

/-- **A pattern that shows all of a moment reads it back**, down to the unit that it shows, or its
    date at midnight if it shows no time of day. -/
theorem Complete.parse_render (h : p.Complete unit) (hproper : ∀ i ∈ p.items, i.Proper)
    {m : Moment} (hm : m.inRange = true) :
    p.parse (p.render ⟨m, .utc⟩) =
      .ok (if p.TellsTime then m.carry.truncate unit else .midnight m.date) := by
  obtain ⟨parts, hread, hget⟩ := h.exists_parts hproper hm
  set target := m.carry.truncate unit with htarget
  have hdate : target.date = m.date := m.date_carry
  have htold : ∀ {s}, s ∈ p.slots → parts.get s = some (target.part s) :=
    fun hs => (hget _).trans (if_pos hs)
  have hshows : parts.Shows Slot.ofDate target := by
    intro s v _ hv
    rw [hget, Option.ite_none_right_eq_some, Option.some.injEq] at hv
    exact hv.2
  have hmade : parts.date = .ok target.date := by
    refine DateParts.date_eq ?_ hshows (htold h.year) ?_ (htold h.month) (htold h.day)
    · rw [Moment.inRange, hdate]
      exact hm
    · exact (hget .yearOfCentury).trans (if_neg h.not_yearOfCentury)
  refine parse_eq_ok_iff.2 ⟨parts, hread, ?_⟩
  by_cases htime : p.TellsTime
  · rw [if_pos htime, if_pos htime]
    have hsecond := h.second htime
    obtain ⟨hhalf, hhour, hminute, -⟩ := htime
    refine ⟨hmade, DateParts.clock_eq (Moment.truncate_onClock m.carry_onClock) (htold hhalf)
      (htold hhour) (htold hminute) (htold hsecond) ?_⟩
    by_cases hnano : .nano ∈ p.slots
    · exact congrArg (Option.getD · 0) (htold hnano)
    · have hnone : parts.nano = none := (hget .nano).trans (if_neg hnano)
      rw [hnone, htarget, h.no_unit hnano, Moment.part_nano_truncate_second]
      rfl
  · rw [if_neg htime, if_neg htime]
    exact ⟨hdate ▸ hmade, rfl⟩

/-! ## Patterns with bounds of their own -/

/-- Reads a text by a pattern that is to be compiled first. -/
def parseBy (source t : Text) : Except Failure Moment := do
  let p ← compile source
  p.parse t

/-- Writes a moment of universal time by a pattern, and reads the text by the same pattern. -/
def roundTrip (source : Text) (m : Moment) : Except Failure Moment := do
  let p ← compile source
  p.parse (p.render ⟨m, .utc⟩)

section
variable {source : Text} (hp : compile source = .ok p)
include hp

theorem parseBy_eq (t : Text) : parseBy source t = p.parse t := by rw [parseBy, hp, ok_bind]

theorem parseBy_render (h : p.Complete unit) {m : Moment} (hm : m.inRange = true) :
    parseBy source (p.render ⟨m, .utc⟩) =
      .ok (if p.TellsTime then m.carry.truncate unit else .midnight m.date) := by
  rw [parseBy_eq hp, h.parse_render (proper_of_compile hp) hm]

theorem roundTrip_eq (h : p.Complete unit) {m : Moment} (hm : m.inRange = true) :
    roundTrip source m = .ok (if p.TellsTime then m.carry.truncate unit else .midnight m.date) := by
  rw [roundTrip, hp, ok_bind, h.parse_render (proper_of_compile hp) hm]

end

/-- Date and time of day to the millisecond. -/
def precise : Pattern := ⟨iso, "%Y-%m-%dT%H:%M:%S.%3fZ".toList⟩

/-- The date alone. -/
def dateOnly : Pattern := ⟨dashedDate, "%Y-%m-%d".toList⟩

theorem complete_precise : precise.Complete 1000000 := by decide

theorem complete_full : full.Complete 1000000000 := by decide

theorem complete_dateOnly : dateOnly.Complete 1000000000 := by decide

/-- **The patterns that have bounds of their own read back what they write**, for every moment that
    calculations may reach: down to the millisecond, down to the second, where a leap second stays
    second 60, and as midnight of the date. A moment whose leap second, if it lies in one, is second
    60 of its minute is read as what its clock shows. -/
theorem roundTrip_of_inRange {d : Moment} (hd : d.inRange = true) :
    ((d.inLeapSecond = true → d.secondOfMinute = 59) → d.carry = d) ∧
    roundTrip iso d = .ok (d.carry.truncate 1000000) ∧
    roundTrip dashedDateTime d = .ok (d.carry.truncate 1000000000) ∧
    roundTrip dashedDate d = .ok (.midnight d.date) := by
  refine ⟨Moment.carry_eq_self, ?_, ?_, ?_⟩
  · rw [roundTrip_eq (p := precise) rfl complete_precise hd, if_pos (by decide)]
  · rw [roundTrip_eq (p := full) rfl complete_full hd, if_pos (by decide)]
  · rw [roundTrip_eq (p := dateOnly) rfl complete_dateOnly hd, if_neg (by decide)]

/-- The last nanosecond of the fifteenth of March in the year -44, within a leap second. -/
def ides : Moment := .ofSeconds (-63549273601) 1999999999 (by decide)

theorem roundTrip_ides :
    (ides.inRange = true ∧ ides.inLeapSecond = true ∧ ides.secondOfMinute = 59) ∧
    roundTrip iso ides = .ok (ides.truncate 1000000) ∧
    roundTrip dashedDateTime ides = .ok (ides.truncate 1000000000) ∧
    roundTrip dashedDate ides = .ok (.midnight ides.date) := by
  have hrange : ides.inRange = true := rfl
  obtain ⟨hcarry, hiso, hfull, hdate⟩ := roundTrip_of_inRange hrange
  rw [hcarry fun _ => rfl] at hiso hfull
  exact ⟨⟨hrange, rfl, rfl⟩, hiso, hfull, hdate⟩

example : precise.render ⟨ides, .utc⟩ = "-0044-03-15T23:59:60.999Z".toList := by decide

end Pattern
end Recordsmith
