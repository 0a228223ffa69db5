import Recordsmith.Proofs.DateParts

/-!
# Dates and times of day from their parts

* `Moment.part` are the parts of a moment, and `DateParts.Shows` says that those told are true of
  it;
* `DateParts.shows_date`: a date that is made of parts has every part of a date that was told;
* `DateParts.clock_isOk_iff`: which parts make a time of day, and `DateParts.clock_shows` that it
  has every part that was told;
* `Pattern.parse_eq_ok_iff`: a text is read with a time of day if the fields of the pattern always
  tell one, and as midnight if they do not.
-/

namespace Recordsmith

/-! ## The parts of a moment -/

/-- The part belongs to the date. -/
def Slot.ofDate : Slot → Bool
  | .year | .yearOfCentury | .month | .day | .dayOfYear | .weekday => true
  | _ => false

/-- The part belongs to the time of day. -/
def Slot.ofTime : Slot → Bool
  | .half | .hourOfHalf | .minute | .second | .nano => true
  | _ => false

/-- The parts of a moment of universal time. The second of a leap second is 60. -/
def Moment.part (m : Moment) : Slot → Int
  | .year => m.date.year
  | .yearOfCentury => m.date.year % 100
  | .month => m.date.month
  | .day => m.date.day
  | .dayOfYear => m.date.ordinal
  | .weekday => m.date.weekday
  | .half => m.hour / 12
  | .hourOfHalf => m.hour % 12
  | .minute => m.minute
  | .second => m.secondOfMinute + m.nano / nanosPerSecond
  | .nano => m.nano % nanosPerSecond
  | .offset => 0

theorem Moment.part_of_date_eq {m m' : Moment} (h : m.date = m'.date) {s : Slot}
    (hs : s.ofDate = true) : m.part s = m'.part s := by
  cases s <;> first | exact absurd hs (by decide) | simp only [part, h]

namespace DateParts

/-- What is told of some parts is true of a moment. -/
def Shows (parts : DateParts) (kind : Slot → Bool) (m : Moment) : Prop :=
  ∀ s v, kind s = true → parts.get s = some v → m.part s = v

/-- What is told of the time of day, and of a year without its century, are admitted values. -/
def Admitted (parts : DateParts) : Prop := ∀ s v, parts.get s = some v → s.Admits v

/-! ## Dates -/

/-- A year that is resolved is the one told, and ends in the two digits told. -/
theorem resolveYear_eq_ok {parts : DateParts} {year : Int} (hp : parts.Admitted)
    (h : parts.resolveYear = .ok (some year)) :
    (∀ v, parts.year = some v → year = v) ∧
      (∀ v, parts.yearOfCentury = some v → year % 100 = v) := by
  have hadmits : ∀ v, parts.yearOfCentury = some v → 0 ≤ v ∧ v ≤ 99 := hp .yearOfCentury
  unfold resolveYear at h
  split at h
  · rename_i hshort
    have hyear := Except.ok.inj h
    simp [hshort, hyear]
  · rename_i full short hyear hshort
    split at h
    · obtain rfl := Option.some.inj (Except.ok.inj h)
      rename_i hmatch
      simp [hyear, hshort, hmatch.2]
    · exact absurd h (by simp)
  · rename_i short hyear hshort
    obtain rfl := Option.some.inj (Except.ok.inj h)
    have hbounds := hadmits short hshort
    simp only [hyear, reduceCtorEq, false_implies, implies_true, hshort, Option.some.injEq,
      forall_eq', true_and]
    split <;> omega

/-- The parts that a date was not made of may refuse it, but do not change it. -/
theorem eq_some_of_agrees {parts : DateParts} {d : Date} {found : Option Date}
    (h : (match found with
      | none => throw .outOfRange
      | some date => if parts.agrees date then pure date else throw .impossible) =
        (.ok d : Except DateFault Date)) : found = some d ∧ parts.agrees d = true := by
  split at h
  · exact absurd h throw_ne_ok
  · split at h
    · obtain rfl := Except.ok.inj h
      exact ⟨rfl, ‹_›⟩
    · exact absurd h throw_ne_ok

/-- A date comes of a year, and of a month and a day or of a number in the year. -/
theorem date_eq_ok {parts : DateParts} {d : Date} (h : parts.date = .ok d) :
    parts.resolveYear = .ok (some d.year) ∧ d.inRange = true ∧ parts.agrees d = true := by
  unfold DateParts.date at h
  obtain ⟨year, hyear, h⟩ := bind_eq_ok h
  dsimp only at h
  split at h
  · obtain ⟨hfound, hagrees⟩ := eq_some_of_agrees h
    obtain ⟨hy, -, -, hr⟩ := Date.ofYmdInRange?_eq_some hfound
    rw [hyear, hy]
    exact ⟨rfl, hr, hagrees⟩
  · obtain ⟨hfound, hagrees⟩ := eq_some_of_agrees h
    obtain ⟨hfound, hr⟩ := Option.filter_eq_some_iff.1 hfound
    rw [hyear, Date.year_of_ofOrdinal? hfound]
    exact ⟨rfl, hr, hagrees⟩
  · obtain ⟨found, ht, -⟩ := bind_eq_ok h
    exact absurd ht throw_ne_ok

/-- **A date has every part of a date that was told.** -/
theorem shows_date {parts : DateParts} {m : Moment} (hp : parts.Admitted)
    (h : parts.date = .ok m.date) : parts.Shows Slot.ofDate m := by
  obtain ⟨hyear, -, hagrees⟩ := date_eq_ok h
  obtain ⟨hfull, hshort⟩ := resolveYear_eq_ok hp hyear
  simp only [agrees, Bool.and_eq_true, decide_eq_true_eq] at hagrees
  obtain ⟨⟨⟨hmonth, hday⟩, hordinal⟩, hweekday⟩ := hagrees
  intro s v hs hv
  cases s with
  | year => exact hfull v hv
  | yearOfCentury => exact hshort v hv
  | month =>
    rw [show parts.month = some v from hv] at hmonth
    exact hmonth.symm
  | day =>
    rw [show parts.day = some v from hv] at hday
    exact hday.symm
  | dayOfYear =>
    rw [show parts.dayOfYear = some v from hv] at hordinal
    exact hordinal.symm
  | weekday =>
    rw [show parts.weekday = some v from hv] at hweekday
    exact hweekday.symm
  | half | hourOfHalf | minute | second | nano | offset => exact absurd hs (by decide)

/-! ## Times of day -/

/-- What seconds and nanoseconds come of the parts told. -/
theorem secondAndNano_eq_ok {parts : DateParts} {second nano : Nat} (hp : parts.Admitted)
    (h : parts.secondAndNano = .ok (second, nano)) :
    (second < 60 ∧ nano < 2000000000 ∧ (nano < 1000000000 ∨ second = 59)) ∧
      (∀ v, parts.second = some v → (second : Int) + nano / nanosPerSecond = v) ∧
      (∀ v, parts.nano = some v → (nano : Int) % nanosPerSecond = v) := by
  have hsecond : ∀ v, parts.second = some v → 0 ≤ v ∧ v ≤ 60 := hp .second
  have hnano : ∀ v, parts.nano = some v → 0 ≤ v ∧ v ≤ 999999999 := hp .nano
  unfold secondAndNano at h
  split at h
  · exact absurd h (by simp)
  · rename_i hs hn
    cases h
    simp [hs, hn]
  · rename_i s hs
    obtain ⟨hs₀, hs₁⟩ := hsecond s hs
    have hn : 0 ≤ parts.nano.getD 0 ∧ parts.nano.getD 0 ≤ 999999999 := by
      cases hparts : parts.nano with
      | none => decide
      | some v => exact hnano v hparts
    have hvalue : ∀ v, parts.nano = some v → parts.nano.getD 0 = v := by
      intro v hv
      rw [hv]
      rfl
    simp only [hs, Option.some.injEq, forall_eq', nanosPerSecond] at h ⊢
    split at h <;> cases h
    · refine ⟨by omega, by omega, fun v hv => ?_⟩
      have := hvalue v hv
      omega
    · refine ⟨by omega, by omega, fun v hv => ?_⟩
      have := hvalue v hv
      omega

/-- Second and nanoseconds are known unless only the fraction of the second is. -/
theorem secondAndNano_isOk_iff {parts : DateParts} :
    (∃ r, parts.secondAndNano = .ok r) ↔ (parts.nano.isSome → parts.second.isSome) := by
  unfold secondAndNano
  split <;> rename_i hs <;> simp [*]

/-- **A time of day comes of hour and minute, and of the second if its fraction is told.** -/
theorem clock_isOk_iff {parts : DateParts} (hp : parts.Admitted) (date : Date) :
    (∃ m, parts.clock date = .ok m) ↔
      parts.half.isSome ∧ parts.hourOfHalf.isSome ∧ parts.minute.isSome ∧
        (parts.nano.isSome → parts.second.isSome) := by
  unfold clock
  split
  · rename_i half hour minute hhalf hhour hminute
    have hhalf' : 0 ≤ half ∧ half ≤ 1 := hp .half half hhalf
    have hhour' : 0 ≤ hour ∧ hour ≤ 11 := hp .hourOfHalf hour hhour
    have hminute' : 0 ≤ minute ∧ minute ≤ 59 := hp .minute minute hminute
    simp only [hhalf, hhour, hminute, Option.isSome_some, true_and]
    rw [← secondAndNano_isOk_iff]
    constructor
    · rintro ⟨m, h⟩
      obtain ⟨r, hr, -⟩ := bind_eq_ok h
      exact ⟨r, hr⟩
    · rintro ⟨⟨second, nano⟩, hr⟩
      obtain ⟨⟨hsecond, hnano, hleap⟩, -⟩ := secondAndNano_eq_ok hp hr
      obtain ⟨m, hm⟩ := Moment.ofClock?_isSome date (show (half * 12 + hour).toNat < 24 by omega)
        (show minute.toNat < 60 by omega) hsecond hnano hleap
      refine ⟨m, ?_⟩
      simp only [hr, ok_bind, hm]
      rfl
  · rename_i hunknown
    constructor
    · rintro ⟨m, h⟩
      exact absurd h throw_ne_ok
    · rintro ⟨hhalf, hhour, hminute, -⟩
      obtain ⟨half, hhalf⟩ := Option.isSome_iff_exists.1 hhalf
      obtain ⟨hour, hhour⟩ := Option.isSome_iff_exists.1 hhour
      obtain ⟨minute, hminute⟩ := Option.isSome_iff_exists.1 hminute
      exact absurd hminute (hunknown half hour minute hhalf hhour)

/-- A time of day comes of an hour, a minute and what is known of the second. -/
theorem clock_eq_ok {parts : DateParts} {date : Date} {m : Moment}
    (h : parts.clock date = .ok m) :
    ∃ half hour minute second, parts.half = some half ∧ parts.hourOfHalf = some hour ∧
      parts.minute = some minute ∧ parts.secondAndNano = .ok (second, m.nano) ∧ m.date = date ∧
      m.hour = (half * 12 + hour).toNat ∧ m.minute = minute.toNat ∧ m.secondOfMinute = second := by
  unfold clock at h
  split at h
  · rename_i half hour minute hhalf hhour hminute
    obtain ⟨⟨second, nano⟩, hr, h⟩ := bind_eq_ok h
    dsimp only at h
    split at h
    · obtain rfl := Except.ok.inj h
      obtain ⟨hdate, hh, hmin, hs, rfl⟩ := Moment.ofClock?_eq_some ‹_›
      exact ⟨half, hour, minute, second, hhalf, hhour, hminute, hr, hdate, hh, hmin, hs⟩
    · exact absurd h throw_ne_ok
  · exact absurd h throw_ne_ok

/-- **A time of day has every part that was told.** -/
theorem clock_shows {parts : DateParts} {date : Date} {m : Moment} (hp : parts.Admitted)
    (h : parts.clock date = .ok m) : m.date = date ∧ parts.Shows Slot.ofTime m := by
  obtain ⟨half, hour, minute, second, hhalf, hhour, hminute, hr, hdate, hh, hmin, hs⟩ :=
    clock_eq_ok h
  have hhalf' : 0 ≤ half ∧ half ≤ 1 := hp .half half hhalf
  have hhour' : 0 ≤ hour ∧ hour ≤ 11 := hp .hourOfHalf hour hhour
  have hminute' : 0 ≤ minute ∧ minute ≤ 59 := hp .minute minute hminute
  obtain ⟨-, hsecond, hnano⟩ := secondAndNano_eq_ok hp hr
  refine ⟨hdate, fun s v hkind hv => ?_⟩
  cases s with
  | half =>
    obtain rfl := Option.some.inj (hhalf.symm.trans hv)
    rw [Moment.part, hh]
    omega
  | hourOfHalf =>
    obtain rfl := Option.some.inj (hhour.symm.trans hv)
    rw [Moment.part, hh]
    omega
  | minute =>
    obtain rfl := Option.some.inj (hminute.symm.trans hv)
    rw [Moment.part, hmin]
    omega
  | second => rw [Moment.part, hs, hsecond v hv]
  | nano => rw [Moment.part, hnano v hv]
  | _ => exact absurd hkind (by decide)

/-- A time of day has no fraction of a second if none was told. -/
theorem part_nano_of_clock {parts : DateParts} {date : Date} {m : Moment}
    (h : parts.clock date = .ok m) (hnano : parts.nano = none) : m.part .nano = 0 := by
  obtain ⟨-, -, -, second, -, -, -, hr, -⟩ := clock_eq_ok h
  have hwhole : ∀ {nano : Nat}, nano = 0 ∨ nano = nanosPerSecond → m.nano = nano →
      m.part .nano = 0 := by
    rintro nano (rfl | rfl) hm <;> rw [Moment.part, hm] <;> rfl
  unfold secondAndNano at hr
  rw [hnano] at hr
  cases hs : parts.second with
  | none =>
    rw [hs] at hr
    exact hwhole (Or.inl rfl) (Prod.mk.inj (Except.ok.inj hr)).2.symm
  | some s =>
    rw [hs] at hr
    dsimp only at hr
    split at hr
    · exact hwhole (Or.inr rfl) (Prod.mk.inj (Except.ok.inj hr)).2.symm
    · exact hwhole (Or.inl rfl) (Prod.mk.inj (Except.ok.inj hr)).2.symm

end DateParts

/-! ## Patterns -/

namespace Pattern

/-- The parts that a pattern shows. -/
def slots (p : Pattern) : List Slot := p.items.flatMap Item.slots

/-- The fields of the pattern tell a time of day: an hour, with its half of the day, and a minute;
    and a second if they tell its fraction. -/
def TellsTime (p : Pattern) : Prop :=
  Slot.half ∈ p.slots ∧ Slot.hourOfHalf ∈ p.slots ∧ Slot.minute ∈ p.slots ∧
    (Slot.nano ∈ p.slots → Slot.second ∈ p.slots)

instance (p : Pattern) : Decidable p.TellsTime :=
  inferInstanceAs (Decidable (_ ∧ _ ∧ _ ∧ (_ → _)))

/-- The parts that are read are those that the pattern shows, with admitted values. -/
theorem readItems_spec {p : Pattern} {t : Text} {parts : DateParts}
    (h : DateParts.readItems {} p.items t = .ok parts) :
    (∀ s, (parts.get s).isSome ↔ s ∈ p.slots) ∧ parts.Admitted := by
  obtain ⟨tells, hscan, hget⟩ := DateParts.readItems_eq_ok_iff.1 h
  obtain ⟨hslots, hadmits⟩ := scanItems_tells hscan
  refine ⟨fun s => ?_, fun s v hv => hadmits (s, v) ((hget s v).1 hv)⟩
  rw [slots, ← hslots, Option.isSome_iff_exists, List.mem_map]
  constructor
  · rintro ⟨v, hv⟩
    exact ⟨(s, v), (hget s v).1 hv, rfl⟩
  · rintro ⟨⟨_, v⟩, hmem, rfl⟩
    exact ⟨v, (hget _ v).2 hmem⟩

/-- **A text is read with a time of day if the pattern tells one, and as midnight otherwise.** -/
theorem parse_eq_ok_iff {p : Pattern} {t : Text} {m : Moment} :
    p.parse t = .ok m ↔
      ∃ parts, DateParts.readItems {} p.items t = .ok parts ∧ parts.date = .ok m.date ∧
        if p.TellsTime then parts.clock m.date = .ok m else m = .midnight m.date := by
  have htells : ∀ {parts : DateParts} {date : Date},
      DateParts.readItems {} p.items t = .ok parts →
      ((∃ m, parts.clock date = .ok m) ↔ p.TellsTime) := by
    intro parts date hparts
    obtain ⟨hslots, hadmitted⟩ := readItems_spec hparts
    rw [DateParts.clock_isOk_iff hadmitted, TellsTime, ← hslots, ← hslots, ← hslots, ← hslots,
      ← hslots]
    rfl
  constructor
  · intro h
    obtain ⟨parts, hparts, h⟩ := bind_eq_ok (mapError_eq_ok h)
    obtain ⟨date, hdate, h⟩ := bind_eq_ok h
    refine ⟨parts, hparts, ?_⟩
    split at h
    · rename_i m' hclock
      obtain rfl := Except.ok.inj h
      obtain ⟨rfl, -⟩ := DateParts.clock_shows (readItems_spec hparts).2 hclock
      exact ⟨hdate, by rwa [if_pos ((htells hparts).1 ⟨_, hclock⟩)]⟩
    · rename_i hclock
      obtain rfl := Except.ok.inj h
      refine ⟨hdate, ?_⟩
      rw [if_neg fun htime => ?_]
      · rfl
      · obtain ⟨m, hm⟩ := (htells hparts).2 htime
        rw [hm] at hclock
        exact absurd hclock (by simp)
  · rintro ⟨parts, hparts, hdate, htime⟩
    simp only [parse, hparts, ok_bind, hdate]
    split at htime
    · rw [htime]
      rfl
    · rename_i hno
      split
      · exact absurd ((htells hparts).1 ⟨_, ‹_›⟩) hno
      · rw [htime]
        rfl

/-- A pattern that shows no fraction of a second reads none. -/
theorem part_nano_of_parse {p : Pattern} {t : Text} {m : Moment} (hp : .nano ∉ p.slots)
    (h : p.parse t = .ok m) : m.part .nano = 0 := by
  obtain ⟨parts, hparts, -, htime⟩ := parse_eq_ok_iff.1 h
  have hnone : parts.nano = none :=
    Option.not_isSome_iff_eq_none.1 fun hsome => hp (((readItems_spec hparts).1 .nano).1 hsome)
  split at htime
  · exact DateParts.part_nano_of_clock htime hnone
  · rw [htime]
    rfl

/-- **A text that a pattern reads is a moment that calculations may reach.** -/
theorem inRange_of_parse {p : Pattern} {t : Text} {m : Moment} (h : p.parse t = .ok m) :
    m.inRange = true := by
  obtain ⟨parts, -, hdate, -⟩ := parse_eq_ok_iff.1 h
  exact (DateParts.date_eq_ok hdate).2.1

end Pattern
end Recordsmith
