import Recordsmith.Proofs.LocalSteps

/-!
# Steps along the time line

Steps of units below the day take no notice of clocks: outside leap seconds they are additions to
the nanosecond of the time line.

* `Moment.instant` is that nanosecond, which tells moments outside leap seconds apart;
* `Moment.instant_add`: a move by nanoseconds is an addition, so that `Moment.add_add` makes two
  moves one;
* `Zoned.addNanos_eq_of_inRange`: the limit on durations refuses no step within the range of
  calculations;
* `TimeUnit.millis?` are the lengths of the units below the day;
* `TimeUnit.shift_exact`: steps of these units are exact, the same in every zone and for every unit
  that divides them, and they add up; they fail just if they lead out of the range of calculations.
-/

namespace Recordsmith

namespace Moment

/-! ## Moments as integers -/

/-- The nanosecond of the time line at which a moment lies, with 0 at the start of 1970. -/
def instant (m : Moment) : Int := m.seconds * nanosPerSecond + m.nano

/-- Outside leap seconds, moments are the nanoseconds of the time line. -/
theorem eq_of_instant_eq {m n : Moment} (hm : m.inLeapSecond = false)
    (hn : n.inLeapSecond = false) (h : m.instant = n.instant) : m = n := by
  rw [inLeapSecond_eq_false_iff] at hm hn
  unfold instant nanosPerSecond at h
  exact eq_of_seconds_eq (by omega) (by omega)

/-- Outside leap seconds, the range of calculations is one of nanoseconds. -/
theorem inRange_iff_instant {m : Moment} (h : m.inLeapSecond = false) :
    m.inRange = true ↔
      minSeconds * nanosPerSecond ≤ m.instant ∧ m.instant < (maxSeconds + 1) * nanosPerSecond := by
  rw [inLeapSecond_eq_false_iff] at h
  rw [inRange_iff]
  unfold instant nanosPerSecond
  omega

/-! ## Moves as additions -/

theorem inLeapSecond_add {m : Moment} (h : m.inLeapSecond = false) (δ : Int) :
    (m.add δ).inLeapSecond = false := by
  have hn := nano_after m.seconds m.nano δ
  rw [inLeapSecond_eq_false_iff, add_eq_after h]
  omega

/-- **Outside leap seconds, a move by nanoseconds is an addition.** -/
theorem instant_add {m : Moment} (h : m.inLeapSecond = false) (δ : Int) :
    (m.add δ).instant = m.instant + δ := by
  have hs := seconds_after m.seconds m.nano δ
  have hn := nano_after m.seconds m.nano δ
  rw [add_eq_after h]
  unfold instant nanosPerSecond
  omega

/-- Two moves are one. -/
theorem add_add {m : Moment} (h : m.inLeapSecond = false) (δ ε : Int) :
    (m.add δ).add ε = m.add (δ + ε) := by
  have hδ := inLeapSecond_add h δ
  refine eq_of_instant_eq (inLeapSecond_add hδ ε) (inLeapSecond_add h (δ + ε)) ?_
  rw [instant_add hδ, instant_add h, instant_add h, Int.add_assoc]

/-- **The range of calculations is shorter than the longest duration**, so that a longer step leads out
    of it. -/
theorem inRange_add_of_long {m : Moment} (hm : m.inLeapSecond = false) (hrange : m.inRange = true)
    {δ : Int} (hlong : Zoned.maxDuration < δ.natAbs) : (m.add δ).inRange = false := by
  rw [Bool.eq_false_iff]
  intro hend
  rw [inRange_iff_instant (inLeapSecond_add hm δ), instant_add hm] at hend
  rw [inRange_iff_instant hm] at hrange
  have hwidth : (maxSeconds + 1) * nanosPerSecond - minSeconds * nanosPerSecond <
      Zoned.maxDuration := by
    decide
  omega

end Moment

/-- The limit on durations refuses no step that stays within the range of calculations. -/
theorem Zoned.addNanos_eq_of_inRange {z : Zoned} (hz : z.utc.inLeapSecond = false)
    (hrange : z.utc.inRange = true) (δ : Int) :
    z.addNanos δ =
      if (z.utc.add δ).inRange then .ok ⟨z.utc.add δ, z.zone⟩ else .error .outOfRange := by
  rw [addNanos_eq]
  refine if_congr (and_iff_right_of_imp fun hend => ?_) rfl rfl
  by_contra hlong
  rw [Moment.inRange_add_of_long hz hrange (not_le.1 hlong)] at hend
  cases hend

/-! ## Units below the day -/

namespace TimeUnit

/-- The milliseconds of a unit below the day. -/
def millis? : TimeUnit → Option Int
  | .millisecond => some 1
  | .second => some 1000
  | .minute => some 60000
  | .hour => some 3600000
  | .day | .month | .year => none

/-- The nanoseconds of a millisecond. -/
def nanosPerMilli : Int := 1000000

theorem shift_of_millis? {unit : TimeUnit} {w : Int} (h : unit.millis? = some w) (z : Zoned)
    (amount : Int) : unit.shift z amount = z.addNanos (amount * w * nanosPerMilli) := by
  have hnanos : unit.nanos = w * nanosPerMilli := by
    cases unit with
    | millisecond | second | minute | hour =>
      obtain rfl := Option.some.inj h
      rfl
    | day | month | year => cases h
  rw [Int.mul_assoc, ← hnanos]
  cases unit with
  | millisecond | second | minute | hour => rfl
  | day | month | year => cases h

/-- **Steps of units below the day are exact.** From a moment in range and outside leap seconds, such
    a step leads to the moment whose nanosecond is as far away as the step is long, in every zone;
    and it cannot be made just if that moment is out of range. So

    * steps of the same length are the same, whatever their units;
    * two steps one after the other are one by the sum of their amounts;
    * the limit on durations, whose milliseconds are the size of a signed 64-bit word, refuses only
      steps that lead out of range. -/
theorem shift_exact {unit : TimeUnit} {w : Int} (hunit : unit.millis? = some w) {utc : Moment}
    (hutc : utc.inLeapSecond = false) (hrange : utc.inRange = true) (amount : Int) :
    (∃ m : Moment, m.inLeapSecond = false ∧
      m.instant = utc.instant + amount * w * nanosPerMilli ∧
      (IntegerRange.int64.max < (amount * w).natAbs → m.inRange = false) ∧
      ∀ zone, unit.shift ⟨utc, zone⟩ amount =
        if m.inRange then .ok ⟨m, zone⟩ else .error .outOfRange) ∧
    (∀ {unit' : TimeUnit} {w' : Int}, unit'.millis? = some w' → ∀ amount',
      amount' * w' = amount * w →
        ∀ zone, unit'.shift ⟨utc, zone⟩ amount' = unit.shift ⟨utc, zone⟩ amount) ∧
    (∀ zone z, unit.shift ⟨utc, zone⟩ amount = .ok z →
      ∀ more, unit.shift z more = unit.shift ⟨utc, zone⟩ (amount + more)) ∧
    (IntegerRange.int64.max < (amount * w).natAbs →
      ∀ zone, unit.shift ⟨utc, zone⟩ amount = .error .outOfRange) := by
  have hshift : ∀ zone amount, unit.shift ⟨utc, zone⟩ amount =
      if (utc.add (amount * w * nanosPerMilli)).inRange then
        .ok ⟨utc.add (amount * w * nanosPerMilli), zone⟩ else .error .outOfRange := by
    intro zone amount
    rw [shift_of_millis? hunit, Zoned.addNanos_eq_of_inRange hutc hrange]
  have hlong : IntegerRange.int64.max < (amount * w).natAbs →
      (utc.add (amount * w * nanosPerMilli)).inRange = false := by
    intro h
    refine Moment.inRange_add_of_long hutc hrange ?_
    unfold nanosPerMilli Zoned.maxDuration IntegerRange.int64 at *
    dsimp only at h
    omega
  refine ⟨⟨_, Moment.inLeapSecond_add hutc _, Moment.instant_add hutc _, hlong,
    fun zone => hshift zone amount⟩, ?_, ?_, fun h zone => ?_⟩
  · intro unit' w' hunit' amount' hlength zone
    rw [shift_of_millis? hunit', shift_of_millis? hunit, hlength]
  · intro zone z hz more
    obtain ⟨rfl, hreached⟩ := Zoned.addNanos_eq_ok ((shift_of_millis? hunit _ _).symm.trans hz)
    rw [hshift, shift_of_millis? hunit,
      Zoned.addNanos_eq_of_inRange (Moment.inLeapSecond_add hutc _) hreached]
    dsimp only
    rw [Moment.add_add hutc, Int.add_mul, Int.add_mul]
  · rw [hshift, hlong h]
    rfl

/-- The last nanosecond of 1969. -/
def eve : Moment := .ofSeconds (-1) 999999999 (by decide)

/-- From the last nanosecond of 1969, twenty-five hours back are ninety million milliseconds, and
    one hour more is the next day; the least of the 64-bit words leads out of range. -/
theorem shift_exact_eve :
    (hour.millis? = some 3600000 ∧ millisecond.millis? = some 1 ∧ eve.inLeapSecond = false ∧
      eve.inRange = true) ∧
    (∃ m : Moment, m.instant = -90000000000001 ∧
      hour.shift ⟨eve, parisSpring⟩ (-25) = .ok ⟨m, parisSpring⟩ ∧
      hour.shift ⟨m, parisSpring⟩ 1 = hour.shift ⟨eve, parisSpring⟩ (-24)) ∧
    millisecond.shift ⟨eve, parisSpring⟩ (-90000000) = hour.shift ⟨eve, parisSpring⟩ (-25) ∧
    hour.shift ⟨eve, parisSpring⟩ IntegerRange.int64.min = .error .outOfRange := by
  have hunit : hour.millis? = some 3600000 := rfl
  have hunit' : millisecond.millis? = some 1 := rfl
  have hutc : eve.inLeapSecond = false := by decide
  have hrange : eve.inRange = true := by decide
  obtain ⟨⟨m, hm, hinstant, -, hshift⟩, hsame, hsum, -⟩ := shift_exact hunit hutc hrange (-25)
  have hinstant : m.instant = -90000000000001 := hinstant.trans (by decide)
  have hreached : m.inRange = true := by
    rw [Moment.inRange_iff_instant hm, hinstant]
    decide
  have hback := hshift parisSpring
  rw [if_pos hreached] at hback
  have hlong := (shift_exact hunit hutc hrange IntegerRange.int64.min).2.2.2 (by decide)
  exact ⟨⟨hunit, hunit', hutc, hrange⟩, ⟨m, hinstant, hback, hsum parisSpring _ hback 1⟩,
    hsame hunit' (-90000000) (by decide) parisSpring, hlong parisSpring⟩

end TimeUnit
end Recordsmith
