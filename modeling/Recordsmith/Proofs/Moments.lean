import Recordsmith.Calendar.Moment
import Recordsmith.Proofs.Calendar

/-!
# Moments on the time line

* `Moment.seconds_ofSeconds`: a second of the time line becomes a moment of that second;
* `Moment.inRange_iff`: the moments that calculations may reach are those of an interval of seconds;
* `Moment.add_lt`, `Moment.add_gt`: a move by a positive number of nanoseconds leads to a later
  moment and one by a negative number to an earlier one, in and out of leap seconds;
* `Moment.add_bounds`: how far such a move can lead from where it should.
-/

namespace Recordsmith

namespace Moment

/-! ## Seconds -/

@[simp] theorem seconds_ofSeconds (t : Int) (nano : Nat) (h : nano < 2000000000) :
    (ofSeconds t nano h).seconds = t := by
  simp only [seconds, ofSeconds, Date.toDays_ofDays, secondsPerDay]
  omega

@[simp] theorem nano_ofSeconds (t : Int) (nano : Nat) (h : nano < 2000000000) :
    (ofSeconds t nano h).nano = nano := rfl

@[simp] theorem seconds_onClock (m : Moment) (δ : Int) : (m.onClock δ).seconds = m.seconds + δ :=
  seconds_ofSeconds ..

@[simp] theorem nano_onClock (m : Moment) (δ : Int) : (m.onClock δ).nano = m.nano :=
  nano_ofSeconds ..

@[simp] theorem seconds_midnight (date : Date) : (midnight date).seconds = date.toDays * 86400 := by
  simp [seconds, midnight, secondsPerDay]

@[simp] theorem nano_midnight (date : Date) : (midnight date).nano = 0 := rfl

/-- A moment is its second of the time line with its nanoseconds. -/
theorem eq_of_seconds_eq {m n : Moment} (h : m.seconds = n.seconds) (h' : m.nano = n.nano) :
    m = n := by
  have hm := m.second_lt
  have hn := n.second_lt
  unfold seconds secondsPerDay at h
  have hdate : m.date = n.date := Date.toDays_injective (by omega)
  have hsecond : m.second = n.second := by
    rw [hdate] at h
    omega
  cases m
  cases n
  simp_all

theorem toDays_mul_le_seconds (m : Moment) : m.date.toDays * 86400 ≤ m.seconds := by
  unfold seconds secondsPerDay
  omega

theorem seconds_lt_toDays_mul (m : Moment) : m.seconds < m.date.toDays * 86400 + 86400 := by
  have := m.second_lt
  unfold seconds secondsPerDay
  omega

/-- Whole days on the clock move the date and keep the time of day. -/
theorem onClock_days (m : Moment) (n : Int) :
    (m.onClock (n * secondsPerDay)).date.toDays = m.date.toDays + n ∧
      (m.onClock (n * secondsPerDay)).second = m.second := by
  have hlt := m.second_lt
  simp only [onClock, ofSeconds, seconds, secondsPerDay, Date.toDays_ofDays]
  omega

@[simp] theorem seconds_truncateToSecond (m : Moment) : m.truncateToSecond.seconds = m.seconds :=
  rfl

/-! ## Order -/

theorem lt_iff {a b : Moment} :
    a < b ↔ a.seconds < b.seconds ∨ (a.seconds = b.seconds ∧ a.nano < b.nano) := Iff.rfl

theorem le_iff {a b : Moment} :
    a ≤ b ↔ a.seconds < b.seconds ∨ (a.seconds = b.seconds ∧ a.nano ≤ b.nano) := by
  change ¬ b < a ↔ _
  rw [lt_iff]
  omega

theorem not_lt_self (a : Moment) : ¬ a < a := by
  rw [lt_iff]
  omega

theorem lt_trans {a b c : Moment} (h : a < b) (h' : b < c) : a < c := by
  rw [lt_iff] at *
  omega

theorem seconds_le_of_not_lt {a b : Moment} (h : ¬ a < b) : b.seconds ≤ a.seconds := by
  rw [lt_iff] at h
  omega

/-! ## Range -/

/-- The first second that calculations may reach. -/
def minSeconds : Int := Date.minDays * 86400

/-- The last second that calculations may reach. -/
def maxSeconds : Int := Date.maxDays * 86400 + 86399

/-- **The moments that calculations may reach are an interval.** -/
theorem inRange_iff {m : Moment} :
    m.inRange = true ↔ minSeconds ≤ m.seconds ∧ m.seconds ≤ maxSeconds := by
  have h₁ := m.toDays_mul_le_seconds
  have h₂ := m.seconds_lt_toDays_mul
  rw [inRange, Date.inRange_iff, minSeconds, maxSeconds]
  omega

/-- The first second of a year. -/
def yearStart (year : Int) : Int := (Date.daysBeforeYear year - Date.daysBeforeEpoch) * 86400

theorem year_lt_iff {m : Moment} {year : Int} :
    m.date.year < year ↔ m.seconds < yearStart year := by
  have h₁ := m.toDays_mul_le_seconds
  have h₂ := m.seconds_lt_toDays_mul
  rw [Date.lt_year_iff, yearStart]
  omega

theorem year_bounds {m : Moment} (h : m.inRange = true) :
    Date.minYear ≤ m.date.year ∧ m.date.year ≤ Date.maxYear := by
  simpa [inRange, Date.inRange] using h

/-! ## Times of day -/

theorem hour_le (m : Moment) : m.hour ≤ 23 := by
  have := m.second_lt
  unfold hour
  omega

theorem minute_le (m : Moment) : m.minute ≤ 59 := by
  unfold minute
  omega

theorem secondOfMinute_le (m : Moment) : m.secondOfMinute ≤ 59 := by
  unfold secondOfMinute
  omega

theorem inLeapSecond_iff {m : Moment} : m.inLeapSecond = true ↔ 1000000000 ≤ m.nano :=
  decide_eq_true_iff

theorem inLeapSecond_eq_false_iff {m : Moment} : m.inLeapSecond = false ↔ m.nano < 1000000000 := by
  rw [← Bool.not_eq_true, inLeapSecond_iff, not_le]

theorem ofClock?_eq_some {date : Date} {hour minute second nano : Nat} {m : Moment}
    (h : ofClock? date hour minute second nano = some m) :
    m.date = date ∧ m.hour = hour ∧ m.minute = minute ∧ m.secondOfMinute = second ∧
      m.nano = nano := by
  unfold ofClock? at h
  split at h
  · obtain rfl := Option.some.inj h
    refine ⟨rfl, ?_, ?_, ?_, rfl⟩
    · simp only [Moment.hour]
      omega
    · simp only [Moment.minute]
      omega
    · simp only [Moment.secondOfMinute]
      omega
  · exact absurd h (by simp)

/-- A clock that shows leap seconds only after second 59 shows a moment. -/
theorem ofClock?_self {m : Moment} (h : m.nano < 1000000000 ∨ m.secondOfMinute = 59) :
    ofClock? m.date m.hour m.minute m.secondOfMinute m.nano = some m := by
  have hhour := m.hour_le
  have hminute := m.minute_le
  have hsecond := m.secondOfMinute_le
  unfold ofClock?
  rw [dif_pos ⟨by omega, by omega, by omega, m.nano_lt, h⟩]
  cases m with
  | mk date second nano second_lt nano_lt =>
    simp only [hour, minute, secondOfMinute, Option.some.injEq, mk.injEq, and_true, true_and]
    omega

theorem ofClock?_isSome (date : Date) {hour minute second nano : Nat} (h₁ : hour < 24)
    (h₂ : minute < 60) (h₃ : second < 60) (h₄ : nano < 2000000000)
    (h₅ : nano < 1000000000 ∨ second = 59) :
    ∃ m, ofClock? date hour minute second nano = some m :=
  ⟨_, dif_pos ⟨h₁, h₂, h₃, h₄, h₅⟩⟩

/-! ## Moves by nanoseconds -/

/-- The whole seconds of a move and the rest have the sign of the move. -/
theorem move_split (δ : Int) :
    δ = δ.tdiv 1000000000 * 1000000000 + δ.tmod 1000000000 ∧
      (0 ≤ δ → 0 ≤ δ.tdiv 1000000000 ∧ 0 ≤ δ.tmod 1000000000) ∧
      (δ ≤ 0 → δ.tdiv 1000000000 ≤ 0 ∧ δ.tmod 1000000000 ≤ 0) ∧
      -1000000000 < δ.tmod 1000000000 ∧ δ.tmod 1000000000 < 1000000000 := by
  have h := Int.tdiv_mul_add_tmod δ 1000000000
  have h₁ := Int.tmod_lt_of_pos δ (show (0 : Int) < 1000000000 by decide)
  have h₂ := Int.lt_tmod_of_pos δ (show (0 : Int) < 1000000000 by decide)
  refine ⟨h.symm, fun hδ => ?_, fun hδ => ?_, h₂, h₁⟩
  · have := Int.tmod_nonneg 1000000000 hδ
    omega
  · have := Int.tmod_nonneg 1000000000 (show 0 ≤ -δ by omega)
    rw [Int.neg_tmod] at this
    omega

theorem seconds_after (seconds nano δ : Int) :
    (after seconds nano δ).seconds = seconds + (nano + δ) / 1000000000 :=
  seconds_ofSeconds ..

theorem nano_after (seconds nano δ : Int) :
    ((after seconds nano δ).nano : Int) = (nano + δ) % 1000000000 := by
  have : (after seconds nano δ).nano = ((nano + δ) % 1000000000).toNat := rfl
  omega

/-- Where a move leads: outside leap seconds exactly as far as asked for; out of a leap second a
    second less far forward, since the leap second is not counted; within it the second stays. -/
theorem add_cases (m : Moment) (δ : Int) :
    (m.nano < 1000000000 ∧ m.add δ = after m.seconds m.nano δ) ∨
    (1000000000 ≤ m.nano ∧ 2000000000 ≤ m.nano + δ ∧
      m.add δ = after m.seconds (m.nano - 1000000000) δ) ∨
    (1000000000 ≤ m.nano ∧ δ ≤ -1000000000 ∧
      m.add δ = after (m.seconds + 1) (m.nano - 1000000000) δ) ∨
    (1000000000 ≤ m.nano ∧ -1000000000 < δ ∧ m.nano + δ < 2000000000 ∧
      (m.add δ).seconds = m.seconds ∧ ((m.add δ).nano : Int) = m.nano + δ) := by
  obtain ⟨hsplit, hnonneg, hnonpos, hlow, hhigh⟩ := move_split δ
  have hn := m.nano_lt
  simp only [add]
  split_ifs with h₁ h₂ h₃
  · exact Or.inl ⟨h₁, rfl⟩
  · refine Or.inr (Or.inl ⟨by omega, ?_, rfl⟩)
    rcases h₂ with h | ⟨h, h'⟩ <;> omega
  · exact Or.inr (Or.inr (Or.inl ⟨by omega, by omega, rfl⟩))
  · refine Or.inr (Or.inr (Or.inr ⟨by omega, by omega, by omega, rfl, ?_⟩))
    simp only
    omega

/-- Outside leap seconds, a move counts on from the nanosecond of the moment. -/
theorem add_eq_after {m : Moment} (h : m.inLeapSecond = false) (δ : Int) :
    m.add δ = after m.seconds m.nano δ := by
  rw [inLeapSecond_eq_false_iff] at h
  rcases m.add_cases δ with ⟨-, h'⟩ | ⟨h', -⟩ | ⟨h', -⟩ | ⟨h', -⟩
  · exact h'
  all_goals omega

/-- **A move forward leads to a later moment.** -/
theorem add_lt (m : Moment) {δ : Int} (hδ : 0 < δ) : m < m.add δ := by
  rw [lt_iff]
  rcases m.add_cases δ with ⟨_, h⟩ | ⟨_, _, h⟩ | ⟨_, _, h⟩ | ⟨_, _, _, hs, hn⟩
  · have hs := seconds_after m.seconds m.nano δ
    have hn := nano_after m.seconds m.nano δ
    rw [h]
    omega
  · have hs := seconds_after m.seconds (m.nano - 1000000000) δ
    rw [h]
    omega
  · omega
  · omega

/-- **A move back leads to an earlier moment.** -/
theorem add_gt (m : Moment) {δ : Int} (hδ : δ < 0) : m.add δ < m := by
  have hnano := m.nano_lt
  rw [lt_iff]
  rcases m.add_cases δ with ⟨_, h⟩ | ⟨_, _, h⟩ | ⟨_, _, h⟩ | ⟨_, _, _, hs, hn⟩
  · have hs := seconds_after m.seconds m.nano δ
    have hn := nano_after m.seconds m.nano δ
    rw [h]
    omega
  · omega
  · have hs := seconds_after (m.seconds + 1) (m.nano - 1000000000) δ
    have hn := nano_after (m.seconds + 1) (m.nano - 1000000000) δ
    rw [h]
    omega
  · omega

/-- A move by whole seconds misses its second by one at most. -/
theorem add_bounds (m : Moment) (δ : Int) :
    m.seconds + δ ≤ (m.add (δ * nanosPerSecond)).seconds ∧
      (m.add (δ * nanosPerSecond)).seconds ≤ m.seconds + δ + 1 := by
  have hm := m.nano_lt
  simp only [nanosPerSecond]
  rcases m.add_cases (δ * (1000000000 : Nat)) with ⟨_, h⟩ | ⟨_, _, h⟩ | ⟨_, _, h⟩ | ⟨_, _, _, hs, hn⟩
  · have hs := seconds_after m.seconds m.nano (δ * (1000000000 : Nat))
    rw [h]
    omega
  · have hs := seconds_after m.seconds (m.nano - 1000000000) (δ * (1000000000 : Nat))
    rw [h]
    omega
  · have hs := seconds_after (m.seconds + 1) (m.nano - 1000000000) (δ * (1000000000 : Nat))
    rw [h]
    omega
  · omega

/-- Outside leap seconds a move by whole seconds is one of the clock. -/
theorem add_seconds {m : Moment} (h : m.inLeapSecond = false) (δ : Int) :
    m.add (δ * nanosPerSecond) = m.onClock δ := by
  have hlt := inLeapSecond_eq_false_iff.1 h
  have hs := seconds_after m.seconds m.nano (δ * nanosPerSecond)
  have hn := nano_after m.seconds m.nano (δ * nanosPerSecond)
  simp only [nanosPerSecond] at hs hn
  rw [add_eq_after h]
  refine eq_of_seconds_eq ?_ ?_
  · rw [seconds_onClock]
    simp only [nanosPerSecond]
    omega
  · rw [nano_onClock]
    simp only [nanosPerSecond]
    omega

end Moment
end Recordsmith
