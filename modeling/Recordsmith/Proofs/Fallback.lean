import Recordsmith.Proofs.Cursor
import Recordsmith.Proofs.Sampling
import Recordsmith.Proofs.Tallies
import Recordsmith.Proofs.Unfolding

/-!
# Calls that cannot be carried out

A call that cannot be carried out stays as it is written, and leaves nothing behind but two counts.

* `TimeUnit.shift_one_ne`: in the zones of places, and in years that are not too far ahead, a step of
  one unit does not lead out of range;
* `Cursor.advance_outOfRange`: so that a first use of the cursor does not fail;
* `Function.apply_atomic`: no function fails after it has drawn, counted or moved the cursor;
* `evaluateText_fallback`: a text whose call fails is literal text, and the worker and what it shares
  are as they were, but for one more use and one more fallback.
-/

namespace Recordsmith

/-! ## Steps of one unit -/

theorem Moment.seconds_add_le (m : Moment) {δ : Int} (h₀ : 0 ≤ δ) (h : δ ≤ 3600000000000) :
    (m.add δ).seconds ≤ m.seconds + 3602 := by
  have hm := m.nano_lt
  rcases m.add_cases δ with ⟨_, h⟩ | ⟨_, _, h⟩ | ⟨_, _, h⟩ | ⟨_, _, _, hs, hn⟩
  · have hs := seconds_after m.seconds m.nano δ
    rw [h]
    omega
  · have hs := seconds_after m.seconds (m.nano - 1000000000) δ
    rw [h]
    omega
  · omega
  · omega

theorem Moment.checked_isOk {m : Moment} (h : m.inRange = true) : m.checked = .ok m := by
  unfold checked
  rw [if_pos h]

namespace Zoned

theorem resolve_isOk (origin : Zoned) (reading : Moment)
    (h₁ : Moment.minSeconds ≤ reading.seconds - origin.offset)
    (h₂ : reading.seconds - origin.offset < Moment.maxSeconds) :
    ∃ z, origin.resolve reading = .ok z := by
  unfold resolve
  split
  · exact ⟨_, rfl⟩
  · obtain ⟨hlow, hhigh⟩ := reading.add_bounds (-origin.offset)
    have hr : (reading.add (-origin.offset * nanosPerSecond)).inRange = true :=
      Moment.inRange_iff.2 ⟨by omega, by omega⟩
    rw [Moment.checked_isOk hr]
    exact ⟨_, rfl⟩

/-- A moment of a year up to 2990, seen from the zone of a place. -/
structure Near (z : Zoned) : Prop where
  zone : z.zone.Within (-50400) 50400
  inRange : z.utc.inRange = true
  year_le : z.utc.date.year ≤ 2990

theorem Near.bounds {z : Zoned} (h : z.Near) :
    (-50400 ≤ z.offset ∧ z.offset ≤ 50400) ∧ Moment.minSeconds ≤ z.utc.seconds ∧
      z.utc.seconds < Moment.yearStart 2991 :=
  ⟨h.zone.offsetAt _, (Moment.inRange_iff.1 h.inRange).1,
    Moment.year_lt_iff.1 (Int.lt_add_one_of_le h.year_le)⟩

/-- The years in which a step of one unit can end, and the room that is left after them. -/
theorem room : Moment.yearStart 2991 + 200000 < Moment.yearStart 2992 ∧
    Moment.yearStart 2992 < Moment.yearStart 2994 ∧
    Moment.yearStart 2994 + 200000 < Moment.maxSeconds := by
  decide

theorem addNanos_isOk {z : Zoned} (h : z.Near) {δ : Int} (h₀ : 0 < δ) (h₁ : δ ≤ 3600000000000) :
    ∃ r, z.addNanos δ = .ok r := by
  obtain ⟨-, hlow, hhigh⟩ := h.bounds
  obtain ⟨hroom₁, hroom₂, hroom₃⟩ := room
  have hlater := Moment.seconds_le_of_not_lt fun hlt =>
    Moment.not_lt_self _ (Moment.lt_trans hlt (z.utc.add_lt h₀))
  have hle := z.utc.seconds_add_le h₀.le h₁
  have hr : (z.utc.add δ).inRange = true := Moment.inRange_iff.2 ⟨by omega, by omega⟩
  have hlimit : δ.natAbs ≤ maxDuration := by
    unfold maxDuration
    omega
  exact ⟨_, (addNanos_eq z δ).trans (if_pos ⟨hlimit, hr⟩)⟩

theorem readingOutOfRange_ne {α : Type} :
    (.error .readingOutOfRange : Except StepFault α) ≠ .error .outOfRange := by
  intro h
  exact absurd (Except.error.inj h) (by decide)

theorem addDays_one_ne {z : Zoned} (h : z.Near) : z.addDays 1 ≠ .error .outOfRange := by
  obtain ⟨⟨ho₁, ho₂⟩, hlow, hhigh⟩ := h.bounds
  obtain ⟨hroom₁, hroom₂, hroom₃⟩ := room
  unfold addDays checkedReading
  split
  · rename_i hread
    have hread₁ := (Moment.inRange_iff.1 hread).1
    have hzs := z.seconds_reading
    have hs : (z.reading.onClock (1 * secondsPerDay)).seconds = z.reading.seconds + 86400 :=
      Moment.seconds_onClock ..
    have hmoved : (z.reading.onClock (1 * secondsPerDay)).inRange = true :=
      Moment.inRange_iff.2 ⟨by omega, by omega⟩
    obtain ⟨r, hr⟩ := resolve_isOk z (z.reading.onClock (1 * secondsPerDay)) (by omega)
      (by omega)
    simp only [bind, Except.bind, Moment.checked_isOk hmoved, hr]
    intro hc
    cases hc
  · exact readingOutOfRange_ne

theorem addMonths_ne {z : Zoned} (h : z.Near) {amount : Int} (h₀ : 0 < amount) (h₁ : amount ≤ 12) :
    z.addMonths amount ≠ .error .outOfRange := by
  obtain ⟨⟨ho₁, ho₂⟩, hlow, hhigh⟩ := h.bounds
  obtain ⟨hroom₁, hroom₂, hroom₃⟩ := room
  rw [addMonths_eq, if_neg (by unfold maxMonths; omega)]
  unfold checkedReading
  split
  · rename_i hread
    have hzs := z.seconds_reading
    -- the clocks read a year up to 2991, and the step ends two years later at most
    have hyear : z.reading.date.year < 2992 := Moment.year_lt_iff.2 (by omega)
    have hyear₀ := (Moment.year_bounds hread).1
    have hmonth := z.reading.date.month_le
    obtain ⟨date, hdate⟩ : ∃ date, z.reading.date.addMonths amount = some date := by
      refine Date.addMonths_isSome ?_ ?_
      · unfold Date.monthNumber
        omega
      · unfold Date.monthNumber Date.maxYear
        omega
    have hnumber := (Date.addMonths_eq_some hdate).1
    have hlater := Date.toDays_lt_of_addMonths hdate h₀
    have hend : date.year < 2994 := by
      unfold Date.monthNumber at hnumber
      omega
    have hs := seconds_with_date z.reading date
    have hend' : ({ z.reading with date } : Moment).seconds < Moment.yearStart 2994 :=
      Moment.year_lt_iff.1 hend
    simp only [secondsPerDay] at hs hend'
    obtain ⟨r, hr⟩ : ∃ r, z.resolve { z.reading with date } = .ok r := by
      refine resolve_isOk z _ ?_ ?_ <;> dsimp only <;> omega
    simp only [bind, Except.bind, hdate, hr]
    intro hc
    cases hc
  · exact readingOutOfRange_ne

end Zoned

/-- **A step of one unit does not lead out of range.** -/
theorem TimeUnit.shift_one_ne (unit : TimeUnit) {z : Zoned} (h : z.Near) :
    unit.shift z 1 ≠ .error .outOfRange := by
  have hnanos : ∀ {δ : Int}, 0 < δ → δ ≤ 3600000000000 → z.addNanos δ ≠ .error .outOfRange := by
    intro δ h₀ h₁ hc
    obtain ⟨r, hr⟩ := Zoned.addNanos_isOk h h₀ h₁
    rw [hr] at hc
    cases hc
  cases unit with
  | millisecond | second | minute | hour => exact hnanos (by decide) (by decide)
  | day => exact Zoned.addDays_one_ne h
  | month =>
    change z.addMonths 1 ≠ _
    exact Zoned.addMonths_ne h (by decide) (by decide)
  | year =>
    rw [shift_year]
    exact Zoned.addMonths_ne h (by decide) (by decide)

/-! ## The cursor -/

/-- A request for the next date, one unit on, in a year up to 2990. -/
structure CursorRequest.Near (r : CursorRequest) : Prop where
  now : r.now.Near
  candidate_zone : ∀ z, r.candidate = some z → z.zone.Within (-50400) 50400
  candidate_inRange : ∀ z, r.candidate = some z → z.utc.inRange = true
  step_eq : r.step = 1

namespace Cursor

/-- The first use starts at the present or at its candidate. -/
theorem startFor_first {r : CursorRequest} (hr : r.Near) :
    (startFor ⟨r.now, r.now, false⟩ r).zone.Within (-50400) 50400 ∧
      (startFor ⟨r.now, r.now, false⟩ r).utc.inRange = true := by
  unfold startFor
  cases hc : r.candidate with
  | none => exact ⟨hr.now.zone, hr.now.inRange⟩
  | some z => exact ⟨hr.candidate_zone z hc, hr.candidate_inRange z hc⟩

/-- **A use of the cursor that leads out of range leaves it as it was.** A first use does not lead out
    of range, since it starts at the present or before it, or hands out its start. -/
theorem advance_outOfRange {c : Cursor} {r : CursorRequest} (hr : r.Near)
    (h : (c.advance r).1 = .error .outOfRange) : (c.advance r).2 = c := by
  rw [advance_error h]
  cases c with
  | some s => rfl
  | none =>
    exfalso
    rw [advance_eq] at h
    split at h
    · exact absurd h (by simp)
    · rename_i e htarget
      obtain rfl := Except.error.inj h
      obtain ⟨hzone, hrange⟩ := startFor_first hr
      have hopened : opened none r = ⟨r.now, r.now, false⟩ := rfl
      rw [hopened] at htarget
      unfold target at htarget
      split at htarget
      · cases htarget
      · rename_i hle
        rw [hr.step_eq] at htarget
        refine TimeUnit.shift_one_ne r.unit ⟨hzone, hrange, ?_⟩ htarget
        have hstart : (startFor ⟨r.now, r.now, false⟩ r).utc.seconds ≤ r.now.utc.seconds :=
          Moment.seconds_le_of_not_lt hle
        exact Int.le_of_lt_add_one (Moment.year_lt_iff.2 (hstart.trans_lt hr.now.bounds.2.2))

end Cursor

/-! ## Parts of calls -/

namespace Attempt

variable {σ α : Type} {l : Local σ} {s : Shared}

theorem eq_ok_of_ofStep {failure : Failure} {r : Except StepFault α} {a : α} {l' : Local σ}
    {s' : Shared} (h : Succeeds (ofStep failure r : Attempt σ α) l s a l' s') : r = .ok a := by
  unfold ofStep at h
  rcases r with (_ | _) | b
  · exact absurd (Gen.yields_pure_iff.1 h).1 (by simp)
  · exact absurd (succeeds_lift_iff.1 h) Gen.not_yields_crash
  · exact congrArg Except.ok (Except.ok.inj (Gen.yields_pure_iff.1 h).1).symm

theorem outOfRange_of_ofStep {failure e : Failure} {r : Except StepFault α} {l' : Local σ}
    {s' : Shared} (h : Fails (ofStep failure r : Attempt σ α) l s e l' s') :
    r = .error .outOfRange ∧ l' = l ∧ s' = s := by
  rcases r with (_ | _) | a
  · exact ⟨rfl, (Gen.yields_pure_iff.1 h).2⟩
  · exact absurd h (Sure.lift _ _ _ _ _ _)
  · exact absurd h (Sure.pure _ _ _ _ _ _)

theorem Atomic.drawChecked {d : StateM σ (Except Failure α)}
    (h : ∀ e, (d l.source).1 = .error e → (d l.source).2 = l.source) :
    Atomic (drawChecked d) l s := by
  intro e l' s' hfails
  obtain ⟨he, rfl, rfl⟩ := Gen.yields_draw_iff.1 hfails
  rw [h e he.symm]
  exact ⟨rfl, rfl⟩

end Attempt

namespace Function

open Attempt

variable {σ : Type} {l l' : Local σ} {s s' : Shared}

/-! ## Dates -/

theorem within_of_zone {name : Text} {z : Zone} (h : zone name = .ok z) :
    z.Within (-50400) 50400 := by
  unfold zone at h
  split at h
  · obtain rfl := Except.ok.inj h
    exact Zone.named?_within ‹_›
  · exact absurd h (by simp)

/-- A candidate lies in the zone of the request, at a moment that calculations may reach. -/
theorem candidate_spec {c : Call} {p : Pattern} {unit : TimeUnit} {now z : Zoned} {start : Text}
    (h : (candidate c p unit now start).Succeeds l s (some z) l' s') :
    z.zone = now.zone ∧ z.utc.inRange = true := by
  obtain ⟨offset, l₁, s₁, -, h⟩ := succeeds_bind_iff.1 h
  cases offset with
  | some n =>
    dsimp only at h
    split at h
    · exact absurd (Gen.yields_pure_iff.1 h).1 (by simp)
    · rw [map_eq_pure_bind] at h
      obtain ⟨z', l₂, s₂, hstep, h⟩ := succeeds_bind_iff.1 h
      have hz := Option.some.inj (Except.ok.inj (Gen.yields_pure_iff.1 h).1)
      rw [hz]
      exact TimeUnit.zone_shift (eq_ok_of_ofStep hstep)
  | none =>
    obtain ⟨reading, l₂, s₂, -, h⟩ := succeeds_bind_iff.1 h
    split at h
    · rename_i hz
      have heq := Option.some.inj (Except.ok.inj (Gen.yields_pure_iff.1 h).1)
      obtain ⟨h₁, -, -, h₂⟩ := Zoned.ofReading?_eq_some_iff.1 hz
      rw [heq]
      exact ⟨h₁, h₂⟩
    · exact absurd (Gen.yields_pure_iff.1 h).1 (by simp)

/-- A date sequence fails before it uses the cursor, or where the cursor leads out of range. -/
theorem applyDateSequence_atomic {now : Moment} (hnow : now.inRange = true)
    (hyear : now.date.year ≤ 2990) (c : Call) : (applyDateSequence now c).Atomic l s := by
  refine .bind_of_still (.liftM _) fun start _ => ?_
  refine .bind_of_still (.liftM _) fun source _ => ?_
  refine .bind_of_still (.liftM _) fun p _ => ?_
  refine .bind_of_still (.liftM _) fun name _ => ?_
  refine .bind_of_still (.liftM _) fun z hz => ?_
  refine .bind_of_still (.liftM _) fun unit _ => ?_
  refine .bind_of_still (candidate_still ..) fun candidate hcandidate => ?_
  have hwithin : z.Within (-50400) 50400 := within_of_zone (succeeds_liftM_iff.1 hz).1.symm
  have hnear : CursorRequest.Near ⟨⟨now, z⟩, candidate, unit, 1⟩ := by
    refine ⟨⟨hwithin, hnow, hyear⟩, fun y hy => ?_, fun y hy => ?_, rfl⟩
    · dsimp only at hy
      rw [hy] at hcandidate
      rw [(candidate_spec hcandidate).1]
      exact hwithin
    · dsimp only at hy
      rw [hy] at hcandidate
      exact (candidate_spec hcandidate).2
  intro e l' s' h
  rcases fails_bind_iff.1 h with h | ⟨r, l₁, s₁, hr, h⟩
  · exact absurd h (Sure.lift _ _ _ _ _ _)
  · obtain ⟨hadvance, rfl, rfl⟩ := Gen.yields_nextDate_iff.1 (succeeds_lift_iff.1 hr)
    rcases fails_bind_iff.1 h with h | ⟨z, l₂, s₂, -, h⟩
    · obtain ⟨hout, rfl, rfl⟩ := outOfRange_of_ofStep h
      rw [hadvance] at hout
      rw [Cursor.advance_outOfRange hnear hout]
      exact ⟨rfl, rfl⟩
    · exact absurd h (Sure.pure _ _ _ _ _ _)

/-! ## Functions -/

/-- Where the bounds of a draw are no range, nothing is drawn. -/
theorem guarded_error {α : Type} {p : Prop} [Decidable p] {failure e : Failure}
    {d : StateM σ (Except Failure α)} {source : σ} (hd : ∀ source, ∃ a, (d source).1 = .ok a)
    (h : ((if p then pure (.error failure) else d) source).1 = .error e) :
    ((if p then pure (.error failure) else d) source).2 = source := by
  by_cases hp : p
  · rw [if_pos hp]
    rfl
  · rw [if_neg hp] at h
    obtain ⟨a, ha⟩ := hd source
    rw [ha] at h
    cases h

variable [WordSource σ]

theorem applyLetters_atomic (set : Text) (c : Call) : (applyLetters set c).Atomic l s := by
  refine .bind_of_still (.liftM _) fun length _ => Sure.atomic ?_
  dsimp only
  split
  · exact .lift _
  · exact .bind (.lift _) fun t => .pure _

theorem applyDouble_atomic (c : Call) : (applyDouble c).Atomic l s := by
  refine .bind_of_still (.liftM _) fun bounds _ => ?_
  refine .bind_of_sure (.drawChecked fun e => guarded_error fun _ => ⟨_, rfl⟩) fun x => ?_
  split
  · exact .pure _
  · exact .pure _

theorem applySample_atomic {now : Moment} (hnow : now.inRange = true) (source : Text) (c : Call) :
    (applySample now source c).Atomic l s := by
  refine .bind_of_still (.liftM _) fun p _ => ?_
  exact .bind_of_sure (.drawChecked fun e => Pattern.sample_error hnow) fun t => .pure _

theorem applyChoice_atomic {now : Moment} {self : Text → Gen σ Value} (c : Call) :
    (apply now self choice c).Atomic l s := by
  intro e l' s' h
  rcases fails_bind_iff.1 h with h | ⟨v, l₁, s₁, hv, h⟩
  · exact absurd h (Sure.lift _ _ _ _ _ _)
  · obtain ⟨hdraw, rfl, rfl⟩ := Gen.yields_draw_iff.1 (succeeds_lift_iff.1 hv)
    cases v with
    | some v => exact absurd h (Sure.pure _ _ _ _ _ _)
    | none =>
      -- there is nothing to choose from, so that nothing was drawn
      rcases hvalues : c.arguments.map choiceValue with _ | ⟨first, rest⟩
      · rw [hvalues] at h
        exact (Gen.yields_pure_iff.1 h).2
      · obtain ⟨w, -, hw⟩ := Draw.choose_mem (List.cons_ne_nil first rest) l.source
        rw [hvalues, hw] at hdraw
        exact absurd hdraw (by simp)

end Function

/-! ## Templates inside calls -/

section

variable {σ : Type} {l l' : Local σ} {s s' : Shared}

theorem Gen.length_of_repeatFrom {α : Type} {g : Gen σ α} : ∀ {n : Nat} {before as : List α}
    {l l' : Local σ} {s s' : Shared}, (Gen.repeatFrom g n before).Yields l s as l' s' →
      as.length = n + before.length
  | 0, before, as, l, l', s, s', h => by
    obtain ⟨rfl, -, -⟩ := Gen.yields_pure_iff.1 h
    simp
  | n + 1, before, as, l, l', s, s', h => by
    obtain ⟨a, l₁, s₁, -, h⟩ := Gen.yields_bind_iff.1 h
    have := length_of_repeatFrom h
    simp only [List.length_cons] at this
    omega

/-- An object that is walked no times changes nothing, and otherwise there is a first line. -/
theorem Walk.events_eq_nil {leaf : Json → Gen σ Value} {members : Json.Members} {count : Nat}
    (h : (Walk.events leaf (.obj members) count).Yields l s [] l' s') : l' = l ∧ s' = s := by
  obtain ⟨objects, l₁, s₁, hobjects, h⟩ := Gen.yields_bind_iff.1 h
  obtain ⟨hnil, rfl, rfl⟩ := Gen.yields_pure_iff.1 h
  obtain ⟨_, l₂, s₂, hreserve, hobjects⟩ := Gen.yields_bind_iff.1 hobjects
  have hlen := Gen.length_of_repeatFrom hobjects
  rw [List.map_eq_nil_iff.1 hnil.symm] at hlen
  obtain rfl : count = 0 := by simpa using hlen.symm
  obtain ⟨-, rfl, rfl⟩ := Gen.yields_pure_iff.1 hobjects
  exact (Gen.yields_pure_iff.1 hreserve).2

end

namespace Function

open Attempt

variable {σ : Type} {l : Local σ} {s : Shared}

theorem applyInline_atomic (self : Text → Gen σ Value) (c : Call) :
    (applyInline self c).Atomic l s := by
  refine .bind_of_still (.liftM _) fun i _ => ?_
  dsimp only
  refine .bind_of_still .get fun outer houter => ?_
  obtain ⟨rfl, -, -⟩ := Gen.yields_get_iff.1 (succeeds_lift_iff.1 houter)
  intro e l' s' h
  rcases fails_bind_iff.1 h with hlines | ⟨lines, l₁, s₁, hlines, hfirst⟩
  · exact absurd hlines (Sure.lift _ _ _ _ _ _)
  · obtain ⟨l₂, hevents, rfl⟩ := Gen.yields_withNested_iff.1 (succeeds_lift_iff.1 hlines)
    cases lines with
    | cons line rest => exact absurd hfirst (Sure.pure _ _ _ _ _ _)
    | nil =>
      obtain ⟨rfl, rfl⟩ := Walk.events_eq_nil hevents
      exact (Gen.yields_pure_iff.1 hfirst).2

/-! ## All functions -/

variable [WordSource σ]

/-- **No function fails after it has drawn, counted or moved the cursor.** -/
theorem apply_atomic {now : Moment} (hnow : now.inRange = true) (hyear : now.date.year ≤ 2990)
    (self : Text → Gen σ Value) (f : Function) (c : Call) : (f.apply now self c).Atomic l s := by
  cases f with
  | choice => exact applyChoice_atomic c
  | inlineTemplate => exact applyInline_atomic self c
  | int =>
    refine .bind_of_still (.liftM _) fun bounds _ => ?_
    exact .bind_of_sure (.drawChecked fun e => guarded_error fun _ => ⟨_, rfl⟩) fun n => .pure _
  | long =>
    refine .bind_of_still (.liftM _) fun bounds _ => ?_
    exact .bind_of_sure (.drawChecked fun e => guarded_error fun _ => ⟨_, rfl⟩) fun n => .pure _
  | double => exact applyDouble_atomic c
  | dateSequence => exact applyDateSequence_atomic hnow hyear c
  | dateOffset => exact (applyDateOffset_still now c).atomic
  | dateTime | date | isoDateTime => exact applySample_atomic hnow _ c
  | alpha | alphanumeric => exact applyLetters_atomic _ c
  | sequence =>
    exact .bind_of_still (.liftM _) fun seed _ => Sure.atomic (.bind (.lift _) fun n => .pure _)
  | quoted | upper | lower | concat | uuid | bool =>
    exact Sure.atomic (.bind (.lift _) fun v => .pure _)

end Function

/-! ## Texts -/

variable {σ : Type} [WordSource σ]

/-- **A call that fails leaves nothing behind but two counts.** From 2025 to 2990, a text whose call
    fails is literal text. The random source, the repetition of arrays, the counter and the cursor
    are as they were; the function was used once more, and there is one more fallback. -/
theorem evaluateText_fallback {now : Moment} (hfirst : 2025 ≤ now.date.year)
    (hlast : now.date.year ≤ 2990) {t : Text} {f : Function} {c : Call}
    (hcall : dispatch? t = some (f, c)) {l l₁ : Local σ} {s s₁ : Shared} {e : Failure}
    (hfails : (f.apply now (evaluateText now) c).Fails
      { l with report := l.report.recordUse c.name } s e l₁ s₁) :
    ∃ report, (evaluateText now t).Yields l s (.text (Text.stripQuotes t)) { l with report } s ∧
      report = { l.report with
        usage := l.report.usage.add c.name 1
        fallbacks := l.report.fallbacks + 1 } ∧
      (l.report.usage.Ordered → ∀ name, report.usage.count name =
        l.report.usage.count name + if name = c.name then 1 else 0) := by
  have hnow : now.inRange = true := by
    unfold Moment.inRange Date.inRange
    simp only [Bool.and_eq_true, decide_eq_true_eq]
    unfold Date.minYear Date.maxYear
    omega
  obtain ⟨rfl, rfl⟩ := Function.apply_atomic hnow hlast _ f c e l₁ s₁ hfails
  refine ⟨_, ?_, rfl, fun hordered => Tally.count_add c.name 1 hordered⟩
  rw [evaluateText_of_dispatch? hcall]
  refine Gen.yields_bind_iff.2 ⟨(), _, _, Gen.yields_note_iff.2 ⟨rfl, rfl⟩, ?_⟩
  refine Gen.yields_bind_iff.2 ⟨.error e, _, _, hfails, ?_⟩
  exact Gen.yields_bind_iff.2
    ⟨(), _, _, Gen.yields_note_iff.2 ⟨rfl, rfl⟩, Gen.yields_pure_iff.2 ⟨rfl, rfl, rfl⟩⟩

/-- The start of 2026. -/
def newYear : Moment := .midnight { Date.epoch with year := 2026, day_le := by decide }

/-- An integer from an empty range, in the middle of a run. -/
theorem evaluateText_fallback_emptyRange :
    ∃ report, (evaluateText newYear "int(5, 3)".toList).Yields
      (⟨⟨[7], 4⟩, 3, {}⟩ : Local Replay) ⟨⟨12, true⟩, none⟩
      (.text (Text.stripQuotes "int(5, 3)".toList)) ⟨⟨[7], 4⟩, 3, report⟩ ⟨⟨12, true⟩, none⟩ := by
  have hcall : dispatch? "int(5, 3)".toList =
      some (.int, ⟨"int".toList, "5, 3".toList, ["5".toList, "3".toList]⟩) := by decide
  obtain ⟨report, h, -⟩ := evaluateText_fallback (show 2025 ≤ newYear.date.year by decide)
    (by decide) hcall (l := (⟨⟨[7], 4⟩, 3, {}⟩ : Local Replay)) (s := ⟨⟨12, true⟩, none⟩) rfl
  exact ⟨report, h⟩

end Recordsmith
