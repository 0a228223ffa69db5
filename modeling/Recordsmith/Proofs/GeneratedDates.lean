import Recordsmith.Proofs.Composition
import Recordsmith.Proofs.LineScanning
import Recordsmith.Proofs.PatternRoundTrip
import Recordsmith.Proofs.Sampling

/-!
# Random dates are read back

A call that draws a date between two bounds gives a text that its pattern reads as a date between
them.

* `PlainUpTo`: a reader of numbers passes over digits, signs and white space only, so that
  `Pattern.plain_of_parse`: a text that is read by numbers and plain literals has no quotes,
  brackets or commas;
* `evaluateText_sample`: the call counts one use, no fallback, and writes what it draws;
* `evaluateText_between`: what it writes lies between its bounds, as its pattern reads it.
-/

namespace Recordsmith

open Scanner (Plain)

/-! ## What readers of numbers pass over -/

/-- What stands in a text before its rest is plain text for a scan of arguments. -/
def PlainUpTo (t rest : Text) : Prop := ∀ c ∈ t, Plain c ∨ c ∈ rest

namespace PlainUpTo

variable {t rest after : Text}

theorem refl (t : Text) : PlainUpTo t t := fun _ hc => Or.inr hc

theorem trans (h : PlainUpTo t rest) (h' : PlainUpTo rest after) : PlainUpTo t after :=
  fun c hc => (h c hc).elim Or.inl (h' c)

theorem cons {c : Char} (hc : Plain c) (h : PlainUpTo t rest) : PlainUpTo (c :: t) rest :=
  List.forall_mem_cons.2 ⟨Or.inl hc, h⟩

theorem trimStart (t : Text) : PlainUpTo t (Text.trimStart t) := by
  intro c hc
  rw [← List.takeWhile_append_dropWhile (p := Text.isBlank) (l := t)] at hc
  rcases List.mem_append.1 hc with hc | hc
  · exact Or.inl (Scanner.plain_of_isBlank (List.mem_takeWhile_imp hc))
  · exact Or.inr hc

theorem digits {width n m : Nat} (h : readDateDigits width n t = .ok (m, rest)) :
    PlainUpTo t rest := by
  fun_induction readDateDigits width n t with
  | case1 | case2 | case3 => cases h; exact .refl _
  | case4 => cases h
  | case5 width n c cs d hd hle ih =>
    have hdigit : (Text.digit? c).isSome = true := by rw [hd]; rfl
    have hplain := Scanner.plain_of_none (p := fun c => (Text.digit? c).isSome) (by decide) hdigit
    exact .cons hplain (ih h)

theorem number {width n : Nat} (h : readDateNumber width t = .ok (n, rest)) :
    PlainUpTo t rest := by
  unfold readDateNumber at h
  split at h
  · cases h
  · split at h
    · exact digits h
    · cases h

theorem year {year : Int} (h : readDateYear t = .ok (year, rest)) : PlainUpTo t rest := by
  unfold readDateYear at h
  split at h
  all_goals
    obtain ⟨⟨n, rest'⟩, hread, heq⟩ := map_eq_ok h
    cases heq
  · exact .cons (by decide) (number hread)
  · exact .cons (by decide) (number hread)
  · exact number hread

theorem fraction {width n : Nat} (h : readDateFraction width t = .ok (n, rest)) :
    PlainUpTo t rest := by
  unfold readDateFraction at h
  split at h
  · cases h
  · obtain ⟨⟨m, rest'⟩, hread, h⟩ := bind_eq_ok h
    dsimp only at h
    split at h
    · cases h
      exact number hread
    · cases h

theorem word {literal : Text} (hl : ∀ c ∈ literal, Plain c)
    (h : Text.dropWord? literal t = some rest) : PlainUpTo t rest := by
  fun_induction Text.dropWord? literal t with
  | case1 => cases h; exact .refl _
  | case2 w ws cs ih =>
    obtain ⟨hw, hws⟩ := List.forall_mem_cons.1 hl
    exact .cons hw (ih hws h)
  | case3 => cases h
  | case4 => cases h

theorem literal {literal : Text} (hl : ∀ c ∈ literal, Plain c)
    (h : readDateLiteral literal t = .ok rest) : PlainUpTo t rest := by
  unfold readDateLiteral at h
  split at h
  · cases h
  · split at h
    · cases h
      exact word hl ‹_›
    · cases h

end PlainUpTo

/-- The field is written as a number. -/
def Field.isNumber : Field → Bool
  | .year | .yearOfCentury | .month _ | .day _ | .dayOfYear | .hour _ | .hourOfHalf _ | .minute _ |
    .second _ | .milliseconds | .microseconds | .nanoseconds => true
  | .monthAbbreviated | .monthName | .half | .weekdayAbbreviated | .weekdayName | .offset |
    .offsetWithColon | .zoneAbbreviation => false

/-- The item is a number, or text that a scan of arguments passes over. -/
def Item.isPlain : Item → Bool
  | .field f => f.isNumber
  | .literal t => t.all fun c => decide (Plain c)
  | .percent | .space _ => true
  | .invalid => false

theorem Field.plainUpTo_of_scan {f : Field} (hf : f.isNumber = true) {t rest : Text}
    {tells : List (Slot × Int)} (h : f.scan t = .ok (tells, rest)) : PlainUpTo t rest := by
  have hnumber : ∀ {α : Type} (value : α → Int) {x : Except DateFault (α × Text)} {start : Text},
      PlainUpTo t start → (∀ a rest, x = .ok (a, rest) → PlainUpTo start rest) →
      (x >>= fun a => f.ofNumber (value a.1) >>= fun tells => pure (tells, a.2)) =
        .ok (tells, rest) → PlainUpTo t rest := by
    intro α value x start hstart hread h
    obtain ⟨⟨a, rest'⟩, hx, h⟩ := bind_eq_ok h
    obtain ⟨told, -, h⟩ := bind_eq_ok h
    cases h
    exact hstart.trans (hread a _ hx)
  have htrim := PlainUpTo.trimStart t
  cases f with
  | year => exact hnumber (fun n : Int => n) htrim (fun _ _ hx => .year hx) h
  | yearOfCentury | month | day | dayOfYear | hour | hourOfHalf | minute | second =>
    exact hnumber (fun n : Nat => (n : Int)) htrim (fun _ _ hx => .number hx) h
  | milliseconds =>
    exact hnumber (fun n : Nat => (n : Int) * 1000000) (.refl t)
      (fun _ _ hx => .fraction hx) h
  | microseconds =>
    exact hnumber (fun n : Nat => (n : Int) * 1000) (.refl t)
      (fun _ _ hx => .fraction hx) h
  | nanoseconds =>
    exact hnumber (fun n : Nat => (n : Int)) (.refl t) (fun _ _ hx => .fraction hx) h
  | monthAbbreviated | monthName | half | weekdayAbbreviated | weekdayName | offset |
      offsetWithColon | zoneAbbreviation => exact absurd hf Bool.false_ne_true

theorem plain_of_scanItems {items : List Item} (hitems : ∀ i ∈ items, i.isPlain = true) {t : Text}
    {tells : List (Slot × Int)} (h : scanItems items t = .ok tells) : ∀ c ∈ t, Plain c := by
  induction items generalizing t tells with
  | nil =>
    cases t with
    | nil => exact List.forall_mem_nil _
    | cons c cs => cases h
  | cons item items ih =>
    obtain ⟨hitem, hitems⟩ := List.forall_mem_cons.1 hitems
    -- what an item leaves is plain by induction, and so is what it passes over
    have hrest : ∀ {rest : Text} {tells}, PlainUpTo t rest → scanItems items rest = .ok tells →
        ∀ c ∈ t, Plain c :=
      fun hpassed h c hc => (hpassed c hc).elim id (ih hitems h c)
    cases item with
    | field f =>
      obtain ⟨⟨now, rest⟩, hnow, h⟩ := bind_eq_ok h
      obtain ⟨later, hlater, -⟩ := bind_eq_ok h
      exact hrest (Field.plainUpTo_of_scan hitem hnow) hlater
    | literal literal =>
      obtain ⟨rest, hread, h⟩ := bind_eq_ok h
      have hplain : ∀ c ∈ literal, Plain c := by simpa [Item.isPlain] using hitem
      exact hrest (.literal hplain hread) h
    | percent =>
      obtain ⟨rest, hread, h⟩ := bind_eq_ok h
      have hplain : ∀ c ∈ ['%'], Plain c := List.forall_mem_singleton.2 (by decide)
      exact hrest (.literal hplain hread) h
    | space blanks => exact hrest (.trimStart t) h
    | invalid => cases h

/-- **A text that a pattern of numbers reads is plain text** for a scan of arguments. -/
theorem Pattern.plain_of_parse {p : Pattern} (hp : ∀ i ∈ p.items, i.isPlain = true) {t : Text}
    {m : Moment} (h : p.parse t = .ok m) : ∀ c ∈ t, Plain c := by
  obtain ⟨parts, hparts, -⟩ := parse_eq_ok_iff.1 h
  obtain ⟨tells, hscan, -⟩ := DateParts.readItems_eq_ok_iff.1 hparts
  exact plain_of_scanItems hp hscan

/-- Two simple texts are the arguments of a call as they are. -/
theorem splitArguments_pair {a b : Text} (ha : a.Simple) (hb : b.Simple) :
    (splitArguments (a ++ ", ".toList ++ b)).map Text.stripQuotes = [a, b] := by
  have hcut : splitArguments (a ++ ", ".toList ++ b) = [a, b] := by
    simpa using splitArguments_of_whole ha.whole ha.trim_eq hb (List.forall_mem_nil _)
  rw [hcut, List.map_cons, List.map_singleton, ha.stripQuotes_eq, hb.stripQuotes_eq]

/-! ## Draws between two bounds -/

/-- Two trimmed texts that a pattern reads as moments in their order. -/
structure Bounds (source a b : Text) (min max : Moment) : Prop where
  trim_min : Text.trim a = a
  trim_max : Text.trim b = b
  parse_min : Pattern.parseBy source a = .ok min
  parse_max : Pattern.parseBy source b = .ok max
  le : min ≤ max

/-- In every state of a worker, the text is evaluated to a text that the pattern reads as a moment
    from `min` to `max`. The function is used once more, there is no fallback, and nothing else
    changes but the random source. -/
def GivesBetween (source name t : Text) (min max : Moment) : Prop :=
  ∀ {σ : Type} [WordSource σ] (now : Moment) (l : Local σ) (s : Shared), ∃ written drawn,
    (evaluateText now t).Yields l s (.text written)
      { l with source := drawn, report := l.report.recordUse name } s ∧
    ∃ m, Pattern.parseBy source written = .ok m ∧ min ≤ m ∧ m ≤ max

/-- **A call that draws between two bounds writes what it draws**, and counts no fallback. -/
theorem evaluateText_sample {name source a b : Text} {min max : Moment} {f : Function}
    {p : Pattern} (hn : Call.isName name = true) (hf : Function.named? name = some f)
    (hp : Pattern.compile source = .ok p) (hplain : ∀ i ∈ p.items, i.isPlain = true)
    (h : Bounds source a b min max) {σ : Type} [WordSource σ] (now : Moment)
    (happly : ∀ (self : Text → Gen σ Value) (c : Call),
      f.apply now self c = Function.applySample now source c) (l : Local σ) (s : Shared) :
    ∃ m drawn, Moment.Sampled min max m ∧
      (evaluateText now (Call.write name (a ++ ", ".toList ++ b))).Yields l s
        (.text (p.render ⟨m, .utc⟩))
        { l with source := drawn, report := l.report.recordUse name } s := by
  have hmin : p.parse a = .ok min := (Pattern.parseBy_eq hp a).symm.trans h.parse_min
  have hmax : p.parse b = .ok max := (Pattern.parseBy_eq hp b).symm.trans h.parse_max
  have hbounds := splitArguments_pair ⟨Pattern.plain_of_parse hplain hmin, h.trim_min⟩
    ⟨Pattern.plain_of_parse hplain hmax, h.trim_max⟩
  have hrange : p.range now [a, b] = .ok (min, max) := by
    simp only [Pattern.range, hmin, hmax, ok_bind]
    rfl
  obtain ⟨m, hm, hsampled⟩ := (Moment.sample_spec (fun _ _ _ => rfl) h.le
    (Pattern.inRange_of_parse hmin) (Pattern.inRange_of_parse hmax)).2 l.source
  have hdraw : (p.sample now [a, b] l.source).1 = .ok (p.render ⟨m, .utc⟩) := by
    have hmap : (p.sample now [a, b] l.source).1 =
        ((Moment.sample min max l.source).1.map fun m => p.render ⟨m, .utc⟩) := by
      rw [Pattern.sample, hrange]
      rfl
    rw [hmap, hm]
    rfl
  refine ⟨m, (p.sample now [a, b] l.source).2, hsampled, ?_⟩
  refine evaluateText_of_succeeds (dispatch?_write hn hf _) ?_
  rw [happly, Function.applySample, hp, Attempt.ok_bind, hbounds]
  refine Attempt.succeeds_bind_iff.2
    ⟨_, _, _, Attempt.succeeds_drawChecked_iff.2 ⟨hdraw.symm, rfl, rfl⟩, ?_⟩
  exact Gen.yields_pure_iff.2 ⟨rfl, rfl, rfl⟩

/-! ## Moments between two bounds -/

namespace Moment

variable {min max m : Moment}

theorem nano_eq_zero (hleap : m.inLeapSecond = false) (h : m.part .nano = 0) : m.nano = 0 := by
  have hlt := inLeapSecond_eq_false_iff.1 hleap
  simp only [part, nanosPerSecond] at h
  omega

/-- From a whole second on, what is drawn is not before the lower bound. -/
theorem Sampled.between_of_whole (h : Sampled min max m) (hmin : min.nano = 0) :
    min ≤ m ∧ m ≤ max := by
  have hle := h.min_le
  have hle' := h.le_max
  have hnano := h.nano_eq
  constructor <;> rw [le_iff] <;> omega

/-- Of what is drawn between two midnights, the midnight lies between them as well. -/
theorem Sampled.midnight_between {first last : Date}
    (h : Sampled (midnight first) (midnight last) m) :
    midnight first ≤ midnight m.date ∧ midnight m.date ≤ midnight last := by
  have hle := h.min_le
  have hle' := h.le_max
  have hlow := m.toDays_mul_le_seconds
  have hhigh := m.seconds_lt_toDays_mul
  rw [seconds_midnight] at hle hle'
  constructor <;> rw [le_iff] <;> simp only [seconds_midnight, nano_midnight] <;> omega

end Moment

/-- A text that a pattern reads without a time of day is read as midnight. -/
theorem Pattern.eq_midnight_of_parse {p : Pattern} (hp : ¬ p.TellsTime) {t : Text} {m : Moment}
    (h : p.parse t = .ok m) : m = .midnight m.date := by
  obtain ⟨parts, -, -, htime⟩ := parse_eq_ok_iff.1 h
  rwa [if_neg hp] at htime

/-! ## Dates that are read back -/

/-- Dates are read as midnights, and so is what is drawn between them. -/
theorem Bounds.givesBetween_date {a b : Text} {min max : Moment}
    (h : Bounds Pattern.dashedDate a b min max) :
    GivesBetween Pattern.dashedDate "date".toList
      (Call.write "date".toList (a ++ ", ".toList ++ b)) min max := by
  intro σ _ now l s
  have hp : Pattern.compile Pattern.dashedDate = .ok Pattern.dateOnly := rfl
  have hname : Function.named? "date".toList = some .date := rfl
  have hmidnight : ∀ {t m}, Pattern.parseBy Pattern.dashedDate t = .ok m →
      m = .midnight m.date := by
    intro t m ht
    rw [Pattern.parseBy_eq hp] at ht
    exact Pattern.eq_midnight_of_parse (by decide) ht
  obtain ⟨m, drawn, hm, hyields⟩ :=
    evaluateText_sample rfl hname hp (by decide) h now (fun _ _ => rfl) l s
  refine ⟨_, drawn, hyields, .midnight m.date, ?_, ?_⟩
  · rw [Pattern.parseBy_render hp Pattern.complete_dateOnly hm.inRange, if_neg (by decide)]
  · rw [hmidnight h.parse_min, hmidnight h.parse_max] at hm ⊢
    exact hm.midnight_between

/-- Whole seconds are read as they were drawn. -/
theorem Bounds.givesBetween_dateTime {a b : Text} {min max : Moment}
    (h : Bounds Pattern.dashedDateTime a b min max) (hleap : min.inLeapSecond = false) :
    GivesBetween Pattern.dashedDateTime "datetime:simple".toList
      (Call.write "datetime:simple".toList (a ++ ", ".toList ++ b)) min max := by
  intro σ _ now l s
  have hp : Pattern.compile Pattern.dashedDateTime = .ok Pattern.full := rfl
  have hname : Function.named? "datetime:simple".toList = some .dateTime := rfl
  have hparse : Pattern.full.parse a = .ok min := (Pattern.parseBy_eq hp a).symm.trans h.parse_min
  have hwhole := Pattern.part_nano_of_parse (by decide) hparse
  obtain ⟨m, drawn, hm, hyields⟩ :=
    evaluateText_sample rfl hname hp (by decide) h now (fun _ _ => rfl) l s
  refine ⟨_, drawn, hyields, m, ?_, ?_⟩
  · rw [Pattern.parseBy_render hp Pattern.complete_full hm.inRange, if_pos (by decide),
      Moment.truncate_carry_of_whole hm.nano_eq]
  · exact hm.between_of_whole (Moment.nano_eq_zero hleap hwhole)

/-- **Random dates are read back between their bounds.** For any two bounds that the pattern of the
    function reads, in their order, `date` and `datetime:simple` end with a text that the same
    pattern reads as a moment between them, and count no fallback. The lower bound of
    `datetime:simple` must not be a leap second, which is never drawn. -/
theorem evaluateText_between {a b : Text} {min max : Moment} :
    (Bounds Pattern.dashedDate a b min max →
      GivesBetween Pattern.dashedDate "date".toList
        (Call.write "date".toList (a ++ ", ".toList ++ b)) min max) ∧
    (Bounds Pattern.dashedDateTime a b min max → min.inLeapSecond = false →
      GivesBetween Pattern.dashedDateTime "datetime:simple".toList
        (Call.write "datetime:simple".toList (a ++ ", ".toList ++ b)) min max) :=
  ⟨Bounds.givesBetween_date, Bounds.givesBetween_dateTime⟩

/-- The last day of February of the leap year 12024. -/
def farLeapDay : Date := ⟨12024, 2, 29, by decide, by decide, by decide, by decide⟩

/-- Years of more than four digits, before the year 0 and after the year 9999; and an upper bound in
    a leap second. -/
theorem evaluateText_between_ides :
    (Bounds Pattern.dashedDate "-0044-03-15".toList "+12024-02-29".toList
        (.midnight Pattern.ides.date) (.midnight farLeapDay) ∧
      GivesBetween Pattern.dashedDate "date".toList "date(-0044-03-15, +12024-02-29)".toList
        (.midnight Pattern.ides.date) (.midnight farLeapDay)) ∧
    (Bounds Pattern.dashedDateTime "-0044-03-15 00:00:00".toList "-0044-03-15 23:59:60".toList
        (.midnight Pattern.ides.date) (Pattern.ides.truncate 1000000000) ∧
      (Moment.midnight Pattern.ides.date).inLeapSecond = false ∧
      GivesBetween Pattern.dashedDateTime "datetime:simple".toList
        "datetime:simple(-0044-03-15 00:00:00, -0044-03-15 23:59:60)".toList
        (.midnight Pattern.ides.date) (Pattern.ides.truncate 1000000000)) := by
  have hdate : Bounds Pattern.dashedDate "-0044-03-15".toList "+12024-02-29".toList
      (.midnight Pattern.ides.date) (.midnight farLeapDay) :=
    ⟨rfl, rfl, rfl, rfl, by decide⟩
  have htime : Bounds Pattern.dashedDateTime "-0044-03-15 00:00:00".toList
      "-0044-03-15 23:59:60".toList (.midnight Pattern.ides.date)
      (Pattern.ides.truncate 1000000000) :=
    ⟨rfl, rfl, rfl, rfl, by decide⟩
  exact ⟨⟨hdate, evaluateText_between.1 hdate⟩, htime, rfl, evaluateText_between.2 htime rfl⟩

end Recordsmith
