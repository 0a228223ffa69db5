import Recordsmith.Calendar.Sample
import Recordsmith.Proofs.DateResolution

/-!
# Random dates

* `Draw.Always` are the properties that a draw has whatever its source yields, and `Draw.Agrees`
  compares two draws beside;
* `Draw.spread_lt`: a bounded draw stays below its bound, also where it corrects its bias;
* `Edges.Holds.between_iff`: a field is drawn among its natural values with which the fields drawn
  so far stay between those of the bounds;
* `Moment.sample_spec`: between two moments in their order that calculations may reach, a draw finds
  a moment of the calendar, and never draws a field between bounds in the wrong order;
* `Moment.sample_error`: only bounds in the wrong order are refused, before anything is drawn.
-/

namespace Recordsmith

variable {σ : Type}

/-! ## Bounded draws -/

namespace Draw

/-- The draw has a property, whatever its source yields. -/
def Always {α : Type} (d : StateM σ α) (P : α → Prop) : Prop := ∀ s, P (d s).1

theorem Always.pure {α : Type} {P : α → Prop} {a : α} (h : P a) :
    Always (pure a : StateM σ α) P :=
  fun _ => h

theorem Always.bind {α β : Type} {P : α → Prop} {Q : β → Prop} {d : StateM σ α}
    {f : α → StateM σ β} (hd : Always d P) (hf : ∀ a, P a → Always (f a) Q) :
    Always (d >>= f) Q :=
  fun s => hf (d s).1 (hd s) (d s).2

/-- **A bounded draw stays below its bound.** With the correction, it is the high half of the
    product of the bound and the number whose digits are the two words. -/
theorem spread_lt {modulus bound : Nat} {word : StateM σ Nat} (hb : 0 < bound)
    (hm : 0 < modulus) (hw : Always word (· < modulus)) :
    Always (spread modulus bound word) (· < bound) := by
  have hhigh : ∀ n, n < modulus → n * bound / modulus < bound := by
    intro n hn
    rw [Nat.div_lt_iff_lt_mul hm, Nat.mul_comm bound]
    exact Nat.mul_lt_mul_of_pos_right hn hb
  refine Always.bind hw fun first hfirst => ?_
  dsimp only
  split
  · refine Always.bind hw fun second hsecond => Always.pure ?_
    have hx := hhigh second hsecond
    generalize second * bound / modulus = x at hx
    rw [Nat.add_comm, ← Nat.add_mul_div_left _ _ hm, Nat.add_right_comm, Nat.mod_add_div,
      Nat.div_lt_iff_lt_mul hm, Nat.mul_comm bound]
    calc first * bound + x < (first + 1) * bound := by rw [Nat.succ_mul]; omega
      _ ≤ modulus * bound := Nat.mul_le_mul_right bound hfirst
  · exact Always.pure (hhigh first hfirst)

/-- A number that lies as far above a lower bound as a bounded draw tells. -/
theorem between_spec {modulus : Nat} {word : StateM σ Nat} (hm : 0 < modulus)
    (hw : Always word (· < modulus)) {low high : Int} (h : low ≤ high) :
    Always (do let above ← spread modulus (high - low + 1).toNat word; pure (low + (above : Int)))
      fun n => low ≤ n ∧ n ≤ high := by
  refine Always.bind (spread_lt ?_ hm hw) fun above habove => ?_
  · omega
  · exact Always.pure ⟨by omega, by omega⟩

/-- The draw is the same as another one, which has a property whatever its source yields. -/
def Agrees {α : Type} (d d' : StateM σ α) (P : α → Prop) : Prop := d = d' ∧ Always d' P

theorem Agrees.pure {α : Type} {P : α → Prop} {a : α} (h : P a) :
    Agrees (pure a : StateM σ α) (pure a) P :=
  ⟨rfl, Always.pure h⟩

theorem Agrees.bind {α β : Type} {P : α → Prop} {Q : β → Prop} {d d' : StateM σ α}
    {f f' : α → StateM σ β} (hd : Agrees d d' P) (hf : ∀ a, P a → Agrees (f a) (f' a) Q) :
    Agrees (d >>= f) (d' >>= f') Q := by
  obtain ⟨rfl, hd⟩ := hd
  exact ⟨funext fun s => congrFun (hf (d s).1 (hd s)).1 (d s).2,
    Always.bind hd fun a ha => (hf a ha).2⟩

variable [WordSource σ]

theorem word32_lt : Always (do pure (← word32).toNat : StateM σ Nat) (· < twoTo 32) :=
  fun s => UInt32.toNat_lt (word32 s).1

theorem word64_lt : Always (do pure (← word64).toNat : StateM σ Nat) (· < twoTo 64) :=
  fun s => UInt64.toNat_lt (word64 s).1

theorem natBetween_spec {low high : Nat} (h : low ≤ high) :
    Always (natBetween low high : StateM σ Nat) fun n => low ≤ n ∧ n ≤ high := by
  have habove : ∀ {d : StateM σ Nat}, Always d (· < high - low + 1) →
      Always (do let above ← d; pure (low + above)) fun n => low ≤ n ∧ n ≤ high := by
    intro d hd
    exact Always.bind hd fun above habove => Always.pure ⟨by omega, by omega⟩
  unfold natBetween
  split
  · exact habove (spread_lt (Nat.succ_pos _) (by decide) word32_lt)
  · exact habove (spread_lt (Nat.succ_pos _) (by decide) word64_lt)

theorem between32_spec {low high : Int} (h : low ≤ high) :
    Always (between32 low high : StateM σ Int) fun n => low ≤ n ∧ n ≤ high :=
  between_spec (by decide) word32_lt h

theorem between64_spec {low high : Int} (h : low ≤ high) :
    Always (between64 low high : StateM σ Int) fun n => low ≤ n ∧ n ≤ high :=
  between_spec (by decide) word64_lt h

/-- A choice among values finds one of them. -/
theorem choose_mem {α : Type} {values : List α} (h : values ≠ []) :
    Always (choose values : StateM σ (Option α)) fun a => ∃ v ∈ values, a = some v := by
  cases values with
  | nil => exact absurd rfl h
  | cons v rest =>
    refine Always.bind (natBetween_spec (Nat.zero_le _)) fun index hindex => Always.pure ?_
    have hlt : index < (v :: rest).length := by
      have := hindex.2
      simp only [List.length_cons] at this ⊢
      omega
    exact ⟨_, List.getElem_mem hlt, List.getElem?_eq_getElem hlt⟩

end Draw

/-! ## Fields -/

variable [WordSource σ]

/-- The rank of a row of fields in the order of the calendar, from the rank of the fields before the
    last one. All fields but the year are less than 64. -/
def extendRank (rank : Int) (field : Nat) : Int := rank * 64 + field

theorem le_of_extendRank_le {a b : Int} {m n : Nat} (hm : m < 64) (hn : n < 64)
    (h : extendRank a m ≤ extendRank b n) : a ≤ b := by
  unfold extendRank at h
  omega

namespace Edges

/-- The row of fields that is drawn so far lies between those of the bounds, and an edge is kept
    exactly by a row that lies on it. -/
structure Holds (e : Edges) (min row max : Int) : Prop where
  min_le : min ≤ row
  le_max : row ≤ max
  onMin_iff : e.onMin = true ↔ row = min
  onMax_iff : e.onMax = true ↔ row = max

/-- The natural bounds of a field. The values at the bounds of the draw are natural ones where their
    edges are kept. -/
structure Natural (e : Edges) (min max low high : Nat) : Prop where
  le : low ≤ high
  high_lt : high < 64
  min_lt : min < 64
  max_lt : max < 64
  onMin : e.onMin = true → low ≤ min ∧ min ≤ high
  onMax : e.onMax = true → low ≤ max ∧ max ≤ high

/-- The lower bound of the next field. -/
def lower (e : Edges) (min low : Nat) : Nat := if e.onMin then min else low

/-- The upper bound of the next field. -/
def upper (e : Edges) (max high : Nat) : Nat := if e.onMax then max else high

/-- The edges that are kept beyond a field. -/
def beyond (e : Edges) (min max value : Nat) : Edges :=
  ⟨e.onMin && value == min, e.onMax && value == max⟩

variable {e : Edges} {a row b : Int} {min max low high value : Nat}

/-- **The bounds of a field are in their order.** -/
theorem Holds.lower_le_upper (h : e.Holds a row b) (hn : e.Natural min max low high)
    (hab : extendRank a min ≤ extendRank b max) : e.lower min low ≤ e.upper max high := by
  unfold extendRank at hab
  unfold lower upper
  split_ifs with hmin hmax hmax
  · have hrow := h.onMin_iff.1 hmin
    have hrow' := h.onMax_iff.1 hmax
    omega
  · exact (hn.onMin hmin).2
  · exact (hn.onMax hmax).1
  · exact hn.le

/-- **The bounds of a field are those of the row.** A value lies between them if and only if it is a
    natural one with which the row stays between the bounds of the draw. -/
theorem Holds.between_iff (h : e.Holds a row b) (hn : e.Natural min max low high) :
    e.lower min low ≤ value ∧ value ≤ e.upper max high ↔
      (low ≤ value ∧ value ≤ high) ∧
        extendRank a min ≤ extendRank row value ∧ extendRank row value ≤ extendRank b max := by
  have hrange := hn.high_lt
  have hmin_lt := hn.min_lt
  have hmax_lt := hn.max_lt
  have hlow := h.min_le
  have hhigh := h.le_max
  unfold extendRank lower upper
  split_ifs with hmin hmax hmax
  · have hrow := h.onMin_iff.1 hmin
    have hrow' := h.onMax_iff.1 hmax
    have := hn.onMin hmin
    have := hn.onMax hmax
    omega
  · have hrow := h.onMin_iff.1 hmin
    have hrow' := h.onMax_iff.not.1 hmax
    have := hn.onMin hmin
    omega
  · have hrow := h.onMin_iff.not.1 hmin
    have hrow' := h.onMax_iff.1 hmax
    have := hn.onMax hmax
    omega
  · have hrow := h.onMin_iff.not.1 hmin
    have hrow' := h.onMax_iff.not.1 hmax
    omega

/-- The next row holds the edges that are kept. -/
theorem Holds.beyond (h : e.Holds a row b) (hn : e.Natural min max low high)
    (hv : e.lower min low ≤ value ∧ value ≤ e.upper max high) :
    (e.beyond min max value).Holds (extendRank a min) (extendRank row value)
      (extendRank b max) := by
  obtain ⟨hnatural, hle, hle'⟩ := (h.between_iff hn).1 hv
  have hrange := hn.high_lt
  have hmin_lt := hn.min_lt
  have hmax_lt := hn.max_lt
  refine ⟨hle, hle', ?_, ?_⟩
  · simp only [Edges.beyond, Bool.and_eq_true, beq_iff_eq, h.onMin_iff, extendRank]
    omega
  · simp only [Edges.beyond, Bool.and_eq_true, beq_iff_eq, h.onMax_iff, extendRank]
    omega

/-! ### Draws of fields -/

/-- A draw of a field by any draw of numbers between two bounds. -/
def drawWith (between : Nat → Nat → StateM σ Nat) (e : Edges) (min max low high : Nat) :
    StateM σ (Nat × Edges) := do
  let value ← between (e.lower min low) (e.upper max high)
  pure (value, e.beyond min max value)

theorem draw_eq (e : Edges) (min max low high : Nat) :
    (e.draw min max low high : StateM σ (Nat × Edges)) = (do
      let value ← Draw.natBetween (e.lower min low) (Nat.max (e.upper max high) (e.lower min low))
      pure (value, e.beyond min max value)) := rfl

/-- A field is drawn between bounds that are in their order, so that the guard against other bounds
    has no effect. -/
theorem draw_spec {between : Nat → Nat → StateM σ Nat}
    (hbetween : ∀ low high, low ≤ high → between low high = Draw.natBetween low high)
    (h : e.Holds a row b) (hn : e.Natural min max low high)
    (hab : extendRank a min ≤ extendRank b max) :
    Draw.Agrees (e.drawWith between min max low high) (e.draw min max low high) fun p =>
      (low ≤ p.1 ∧ p.1 ≤ high) ∧
        p.2.Holds (extendRank a min) (extendRank row p.1) (extendRank b max) := by
  have hle := h.lower_le_upper hn hab
  have hguard : Nat.max (e.upper max high) (e.lower min low) = e.upper max high :=
    Nat.max_eq_left hle
  rw [draw_eq, drawWith, hbetween _ _ hle, hguard]
  refine Draw.Agrees.bind ⟨rfl, Draw.natBetween_spec hle⟩ fun n hn' => Draw.Agrees.pure ?_
  exact ⟨((h.between_iff hn).1 hn').1, h.beyond hn hn'⟩

end Edges

/-! ## Moments -/

theorem Date.day_lt (d : Date) : d.day < 64 := by
  have := d.day_le_31
  omega

namespace Moment

/-! ### Ranks -/

/-- The rank of year and month. -/
def monthRank (m : Moment) : Int := extendRank m.date.year m.date.month

/-- The rank of the date. -/
def dayRank (m : Moment) : Int := extendRank m.monthRank m.date.day

/-- The rank of the date with the hour. -/
def hourRank (m : Moment) : Int := extendRank m.dayRank m.hour

/-- The rank of the date with hour and minute. -/
def minuteRank (m : Moment) : Int := extendRank m.hourRank m.minute

/-- The rank of all fields down to the second. -/
def rank (m : Moment) : Int := extendRank m.minuteRank m.secondOfMinute

theorem seconds_eq (m : Moment) :
    m.seconds =
      m.date.toDays * 86400 + (m.hour * 3600 + m.minute * 60 + m.secondOfMinute : Nat) := by
  unfold seconds secondsPerDay hour minute secondOfMinute
  omega

theorem dayRank_lt_iff {a b : Moment} : a.dayRank < b.dayRank ↔ a.date.toDays < b.date.toDays := by
  have ha := a.date.month_le
  have hb := b.date.month_le
  have ha' := a.date.day_lt
  have hb' := b.date.day_lt
  rw [Date.toDays_lt_iff]
  unfold dayRank monthRank extendRank Date.Earlier
  omega

/-- **Ranks follow the order of the time line.** -/
theorem rank_le_iff {a b : Moment} : a.rank ≤ b.rank ↔ a.seconds ≤ b.seconds := by
  have hday := @dayRank_lt_iff a b
  have hday' := @dayRank_lt_iff b a
  have ha := a.hour_le
  have hb := b.hour_le
  have ha' := a.minute_le
  have hb' := b.minute_le
  have ha'' := a.secondOfMinute_le
  have hb'' := b.secondOfMinute_le
  rw [seconds_eq, seconds_eq]
  unfold rank minuteRank hourRank extendRank
  omega

/-- Moments in their order have all rows of their first fields in this order. -/
theorem ranks_le {a b : Moment} (h : a.seconds ≤ b.seconds) :
    a.date.year ≤ b.date.year ∧ a.monthRank ≤ b.monthRank ∧ a.dayRank ≤ b.dayRank ∧
      a.hourRank ≤ b.hourRank ∧ a.minuteRank ≤ b.minuteRank ∧ a.rank ≤ b.rank := by
  have hsecond : a.rank ≤ b.rank := rank_le_iff.2 h
  have hminute : a.minuteRank ≤ b.minuteRank := le_of_extendRank_le
    (a.secondOfMinute_le.trans_lt (by decide)) (b.secondOfMinute_le.trans_lt (by decide)) hsecond
  have hhour : a.hourRank ≤ b.hourRank := le_of_extendRank_le
    (a.minute_le.trans_lt (by decide)) (b.minute_le.trans_lt (by decide)) hminute
  have hday : a.dayRank ≤ b.dayRank := le_of_extendRank_le
    (a.hour_le.trans_lt (by decide)) (b.hour_le.trans_lt (by decide)) hhour
  have hmonth : a.monthRank ≤ b.monthRank := le_of_extendRank_le a.date.day_lt b.date.day_lt hday
  exact ⟨le_of_extendRank_le (a.date.month_le.trans_lt (by decide))
    (b.date.month_le.trans_lt (by decide)) hmonth, hmonth, hday, hhour, hminute, hsecond⟩

/-! ### The sampler -/

/-- The sampler by any draw of numbers between two bounds. -/
def sampleWith (between : Nat → Nat → StateM σ Nat) (min max : Moment) :
    StateM σ (Except Failure Moment) := do
  if max < min then return .error (.date .reversedDates)
  let year ← Draw.between32 min.date.year max.date.year
  let edges : Edges := ⟨year == min.date.year, year == max.date.year⟩
  let (month, edges) ← edges.drawWith between min.date.month max.date.month 1 12
  let (day, edges) ← edges.drawWith between min.date.day max.date.day 1 (daysInMonth year month)
  let (hour, edges) ← edges.drawWith between min.hour max.hour 0 23
  let (minute, edges) ← edges.drawWith between min.minute max.minute 0 59
  let (second, _) ← edges.drawWith between min.secondOfMinute max.secondOfMinute 0 59
  match (Date.ofYmdInRange? year month day).bind fun date =>
      Moment.ofClock? date hour minute second 0 with
  | some m => return .ok m
  | none => return .error (.date (.sampledInvalidDate year month day hour minute second))

/-- The moments that a draw between two bounds may give. -/
structure Sampled (min max m : Moment) : Prop where
  nano_eq : m.nano = 0
  inRange : m.inRange = true
  min_le : min.seconds ≤ m.seconds
  le_max : m.seconds ≤ max.seconds

/-- A field whose values are natural ones in every moment. -/
theorem natural_of_le {low high : Nat} {field : Moment → Nat}
    (h : ∀ m, low ≤ field m ∧ field m ≤ high) (hhigh : high < 64) (e : Edges) (min max : Moment) :
    e.Natural (field min) (field max) low high :=
  ⟨(h min).1.trans (h min).2, hhigh, (h min).2.trans_lt hhigh, (h max).2.trans_lt hhigh,
    fun _ => h min, fun _ => h max⟩

theorem natural_month (e : Edges) (min max : Moment) :
    e.Natural min.date.month max.date.month 1 12 :=
  natural_of_le (fun m => ⟨m.date.month_pos, m.date.month_le⟩) (by decide) e min max

theorem natural_hour (e : Edges) (min max : Moment) : e.Natural min.hour max.hour 0 23 :=
  natural_of_le (fun m => ⟨Nat.zero_le _, m.hour_le⟩) (by decide) e min max

theorem natural_minute (e : Edges) (min max : Moment) : e.Natural min.minute max.minute 0 59 :=
  natural_of_le (fun m => ⟨Nat.zero_le _, m.minute_le⟩) (by decide) e min max

theorem natural_second (e : Edges) (min max : Moment) :
    e.Natural min.secondOfMinute max.secondOfMinute 0 59 :=
  natural_of_le (fun m => ⟨Nat.zero_le _, m.secondOfMinute_le⟩) (by decide) e min max

/-- A row that lies on the edge of year and month has the days of this month. -/
theorem natural_day {e : Edges} {min max : Moment} {year : Int} {month : Nat}
    (hmonth : 1 ≤ month ∧ month ≤ 12)
    (h : e.Holds min.monthRank (extendRank year month) max.monthRank) :
    e.Natural min.date.day max.date.day 1 (daysInMonth year month) := by
  have hdays : ∀ m : Moment, extendRank year month = m.monthRank →
      1 ≤ m.date.day ∧ m.date.day ≤ daysInMonth year month := by
    intro m hm
    have hle := m.date.month_le
    unfold monthRank extendRank at hm
    have hy : year = m.date.year := by omega
    have hmonth : month = m.date.month := by omega
    rw [hy, hmonth]
    exact ⟨m.date.day_pos, m.date.day_le⟩
  have hge := daysInMonth_ge year hmonth.1 hmonth.2
  exact ⟨by omega, (daysInMonth_le year month).trans_lt (by decide), min.date.day_lt,
    max.date.day_lt, fun he => hdays min (h.onMin_iff.1 he), fun he => hdays max (h.onMax_iff.1 he)⟩

/-- **A draw between two moments finds a moment of the calendar between them**, and no field of it
    is drawn between bounds that are not in their order. -/
theorem sample_spec {between : Nat → Nat → StateM σ Nat}
    (hbetween : ∀ low high, low ≤ high → between low high = Draw.natBetween low high)
    {min max : Moment} (h : ¬ max < min) (hmin : min.inRange = true) (hmax : max.inRange = true) :
    Draw.Agrees (sampleWith between min max) (sample min max) fun r =>
      ∃ m, r = .ok m ∧ Sampled min max m := by
  obtain ⟨hyear, hmonth, hday, hhour, hminute, hsecond⟩ := ranks_le (seconds_le_of_not_lt h)
  unfold sampleWith sample
  rw [if_neg h, if_neg h]
  refine Draw.Agrees.bind ⟨rfl, Draw.between32_spec hyear⟩ fun year hyear => ?_
  dsimp only
  have hedges : Edges.Holds ⟨year == min.date.year, year == max.date.year⟩ min.date.year year
      max.date.year := ⟨hyear.1, hyear.2, by simp, by simp⟩
  refine Draw.Agrees.bind (Edges.draw_spec hbetween hedges (natural_month ..) hmonth) ?_
  rintro ⟨month, edges₁⟩ ⟨hmonth, hedges₁⟩
  refine Draw.Agrees.bind (Edges.draw_spec hbetween hedges₁ (natural_day hmonth hedges₁) hday) ?_
  rintro ⟨day, edges₂⟩ ⟨hday, hedges₂⟩
  refine Draw.Agrees.bind (Edges.draw_spec hbetween hedges₂ (natural_hour ..) hhour) ?_
  rintro ⟨hour, edges₃⟩ ⟨hhour, hedges₃⟩
  refine Draw.Agrees.bind (Edges.draw_spec hbetween hedges₃ (natural_minute ..) hminute) ?_
  rintro ⟨minute, edges₄⟩ ⟨hminute, hedges₄⟩
  refine Draw.Agrees.bind (Edges.draw_spec hbetween hedges₄ (natural_second ..) hsecond) ?_
  rintro ⟨second, edges₅⟩ ⟨hsecond, hedges₅⟩
  obtain ⟨date, hdate⟩ := Date.ofYmdInRange?_isSome hmonth.1 hmonth.2 hday.1 hday.2
    ((year_bounds hmin).1.trans hyear.1) (hyear.2.trans (year_bounds hmax).2)
  have hnano₀ : 0 < 1000000000 := by decide
  obtain ⟨m, hm⟩ := ofClock?_isSome date (Nat.lt_succ_of_le hhour.2) (Nat.lt_succ_of_le hminute.2)
    (Nat.lt_succ_of_le hsecond.2) (hnano₀.trans (by decide)) (Or.inl hnano₀)
  simp only [hdate, Option.bind_some, hm]
  refine Draw.Agrees.pure ⟨m, rfl, ?_⟩
  obtain ⟨rfl, rfl, rfl, hrange⟩ := Date.ofYmdInRange?_eq_some hdate
  obtain ⟨rfl, rfl, rfl, rfl, hnano⟩ := ofClock?_eq_some hm
  exact ⟨hnano, hrange, rank_le_iff.1 hedges₅.min_le, rank_le_iff.1 hedges₅.le_max⟩

/-- A draw that finds no moment has drawn nothing. -/
theorem sample_error {min max : Moment} (hmin : min.inRange = true) (hmax : max.inRange = true)
    {s : σ} {e : Failure} (h : (sample min max s).1 = .error e) : (sample min max s).2 = s := by
  by_cases hlt : max < min
  · have heq : (sample min max : StateM σ _) = pure (.error (.date .reversedDates)) := by
      unfold sample
      rw [if_pos hlt]
    rw [heq]
    rfl
  · obtain ⟨m, hm, -⟩ := (sample_spec (fun _ _ _ => rfl) hlt hmin hmax).2 s
    rw [hm] at h
    exact absurd h (by simp)

end Moment

/-! ## Bounds -/

namespace Pattern

/-- The bounds of a draw are moments that calculations may reach. -/
theorem inRange_of_range {p : Pattern} {now min max : Moment} {bounds : List Text}
    (hnow : now.inRange = true) (h : p.range now bounds = .ok (min, max)) :
    min.inRange = true ∧ max.inRange = true := by
  have hboth : ∀ {low high : Text}, (do
      let min ← p.parse low
      let max ← p.parse high
      pure (min, max)) = .ok (min, max) → min.inRange = true ∧ max.inRange = true := by
    intro low high h
    obtain ⟨a, ha, h⟩ := bind_eq_ok h
    obtain ⟨b, hb, h⟩ := bind_eq_ok h
    obtain ⟨rfl, rfl⟩ := Prod.mk.inj (Except.ok.inj h)
    exact ⟨inRange_of_parse ha, inRange_of_parse hb⟩
  unfold range at h
  split at h
  · obtain ⟨a, ha, h⟩ := bind_eq_ok h
    obtain ⟨rfl, rfl⟩ := Prod.mk.inj (Except.ok.inj h)
    exact ⟨inRange_of_parse ha, hnow⟩
  · exact hboth h
  · split at h
    · exact absurd h (by simp)
    · exact hboth h

/-- **A date that cannot be drawn leaves the source as it was.** -/
theorem sample_error {p : Pattern} {now : Moment} {bounds : List Text} (hnow : now.inRange = true)
    {s : σ} {e : Failure} (h : (p.sample now bounds s).1 = .error e) :
    (p.sample now bounds s).2 = s := by
  unfold sample at h ⊢
  rcases hr : p.range now bounds with failure | ⟨min, max⟩
  · rfl
  · obtain ⟨hmin, hmax⟩ := inRange_of_range hnow hr
    rw [hr] at h
    have hfailed : ∃ e, (Moment.sample min max s).1 = .error e := by
      rcases hm : (Moment.sample min max s).1 with failure | m
      · exact ⟨failure, rfl⟩
      · have hmap : ((Moment.sample min max s).1.map fun m => p.render ⟨m, .utc⟩) = .error e := h
        rw [hm] at hmap
        exact absurd hmap (by simp [Except.map])
    obtain ⟨failure, hf⟩ := hfailed
    exact Moment.sample_error hmin hmax hf

end Pattern
end Recordsmith
