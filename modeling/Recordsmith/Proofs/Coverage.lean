import Recordsmith.Proofs.Sampling

/-!
# What draws can give

Every value that a draw is allowed to give is given by some row of words.

* `Draw.Reaches` are the values that words of a row can make a draw give;
* `Draw.reaches_spread`: a bounded draw reaches every number below its bound, also where it corrects
  its bias;
* `Moment.sample_support`: a draw between two moments gives moments of the calendar between them,
  and reaches every whole second there.
-/

namespace Recordsmith

/-! ## Words for a value -/

namespace Draw

variable {α β : Type}

/-- Some words make the draw give the value, wherever they stand in a row. -/
def Reaches (d : StateM Replay α) (a : α) : Prop :=
  ∃ words, ∀ before after : List UInt64, d ⟨before ++ (words ++ after), before.length⟩ =
    (a, ⟨before ++ (words ++ after), before.length + words.length⟩)

theorem Reaches.pure (a : α) : Reaches (pure a) a := ⟨[], fun _ _ => rfl⟩

theorem Reaches.bind {d : StateM Replay α} {f : α → StateM Replay β} {a : α} {b : β}
    (hd : Reaches d a) (hf : Reaches (f a) b) : Reaches (d >>= f) b := by
  obtain ⟨words, hd⟩ := hd
  obtain ⟨more, hf⟩ := hf
  refine ⟨words ++ more, fun before after => ?_⟩
  have hrow : before ++ (words ++ more ++ after) = before ++ (words ++ (more ++ after)) := by simp
  have hrow' : before ++ (words ++ (more ++ after)) = before ++ words ++ (more ++ after) := by simp
  change (f (d _).1) (d _).2 = _
  rw [hrow, hd before (more ++ after), hrow', ← List.length_append, hf (before ++ words) after,
    List.length_append, List.length_append, Nat.add_assoc]

theorem Reaches.map {d : StateM Replay α} {a : α} (hd : Reaches d a) (g : α → β) :
    Reaches (do let a ← d; Pure.pure (g a)) (g a) :=
  hd.bind (Reaches.pure (g a))

/-- A value that is reached is given by the row of its words. -/
theorem Reaches.exists_replay {d : StateM Replay α} {a : α} (hd : Reaches d a) :
    ∃ r : Replay, (d r).1 = a := by
  obtain ⟨words, hd⟩ := hd
  exact ⟨⟨[] ++ (words ++ []), 0⟩, congrArg Prod.fst (hd [] [])⟩

/-- The next word of a row stands after the words that were drawn. -/
theorem next_append (before after : List UInt64) (word : UInt64) :
    Replay.next ⟨before ++ (word :: after), before.length⟩ =
      (word, ⟨before ++ (word :: after), before.length + 1⟩) := by
  have hposition : before.length % (before ++ word :: after).length = before.length := by
    refine Nat.mod_eq_of_lt ?_
    rw [List.length_append, List.length_cons]
    omega
  unfold Replay.next
  simp only [hposition]
  simp

theorem reaches_word32 {n : Nat} (h : n < twoTo 32) :
    Reaches (do Pure.pure (← word32).toNat : StateM Replay Nat) n := by
  refine ⟨[UInt64.ofNat n], fun before after => ?_⟩
  have hword : (UInt64.ofNat n).toNat = n :=
    UInt64.toNat_ofNat_of_lt' (h.trans (by decide))
  have hlow : (UInt32.ofNat (n % twoTo 32)).toNat = n := by
    rw [Nat.mod_eq_of_lt h]
    exact UInt32.toNat_ofNat_of_lt' h
  change ((UInt32.ofNat ((Replay.next _).1.toNat % twoTo 32)).toNat, (Replay.next _).2) = _
  rw [List.singleton_append, next_append, hword, hlow]
  rfl

theorem reaches_word64 {n : Nat} (h : n < twoTo 64) :
    Reaches (do Pure.pure (← word64).toNat : StateM Replay Nat) n := by
  refine ⟨[UInt64.ofNat n], fun before after => ?_⟩
  change ((Replay.next _).1.toNat, (Replay.next _).2) = _
  rw [List.singleton_append, next_append, UInt64.toNat_ofNat_of_lt' h]
  rfl

/-- The least word whose product with the bound reaches a number. -/
theorem exists_word {modulus bound n : Nat} (hn : n < bound) (hb : bound ≤ modulus) :
    ∃ first < modulus, first * bound / modulus = n ∧ first * bound % modulus < bound := by
  have hpos : 0 < bound := by omega
  obtain ⟨first, rest, hrest, heq⟩ : ∃ first rest, rest < bound ∧
      first * bound = n * modulus + rest := by
    refine ⟨(n * modulus + (bound - 1)) / bound,
      bound - 1 - (n * modulus + (bound - 1)) % bound, by omega, ?_⟩
    have hdiv := Nat.div_add_mod' (n * modulus + (bound - 1)) bound
    have hmod := Nat.mod_lt (n * modulus + (bound - 1)) hpos
    omega
  have hdivmod : first * bound / modulus = n ∧ first * bound % modulus = rest := by
    rw [heq, Nat.mul_comm n]
    exact ⟨by rw [Nat.mul_add_div (by omega), Nat.div_eq_of_lt (by omega), Nat.add_zero],
      by rw [Nat.mul_add_mod, Nat.mod_eq_of_lt (by omega)]⟩
  refine ⟨first, ?_, hdivmod.1, by rw [hdivmod.2]; exact hrest⟩
  have hless : first * bound < modulus * bound := by
    calc first * bound = n * modulus + rest := heq
      _ < n * modulus + modulus := by omega
      _ = (n + 1) * modulus := (Nat.succ_mul n modulus).symm
      _ ≤ bound * modulus := Nat.mul_le_mul_right modulus hn
      _ = modulus * bound := Nat.mul_comm bound modulus
  exact Nat.lt_of_mul_lt_mul_right hless

/-- **A bounded draw reaches every number below its bound.** Where the bias of the first word is
    corrected, a second word of zero leaves the number as it is. -/
theorem reaches_spread {modulus bound n : Nat} {word : StateM Replay Nat} (hn : n < bound)
    (hb : bound ≤ modulus) (hw : ∀ k, k < modulus → Reaches word k) :
    Reaches (spread modulus bound word) n := by
  obtain ⟨first, hfirst, hhigh, hlow⟩ := exists_word hn hb
  refine (hw first hfirst).bind ?_
  dsimp only
  rw [hhigh]
  split
  · have hzero := (hw 0 (by omega)).map fun second =>
      n + (first * bound % modulus + second * bound / modulus) / modulus
    have hsame : n + (first * bound % modulus + 0 * bound / modulus) / modulus = n := by
      rw [Nat.zero_mul, Nat.zero_div, Nat.add_zero, Nat.div_eq_of_lt (by omega), Nat.add_zero]
    rwa [hsame] at hzero
  · exact Reaches.pure n

theorem reaches_natBetween {low high n : Nat} (hlow : low ≤ n) (hhigh : n ≤ high)
    (h : high < twoTo 64) : Reaches (natBetween low high) n := by
  have habove : ∀ {modulus : Nat} {word : StateM Replay Nat}, high < modulus →
      (∀ k, k < modulus → Reaches word k) →
      Reaches (do let above ← spread modulus (high - low + 1) word; Pure.pure (low + above)) n := by
    intro modulus word hmodulus hw
    have hbelow : n - low < high - low + 1 := by omega
    have hsum := (reaches_spread hbelow (by omega) hw).map (low + ·)
    rwa [Nat.add_sub_cancel' hlow] at hsum
  unfold natBetween
  split
  · exact habove ‹_› fun _ => reaches_word32
  · exact habove h fun _ => reaches_word64

theorem reaches_between {modulus : Nat} {word : StateM Replay Nat}
    (hw : ∀ k, k < modulus → Reaches word k) {low high n : Int} (hlow : low ≤ n) (hhigh : n ≤ high)
    (h : high - low < modulus) :
    Reaches (do
      let above ← spread modulus (high - low + 1).toNat word
      Pure.pure (low + (above : Int))) n := by
  have hbelow : (n - low).toNat < (high - low + 1).toNat := by omega
  have habove := (reaches_spread hbelow (by omega) hw).map fun above => low + (above : Int)
  have hsum : low + ((n - low).toNat : Int) = n := by omega
  rwa [hsum] at habove

theorem reaches_between32 {low high n : Int} (hlow : low ≤ n) (hhigh : n ≤ high)
    (h : high - low < twoTo 32) : Reaches (between32 low high) n :=
  reaches_between (fun _ => reaches_word32) hlow hhigh h

theorem reaches_between64 {low high n : Int} (hlow : low ≤ n) (hhigh : n ≤ high)
    (h : high - low < twoTo 64) : Reaches (between64 low high) n :=
  reaches_between (fun _ => reaches_word64) hlow hhigh h

end Draw

/-! ## Moments -/

/-- A field reaches the values with which the row stays between the bounds of the draw. -/
theorem Edges.reaches_draw {e : Edges} {a row b : Int} {min max low high value : Nat}
    (h : e.Holds a row b) (hn : e.Natural min max low high) (hvalue : low ≤ value ∧ value ≤ high)
    (hmin : extendRank a min ≤ extendRank row value)
    (hmax : extendRank row value ≤ extendRank b max) :
    Draw.Reaches (e.draw min max low high) (value, e.beyond min max value) ∧
      (e.beyond min max value).Holds (extendRank a min) (extendRank row value)
        (extendRank b max) := by
  have hbetween := (h.between_iff hn).2 ⟨hvalue, hmin, hmax⟩
  have hguard : Nat.max (e.upper max high) (e.lower min low) = e.upper max high :=
    Nat.max_eq_left (hbetween.1.trans hbetween.2)
  have hupper : e.upper max high < twoTo 32 := by
    refine lt_of_lt_of_le (b := 64) ?_ (by decide)
    unfold Edges.upper
    split
    · exact hn.max_lt
    · exact hn.high_lt
  rw [Edges.draw_eq, hguard]
  exact ⟨(Draw.reaches_natBetween hbetween.1 hbetween.2
    (hupper.trans (by decide))).map _, h.beyond hn hbetween⟩

namespace Moment

/-- **Every whole second between two moments is reached.** -/
theorem reaches_sample {min max m : Moment} (h : ¬ max < min) (hmin : min.inRange = true)
    (hmax : max.inRange = true) (hm : Sampled min max m) :
    Draw.Reaches (sample min max) (.ok m) := by
  obtain ⟨hyear, hmonth, hday, hhour, hminute, hsecond⟩ := ranks_le hm.min_le
  obtain ⟨hyear', hmonth', hday', hhour', hminute', hsecond'⟩ := ranks_le hm.le_max
  have hspan : max.date.year - min.date.year < twoTo 32 := by
    have hlow := (year_bounds hmin).1
    have hhigh := (year_bounds hmax).2
    unfold Date.minYear at hlow
    unfold Date.maxYear at hhigh
    change _ < (4294967296 : Int)
    omega
  unfold sample
  rw [if_neg h]
  refine (Draw.reaches_between32 hyear hyear' hspan).bind ?_
  dsimp only
  have hedges : Edges.Holds ⟨m.date.year == min.date.year, m.date.year == max.date.year⟩
      min.date.year m.date.year max.date.year := ⟨hyear, hyear', by simp, by simp⟩
  obtain ⟨hdraw, hedges⟩ := Edges.reaches_draw hedges (natural_month ..)
    ⟨m.date.month_pos, m.date.month_le⟩ hmonth hmonth'
  refine hdraw.bind ?_
  obtain ⟨hdraw, hedges⟩ := Edges.reaches_draw hedges
    (natural_day ⟨m.date.month_pos, m.date.month_le⟩ hedges) ⟨m.date.day_pos, m.date.day_le⟩ hday
    hday'
  refine hdraw.bind ?_
  obtain ⟨hdraw, hedges⟩ := Edges.reaches_draw hedges (natural_hour ..) ⟨Nat.zero_le _, m.hour_le⟩
    hhour hhour'
  refine hdraw.bind ?_
  obtain ⟨hdraw, hedges⟩ := Edges.reaches_draw hedges (natural_minute ..)
    ⟨Nat.zero_le _, m.minute_le⟩ hminute hminute'
  refine hdraw.bind ?_
  obtain ⟨hdraw, -⟩ := Edges.reaches_draw hedges (natural_second ..)
    ⟨Nat.zero_le _, m.secondOfMinute_le⟩ hsecond hsecond'
  refine hdraw.bind ?_
  have hdate : Date.ofYmdInRange? m.date.year m.date.month m.date.day = some m.date :=
    Date.ofYmdInRange?_self hm.inRange
  have hclock := ofClock?_self (m := m) (Or.inl (by rw [hm.nano_eq]; decide))
  rw [hm.nano_eq] at hclock
  simp only [hdate, Option.bind_some, hclock]
  exact Draw.Reaches.pure _

/-- The moments that a draw may give are the whole seconds between the bounds, of which the lower
    one counts from the start of its second. -/
theorem sampled_iff {min max m : Moment} (hmin : min.inRange = true) (hmax : max.inRange = true) :
    Sampled min max m ↔ m.nano = 0 ∧ min.truncateToSecond ≤ m ∧ m ≤ max := by
  have hlow : m.nano = 0 → (min.truncateToSecond ≤ m ↔ min.seconds ≤ m.seconds) := by
    intro hnano
    have htruncated : min.truncateToSecond.nano = 0 := rfl
    rw [le_iff, seconds_truncateToSecond, htruncated]
    omega
  have hhigh : m.nano = 0 → (m ≤ max ↔ m.seconds ≤ max.seconds) := by
    intro hnano
    rw [le_iff]
    omega
  constructor
  · intro h
    exact ⟨h.nano_eq, (hlow h.nano_eq).2 h.min_le, (hhigh h.nano_eq).2 h.le_max⟩
  · rintro ⟨hnano, hle, hle'⟩
    have hle := (hlow hnano).1 hle
    have hle' := (hhigh hnano).1 hle'
    refine ⟨hnano, inRange_iff.2 ⟨?_, ?_⟩, hle, hle'⟩
    · exact (inRange_iff.1 hmin).1.trans hle
    · exact hle'.trans (inRange_iff.1 hmax).2

/-- **A draw between two moments gives the whole seconds between them, and each of them.** For
    bounds in their order that calculations may reach, every source yields a moment of the calendar
    without fractions of a second, not before the second of the lower bound and not after the upper
    bound. No field is drawn between bounds in the wrong order: the sampler is the same, whatever is
    done about those. And every such moment is given by some row of words. -/
theorem sample_support {min max : Moment} (h : min ≤ max) (hmin : min.inRange = true)
    (hmax : max.inRange = true) :
    (∀ {σ : Type} [WordSource σ] (s : σ), ∃ m, (sample min max s).1 = .ok m ∧ m.nano = 0 ∧
      m.inRange = true ∧ min.truncateToSecond ≤ m ∧ m ≤ max) ∧
    (∀ {σ : Type} [WordSource σ] (between : Nat → Nat → StateM σ Nat),
      (∀ low high, low ≤ high → between low high = Draw.natBetween low high) →
      sampleWith between min max = sample min max) ∧
    ∀ m : Moment, m.nano = 0 → min.truncateToSecond ≤ m → m ≤ max →
      ∃ r : Replay, (sample min max r).1 = .ok m := by
  refine ⟨fun s => ?_, fun between hbetween => (sample_spec hbetween h hmin hmax).1, ?_⟩
  · obtain ⟨m, hm, hsampled⟩ := (sample_spec (fun _ _ _ => rfl) h hmin hmax).2 s
    obtain ⟨hnano, hle, hle'⟩ := (sampled_iff hmin hmax).1 hsampled
    exact ⟨m, hm, hnano, hsampled.inRange, hle, hle'⟩
  · intro m hnano hle hle'
    exact (reaches_sample h hmin hmax ((sampled_iff hmin hmax).2 ⟨hnano, hle, hle'⟩)).exists_replay

/-- The last second of February of a leap year, within a leap second. -/
def leapEve : Moment := ofSeconds 1709251199 1500000000 (by decide)

/-- The first midnight of the next month. -/
def marchFirst : Moment := (midnight .epoch).onClock 1709251200

theorem sample_support_leapEve :
    leapEve ≤ marchFirst ∧ leapEve.inRange = true ∧ marchFirst.inRange = true ∧
      leapEve.truncateToSecond.nano = 0 ∧ leapEve.truncateToSecond ≤ marchFirst ∧
      ∃ r : Replay, (sample leapEve marchFirst r).1 = .ok leapEve.truncateToSecond := by
  have h : leapEve ≤ marchFirst := by decide
  have hmin : leapEve.inRange = true := by decide
  have hmax : marchFirst.inRange = true := by decide
  have hle : leapEve.truncateToSecond ≤ marchFirst := by decide
  refine ⟨h, hmin, hmax, rfl, hle, ?_⟩
  exact (sample_support h hmin hmax).2.2 leapEve.truncateToSecond rfl (by decide) hle

end Moment
end Recordsmith
