import Recordsmith.Calendar.Places
import Recordsmith.Proofs.Steps

/-!
# The offsets of the zones of places

* `Zone.Within` bounds the offsets of a zone;
* `Zoned.resolve_utc`: in universal time every reading is placed where it is read;
* `Zone.named?_within`: the clocks of a place are less than a day away from universal time;
* `Zone.Within.keepsDay`: where the offsets differ by less than a day, the clocks are never set back
  by a day.
-/

namespace Recordsmith

/-- The clocks of the zone are between `low` and `high` seconds ahead of universal time. -/
def Zone.Within (low high : Int) (z : Zone) : Prop := ∀ o ∈ z.offsets, low ≤ o ∧ o ≤ high

theorem Zone.Within.offsetAt {low high : Int} {z : Zone} (h : z.Within low high) (t : Int) :
    low ≤ z.offsetAt t ∧ z.offsetAt t ≤ high :=
  h _ (z.offsetAt_mem t)

theorem Zone.Within.keepsDay {low high : Int} {z : Zone} (h : z.Within low high)
    (hday : high - low < secondsPerDay) : z.KeepsDay := by
  intro t u htu
  have ht := (h.offsetAt t).2
  have hu := (h.offsetAt u).1
  omega

/-! ## Universal time -/

namespace Zoned

@[simp] theorem reading_utc (m : Moment) : (⟨m, .utc⟩ : Zoned).reading = m :=
  Moment.eq_of_seconds_eq ((Moment.seconds_onClock ..).trans (Int.add_zero _)) rfl

@[simp] theorem offset_utc (m : Moment) : (⟨m, .utc⟩ : Zoned).offset = 0 := rfl

@[simp] theorem abbreviation_utc (m : Moment) :
    (⟨m, .utc⟩ : Zoned).abbreviation = ['U', 'T', 'C'] := rfl

/-- A reading of universal time is placed where it is read. -/
theorem resolve_utc (m : Moment) {reading : Moment} (h : reading.inRange = true) :
    (⟨m, .utc⟩ : Zoned).resolve reading = .ok ⟨reading, .utc⟩ := by
  have hfirst : Zone.utc.FirstShowsAt reading.seconds reading.seconds :=
    ⟨Int.add_zero _, fun t ht => (ht.symm.trans (Int.add_zero t)).le⟩
  have hplaced : ofReading? .utc reading = some ⟨reading, .utc⟩ :=
    ofReading?_eq_some_iff.2 ⟨rfl, reading_utc reading, hfirst, h⟩
  simp only [resolve, hplaced]

end Zoned

/-! ## Zones by their changes -/

theorem mem_offsets_ofSpans {name : Text} {first : Span} {later : List Span} {o : Int}
    (h : o ∈ (Zone.ofSpans name first later).offsets) :
    o = first.offset ∨ ∃ span ∈ later, span.offset = o := by
  simp only [Zone.ofSpans, List.mem_eraseDups, List.map_cons, List.mem_cons, List.mem_map] at h
  exact h

theorem fixed_within {low high offset : Int} (name abbreviation : Text) (h₁ : low ≤ offset)
    (h₂ : offset ≤ high) : (Zone.fixed name abbreviation offset).Within low high := by
  intro o ho
  rcases mem_offsets_ofSpans ho with rfl | ⟨span, hs, -⟩
  · exact ⟨h₁, h₂⟩
  · exact absurd hs List.not_mem_nil

/-- The offsets of a list of spans lie between two bounds. -/
def SpansWithin (low high : Int) (spans : List Span) : Prop :=
  ∀ span ∈ spans, low ≤ span.offset ∧ span.offset ≤ high

theorem spansWithin_yearly {low high : Int} {r : Yearly} (h₁ : low ≤ r.offset)
    (h₂ : r.offset ≤ high) : SpansWithin low high r.spans := by
  intro span hs
  obtain ⟨year, -, rfl⟩ := List.mem_map.1 hs
  exact ⟨h₁, h₂⟩

theorem spansWithin_switches {low high second offset : Int} {abbreviation : String}
    {days : List (Int × Nat × Nat)} (h₁ : low ≤ offset) (h₂ : offset ≤ high) :
    SpansWithin low high (switches second offset abbreviation days) := by
  intro span hs
  obtain ⟨day, -, rfl⟩ := List.mem_map.1 hs
  exact ⟨h₁, h₂⟩

theorem placeZone_within {low high offset : Int} {name abbreviation : String}
    {changes : List (List Span)} (h₁ : low ≤ offset) (h₂ : offset ≤ high)
    (h : ∀ spans ∈ changes, SpansWithin low high spans) :
    (placeZone name offset abbreviation changes).Within low high := by
  intro o ho
  rcases mem_offsets_ofSpans ho with rfl | ⟨span, hs, rfl⟩
  · exact ⟨h₁, h₂⟩
  · obtain ⟨spans, hspans, hspan⟩ := List.mem_flatten.1 (List.mem_mergeSort.1 hs)
    exact h spans hspans span hspan

/-! ## Places -/

theorem paris_within : paris.Within 3600 7200 := by
  refine placeZone_within (by decide) (by decide) ?_
  simp [spansWithin_yearly]

/-- The offsets of a place with yearly changes and changes on listed days. -/
theorem places_within : ∀ z ∈ [paris, newYork "America/New_York", newYork "US/Eastern",
    newYork "EST5EDT", lordHowe, saoPaulo, apia, kathmandu "Asia/Kathmandu",
    kathmandu "Asia/Katmandu"], z.Within (-50400) 50400 := by
  simp only [List.mem_cons, List.not_mem_nil, or_false, forall_eq_or_imp, forall_eq]
  refine ⟨?_, ?_, ?_, ?_, ?_, ?_, ?_, ?_, ?_⟩ <;>
    exact placeZone_within (by decide) (by decide)
      (by simp [spansWithin_yearly, spansWithin_switches])

theorem fixedZones_within : ∀ z ∈ fixedZones, z.Within (-50400) 50400 := by
  intro z hz
  simp only [fixedZones, List.mem_append, List.mem_map] at hz
  rcases hz with ((((⟨name, -, rfl⟩ | ⟨name, -, rfl⟩) | ⟨n, hn, rfl⟩) | ⟨n, hn, rfl⟩) |
    ⟨name, -, rfl⟩) | ⟨name, -, rfl⟩
  · exact fixed_within _ _ (by decide) (by decide)
  · exact fixed_within _ _ (by decide) (by decide)
  · have := List.mem_range'_1.1 hn
    exact fixed_within _ _ (by omega) (by omega)
  · have := List.mem_range'_1.1 hn
    exact fixed_within _ _ (by omega) (by omega)
  · exact fixed_within _ _ (by decide) (by decide)
  · exact fixed_within _ _ (by decide) (by decide)

/-- **The clocks of a place are less than a day away from universal time.** -/
theorem Zone.named?_within {name : Text} {z : Zone} (h : Zone.named? name = some z) :
    z.Within (-50400) 50400 := by
  rcases List.mem_append.1 (List.mem_of_find?_eq_some h) with hz | hz
  · exact fixedZones_within z hz
  · exact places_within z hz

end Recordsmith
