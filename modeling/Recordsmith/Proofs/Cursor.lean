import Recordsmith.Cursor
import Recordsmith.Proofs.Places

/-!
# Runs of the date cursor

A cursor that several workers use is used by one of them after the other, in an order that nothing
fixes. A run is therefore any list of requests.

* `Cursor.calls` are the calls of a run, each with the cursor before and after it;
* `Cursor.dates` are the dates that a run hands out;
* `Cursor.dates_increasing`: each date lies after all dates before it, and a call leaves both ends
  at the date that it has handed out, or where they were.
-/

namespace Recordsmith

/-- One use of the cursor. -/
structure CursorCall where
  request : CursorRequest
  before : Cursor
  outcome : Except StepFault Zoned
  after : Cursor

/-- The zones of a request keep the day, and its step goes forward. -/
structure CursorRequest.Forward (r : CursorRequest) : Prop where
  now_zone : r.now.zone.KeepsDay
  candidate_zone : ∀ z, r.candidate = some z → z.zone.KeepsDay
  step_pos : 1 ≤ r.step

namespace Cursor

/-- The calls of a run. -/
def calls : Cursor → List CursorRequest → List CursorCall
  | _, [] => []
  | c, r :: rest => ⟨r, c, (c.advance r).1, (c.advance r).2⟩ :: calls (c.advance r).2 rest

/-- The dates that calls have handed out, in order. -/
def dates (calls : List CursorCall) : List Zoned := calls.filterMap fun call => call.outcome.toOption

/-! ## One call -/

/-- The cursor that a request finds, which the first use puts at the present. -/
def opened (c : Cursor) (r : CursorRequest) : CursorState := c.getD ⟨r.now, r.now, false⟩

/-- The date that a request asks for: its start, or a step further if that is not ahead. -/
def target (s : CursorState) (r : CursorRequest) : Except StepFault Zoned :=
  if s.finish.utc < (startFor s r).utc then .ok (startFor s r)
  else r.unit.shift (startFor s r) r.step

theorem advance_eq (c : Cursor) (r : CursorRequest) :
    c.advance r = match target (c.opened r) r with
      | .ok z => (.ok z, some ⟨z, z, true⟩)
      | .error e => (.error e, some (c.opened r)) := by
  unfold advance
  rfl

theorem target_eq_ok {c : Cursor} {r : CursorRequest} {z : Zoned}
    (h : (c.advance r).1 = .ok z) : target (c.opened r) r = .ok z := by
  rw [advance_eq] at h
  split at h
  · rename_i ht
    rw [ht, Except.ok.inj h]
  · exact absurd h (by simp)

theorem advance_ok {c : Cursor} {r : CursorRequest} {z : Zoned} (h : (c.advance r).1 = .ok z) :
    (c.advance r).2 = some ⟨z, z, true⟩ := by
  rw [advance_eq, target_eq_ok h]

theorem advance_error {c : Cursor} {r : CursorRequest} {e : StepFault}
    (h : (c.advance r).1 = .error e) : (c.advance r).2 = some (c.opened r) := by
  rw [advance_eq] at h ⊢
  split at h
  · exact absurd h (by simp)
  · rfl

/-- The start of a request is in a zone of the request. -/
theorem keepsDay_startFor {s : CursorState} {r : CursorRequest} (hr : r.Forward) :
    (startFor s r).zone.KeepsDay := by
  unfold startFor
  split
  · rename_i candidate hc
    split
    · exact hr.candidate_zone candidate hc
    · exact hr.now_zone
  · exact hr.now_zone

/-- A cursor that has handed out a date starts there or, with a candidate, further ahead. -/
theorem startFor_of_emitted {s : CursorState} (r : CursorRequest) (hs : s.emitted = true) :
    (startFor s r).utc = s.start.utc ∨ s.start.utc < (startFor s r).utc := by
  unfold startFor
  split
  · split
    · rename_i hc
      simp only [hs, Bool.not_true, Bool.false_eq_true, false_or, Bool.or_eq_true,
        decide_eq_true_eq] at hc
      exact Or.inr hc
    · exact Or.inl rfl
  · exact Or.inl rfl

/-- The date that the cursor stands at, if it has handed out one. -/
def last? (c : Cursor) : Option Zoned :=
  c.bind fun s => if s.emitted then some s.start else none

/-- Both ends of a cursor that has handed out a date are at this date. -/
def Settled (c : Cursor) : Prop := ∀ s, c = some s → s.emitted = true → s.finish = s.start

theorem settled_none : Settled none := by
  intro s h
  exact absurd h (by simp)

theorem settled_advance {c : Cursor} (hc : c.Settled) (r : CursorRequest) :
    (c.advance r).2.Settled := by
  rcases h : (c.advance r).1 with e | z
  · rw [advance_error h]
    rintro s hs hemitted
    obtain rfl := Option.some.inj hs
    cases c with
    | none => exact absurd hemitted (by simp [opened])
    | some s => exact hc s rfl hemitted
  · rw [advance_ok h]
    rintro s hs -
    obtain rfl := Option.some.inj hs
    rfl

theorem last?_of_ok {c : Cursor} {r : CursorRequest} {z : Zoned} (h : (c.advance r).1 = .ok z) :
    (c.advance r).2.last? = some z := by
  rw [advance_ok h]
  rfl

theorem last?_of_error {c : Cursor} {r : CursorRequest} {e : StepFault}
    (h : (c.advance r).1 = .error e) : (c.advance r).2.last? = c.last? := by
  rw [advance_error h]
  cases c <;> rfl

/-- **A call hands out a date after the last one.** -/
theorem last?_lt {c : Cursor} {r : CursorRequest} {y z : Zoned} (hc : c.Settled) (hr : r.Forward)
    (hy : c.last? = some y) (h : (c.advance r).1 = .ok z) : y.utc < z.utc := by
  obtain ⟨s, rfl, hs⟩ := Option.bind_eq_some_iff.1 hy
  split at hs
  · rename_i hemitted
    obtain rfl := Option.some.inj hs
    have hend := hc s rfl hemitted
    have ht := target_eq_ok h
    simp only [target, opened, Option.getD_some, hend] at ht
    split at ht
    · -- the start lies ahead of the end and is handed out as it is
      rename_i hlt
      rw [← Except.ok.inj ht]
      exact hlt
    · rename_i hle
      have hstep := TimeUnit.shift_lt (keepsDay_startFor hr) ht (by have := hr.step_pos; omega)
      rcases startFor_of_emitted r hemitted with he | hlt
      · rw [← he]
        exact hstep
      · exact absurd hlt hle
  · exact absurd hs (by simp)

/-! ## Runs -/

theorem calls_cons (c : Cursor) (r : CursorRequest) (rest : List CursorRequest) :
    c.calls (r :: rest) =
      ⟨r, c, (c.advance r).1, (c.advance r).2⟩ :: (c.advance r).2.calls rest := rfl

theorem increasing_from (requests : List CursorRequest) : ∀ (c : Cursor), c.Settled →
    (∀ r ∈ requests, r.Forward) →
    (∀ y, c.last? = some y → ∀ z ∈ dates (c.calls requests), y.utc < z.utc) ∧
      (dates (c.calls requests)).Pairwise fun y z => y.utc < z.utc := by
  induction requests with
  | nil => exact fun c _ _ => ⟨fun _ _ z hz => absurd hz List.not_mem_nil, List.Pairwise.nil⟩
  | cons r rest ih =>
    intro c hc hreq
    obtain ⟨hr, hrest⟩ := List.forall_mem_cons.1 hreq
    obtain ⟨hlater, hpairs⟩ := ih _ (settled_advance hc r) hrest
    rcases h : (c.advance r).1 with e | z
    · have hd : dates (c.calls (r :: rest)) = dates ((c.advance r).2.calls rest) := by
        simp [dates, calls_cons, h, Except.toOption]
      rw [hd]
      exact ⟨fun y hy => hlater y (by rw [last?_of_error h]; exact hy), hpairs⟩
    · have hd : dates (c.calls (r :: rest)) = z :: dates ((c.advance r).2.calls rest) := by
        simp [dates, calls_cons, h, Except.toOption]
      have hz := hlater z (last?_of_ok h)
      rw [hd]
      refine ⟨fun y hy => ?_, List.pairwise_cons.2 ⟨hz, hpairs⟩⟩
      have hyz := last?_lt hc hr hy h
      exact List.forall_mem_cons.2 ⟨hyz, fun x hx => Moment.lt_trans hyz (hz x hx)⟩

theorem ends_after (requests : List CursorRequest) : ∀ (c : Cursor), ∀ call ∈ c.calls requests,
    (∀ z, call.outcome = .ok z → call.after = some ⟨z, z, true⟩) ∧
      ∀ e, call.outcome = .error e → call.after = some (call.before.opened call.request) := by
  induction requests with
  | nil => exact fun c call hcall => absurd hcall List.not_mem_nil
  | cons r rest ih =>
    intro c call hcall
    rcases List.mem_cons.1 hcall with rfl | hcall
    · exact ⟨fun z h => advance_ok h, fun e h => advance_error h⟩
    · exact ih _ call hcall

/-- **The cursor only moves forward.** Whatever requests follow each other from the first use on, the
    dates handed out are strictly later and later. A call that hands out a date leaves both ends at
    it; a call that fails leaves a cursor in use as it was, and puts both ends of a fresh one at the
    present. -/
theorem dates_increasing (requests : List CursorRequest) (h : ∀ r ∈ requests, r.Forward) :
    (dates (calls none requests)).Pairwise (fun y z => y.utc < z.utc) ∧
      ∀ call ∈ calls none requests,
        (∀ z, call.outcome = .ok z → call.after = some ⟨z, z, true⟩) ∧
        (∀ e s, call.outcome = .error e → call.before = some s → call.after = some s) ∧
        ∀ e, call.outcome = .error e → call.before = none →
          call.after = some ⟨call.request.now, call.request.now, false⟩ := by
  refine ⟨(increasing_from requests none settled_none h).2, fun call hcall => ?_⟩
  obtain ⟨hok, herror⟩ := ends_after requests none call hcall
  refine ⟨hok, fun e s he hs => ?_, fun e he hs => ?_⟩
  · rw [herror e he, hs]
    rfl
  · rw [herror e he, hs]
    rfl

/-- Two requests of one run: a day on from a reading that the clocks of Paris skip on the next day, and
    a month on from a candidate behind the cursor. -/
def dayAndMonth : List CursorRequest :=
  let evening : Moment :=
    { Moment.midnight ⟨2024, 3, 30, by decide, by decide, by decide, by decide⟩ with
      second := 5400, second_lt := by decide }
  [⟨⟨evening, paris⟩, none, .day, 1⟩, ⟨⟨evening, .utc⟩, some ⟨.midnight .epoch, paris⟩, .month, 1⟩]

theorem dates_increasing_dayAndMonth :
    (∀ r ∈ dayAndMonth, r.Forward) ∧
      (dates (calls none dayAndMonth)).Pairwise fun y z => y.utc < z.utc := by
  have hparis : paris.KeepsDay := paris_within.keepsDay (by decide)
  have hutc : Zone.utc.KeepsDay :=
    (fixed_within _ _ (le_refl 0) (le_refl 0)).keepsDay (by decide)
  have h : ∀ r ∈ dayAndMonth, r.Forward := by
    intro r hr
    simp only [dayAndMonth, List.mem_cons, List.not_mem_nil, or_false] at hr
    rcases hr with rfl | rfl
    · exact ⟨hparis, fun z hz => absurd hz (by simp), by decide⟩
    · exact ⟨hutc, fun z hz => Option.some.inj hz ▸ hparis, by decide⟩
  exact ⟨h, (dates_increasing dayAndMonth h).1⟩

end Cursor
end Recordsmith
