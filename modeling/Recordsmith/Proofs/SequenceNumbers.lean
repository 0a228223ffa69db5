import Recordsmith.Proofs.BatchAccounts
import Recordsmith.Proofs.Digits

/-!
# Sequence numbers of several workers

Workers that share a counter take consecutive numbers from it, in whatever order they ask.

* `Sequence.serve` are the numbers that a counter hands out, and `Sequence.serve_fresh`: a fresh one
  counts on from the first seed;
* `Serves` are the runs of a pool of works together with the numbers that they take, and
  `Serves.takes`: each work takes its own;
* `Work.Seeded` are works that ask for no seed beyond the greatest number, and
  `evaluateText_seeded`, `worker_seeded`: evaluations and workers do so;
* `sequence_consecutive`: the numbers of a pool have no gap, and none is taken twice.
-/

namespace Recordsmith

variable {σ α β : Type}

/-! ## The counter -/

namespace Sequence

/-- The numbers that a counter hands out for seeds, one after the other. -/
def serve (q : Sequence) : List (Option Int) → List Int
  | [] => []
  | seed :: rest => (q.next seed).1 :: serve (q.next seed).2 rest

/-- Where a fresh counter starts: at the first seed, if there is one. -/
def first (seeds : List (Option Int)) : Int := seeds.head?.join.getD initial

/-- A counter that has started counts on, up to the greatest number. -/
theorem serve_started {n : Int} (hn : n ≤ greatest) (seeds : List (Option Int)) :
    serve ⟨n, true⟩ seeds = (List.range seeds.length).map fun k : Nat => min (n + k) greatest := by
  induction seeds generalizing n with
  | nil => rfl
  | cons seed rest ih =>
    change n :: serve ⟨min (n + 1) greatest, true⟩ rest = _
    rw [ih (min_le_right _ _), List.length_cons, List.range_succ_eq_map, List.map_cons,
      List.map_map]
    refine congrArg₂ List.cons (by simp [hn]) (List.map_congr_left fun k _ => ?_)
    simp only [Function.comp_apply, Nat.cast_succ]
    omega

/-- **A fresh counter counts on from the first seed**, up to the greatest number; later seeds have
    no effect. -/
theorem serve_fresh {seeds : List (Option Int)} (h : first seeds ≤ greatest) :
    serve fresh seeds =
      (List.range seeds.length).map fun k : Nat => min (first seeds + k) greatest := by
  cases seeds with
  | nil => rfl
  | cons seed rest =>
    -- the first call leaves a counter that has started at its seed
    change serve ⟨first (seed :: rest), true⟩ (seed :: rest) = _
    rw [serve_started h]

end Sequence

/-! ## Numbers of a pool -/

/-- A number that a worker of a pool takes, and the seed that it asks with. -/
structure Serving where
  worker : Nat
  seed : Option Int
  number : Int
deriving DecidableEq

/-- Works that run side by side, of which any can break down at any time, and the numbers that they
    take, in the order in which they take them. -/
inductive Serves : List (Work α) → Shared → List Serving → List (Option α) → Shared → Prop
  | ended (results : List (Option α)) (s : Shared) :
      Serves (results.map Work.ended) s [] results s
  | next {pool : List (Work α)} {servings : List Serving} {results : List (Option α)}
      {s s' : Shared} {i : Nat} {seed : Option Int} {resume : Int → Work α} :
      pool[i]? = some (.next seed resume) →
      Serves (pool.set i (resume (s.sequence.next seed).1))
        { s with sequence := (s.sequence.next seed).2 } servings results s' →
      Serves pool s (⟨i, seed, (s.sequence.next seed).1⟩ :: servings) results s'
  | advance {pool : List (Work α)} {servings : List Serving} {results : List (Option α)}
      {s s' : Shared} {i : Nat} {request : CursorRequest}
      {resume : Except StepFault Zoned → Work α} : pool[i]? = some (.advance request resume) →
      Serves (pool.set i (resume (s.cursor.advance request).1))
        { s with cursor := (s.cursor.advance request).2 } servings results s' →
      Serves pool s servings results s'
  | fail {pool : List (Work α)} {servings : List Serving} {results : List (Option α)}
      {s s' : Shared} (i : Nat) : Serves (pool.set i .crash) s servings results s' →
      Serves pool s servings results s'

variable {pool : List (Work α)} {servings : List Serving} {results : List (Option α)}
  {s s' : Shared}

/-- Every run of a pool takes some numbers. -/
theorem interrupted_iff_serves :
    Interrupted pool s results s' ↔ ∃ servings, Serves pool s servings results s' := by
  constructor
  · intro h
    induction h with
    | ended results s => exact ⟨[], .ended results s⟩
    | step hw hstep _ ih =>
      obtain ⟨servings, ih⟩ := ih
      cases hstep with
      | next => exact ⟨_, .next hw ih⟩
      | advance => exact ⟨_, .advance hw ih⟩
    | fail i _ ih =>
      obtain ⟨servings, ih⟩ := ih
      exact ⟨servings, .fail i ih⟩
  · rintro ⟨servings, h⟩
    induction h with
    | ended results s => exact .ended results s
    | next hw _ ih => exact .step hw .next ih
    | advance hw _ ih => exact .step hw .advance ih
    | fail i _ ih => exact .fail i ih

/-- The numbers of a pool are those that the counter hands out for its seeds. -/
theorem Serves.numbers (h : Serves pool s servings results s') :
    servings.map Serving.number = s.sequence.serve (servings.map Serving.seed) := by
  induction h with
  | ended => rfl
  | next _ _ ih => exact congrArg (List.cons _) ih
  | advance _ _ ih => exact ih
  | fail _ _ ih => exact ih

/-! ## Numbers of a worker -/

/-- The numbers of one worker of a pool, with their seeds. -/
def ownNumbers (i : Nat) (servings : List Serving) : List (Option Int × Int) :=
  (servings.filter (·.worker = i)).map fun v => (v.seed, v.number)

theorem ownNumbers_cons_self (i : Nat) (seed : Option Int) (n : Int) (servings : List Serving) :
    ownNumbers i (⟨i, seed, n⟩ :: servings) = (seed, n) :: ownNumbers i servings := by
  simp [ownNumbers]

theorem ownNumbers_cons_of_ne {v : Serving} {i : Nat} (h : v.worker ≠ i)
    (servings : List Serving) : ownNumbers i (v :: servings) = ownNumbers i servings := by
  simp [ownNumbers, h]

namespace Work

/-- The work takes these numbers, each with its seed, before it comes to this end. -/
inductive Takes : Work α → List (Option Int × Int) → Option α → Prop
  | done (a : α) : Takes (.done a) [] (some a)
  | fail (w : Work α) : Takes w [] none
  | next {seed : Option Int} {resume : Int → Work α} {taken : List (Option Int × Int)}
      {r : Option α} (n : Int) : Takes (resume n) taken r →
      Takes (.next seed resume) ((seed, n) :: taken) r
  | advance {request : CursorRequest} {resume : Except StepFault Zoned → Work α}
      {taken : List (Option Int × Int)} {r : Option α} (answer : Except StepFault Zoned) :
      Takes (resume answer) taken r → Takes (.advance request resume) taken r

end Work

theorem Work.Takes.of_crash {taken : List (Option Int × Int)} {r : Option α}
    (h : (Work.crash : Work α).Takes taken r) : taken = [] ∧ r = none := by
  cases h
  exact ⟨rfl, rfl⟩

/-- **Each work of a pool takes its own numbers**, whatever the others do. -/
theorem Serves.takes (h : Serves pool s servings results s') {j : Nat} {r : Option α}
    (hr : results[j]? = some r) : ∃ w, pool[j]? = some w ∧ w.Takes (ownNumbers j servings) r := by
  induction h with
  | ended results s =>
    refine ⟨Work.ended r, by rw [List.getElem?_map, hr, Option.map_some], ?_⟩
    cases r with
    | none => exact .fail _
    | some a => exact .done a
  | next hw _ ih =>
    obtain ⟨v, hv, htakes⟩ := ih hr
    obtain ⟨rfl, rfl⟩ | ⟨hne, hv⟩ := eq_of_getElem?_set hv
    · rw [ownNumbers_cons_self]
      exact ⟨_, hw, .next _ htakes⟩
    · rw [ownNumbers_cons_of_ne hne]
      exact ⟨v, hv, htakes⟩
  | advance hw _ ih =>
    obtain ⟨v, hv, htakes⟩ := ih hr
    obtain ⟨rfl, rfl⟩ | ⟨-, hv⟩ := eq_of_getElem?_set hv
    · exact ⟨_, hw, .advance _ htakes⟩
    · exact ⟨v, hv, htakes⟩
  | @fail pool servings _ _ _ i _ ih =>
    obtain ⟨v, hv, htakes⟩ := ih hr
    rcases eq_of_getElem?_set hv with ⟨rfl, rfl⟩ | ⟨-, hv⟩
    · -- the work took its last number before it broke down
      have hi : i < pool.length := by
        simpa using (List.getElem?_eq_some_iff.1 hv).1
      obtain ⟨hown, rfl⟩ := htakes.of_crash
      rw [hown]
      exact ⟨pool[i], List.getElem?_eq_getElem hi, .fail _⟩
    · exact ⟨v, hv, htakes⟩

/-! ## Seeds -/

namespace Work

/-- The work asks for no seed beyond the greatest number. -/
inductive Seeded : Work α → Prop
  | done (a : α) : Seeded (.done a)
  | crash : Seeded .crash
  | next {seed : Option Int} {resume : Int → Work α} : (∀ n ∈ seed, n ≤ Sequence.greatest) →
      (∀ n, Seeded (resume n)) → Seeded (.next seed resume)
  | advance {request : CursorRequest} {resume : Except StepFault Zoned → Work α} :
      (∀ answer, Seeded (resume answer)) → Seeded (.advance request resume)

theorem Seeded.bind {w : Work α} {f : α → Work β} (hw : w.Seeded) (hf : ∀ a, (f a).Seeded) :
    (w.bind f).Seeded := by
  induction hw with
  | done a => exact hf a
  | crash => exact .crash
  | next hseed _ ih => exact .next hseed ih
  | advance _ ih => exact .advance ih

end Work

/-- No work of a pool is served with a seed beyond the greatest number. -/
theorem Serves.seed_le (h : Serves pool s servings results s') (hpool : ∀ w ∈ pool, w.Seeded) :
    ∀ v ∈ servings, ∀ n ∈ v.seed, n ≤ Sequence.greatest := by
  have hset : ∀ {pool : List (Work α)} {i : Nat} {w : Work α}, (∀ v ∈ pool, v.Seeded) →
      w.Seeded → ∀ v ∈ pool.set i w, v.Seeded := by
    intro pool i w hpool hw v hv
    rcases List.mem_or_eq_of_mem_set hv with hv | rfl
    · exact hpool v hv
    · exact hw
  induction h with
  | ended => exact fun v hv => absurd hv List.not_mem_nil
  | next hw _ ih =>
    cases hpool _ (List.mem_of_getElem? hw) with
    | next hseed hresume =>
      exact List.forall_mem_cons.2 ⟨hseed, ih (hset hpool (hresume _))⟩
  | advance hw _ ih =>
    cases hpool _ (List.mem_of_getElem? hw) with
    | advance hresume => exact ih (hset hpool (hresume _))
  | fail _ _ ih => exact ih (hset hpool .crash)

/-- The computation asks for no seed beyond the greatest number. -/
def Gen.Seeded (g : Gen σ α) : Prop := ∀ l, (g l).Seeded

theorem Gen.Seeded.stepwise : Gen.Stepwise (σ := σ) Gen.Seeded where
  pure _ _ := .done _
  bind hg hf l := (hg l).bind fun p => hf p.1 p.2
  draw _ _ := .done _
  crash _ := .crash
  leftOut _ := .done _
  fallback _ := .done _
  get hf _ l := hf l l

theorem Gen.Seeded.closed : Gen.Closed (σ := σ) Gen.Seeded :=
  Seeded.stepwise.closed fun _ _ => .done _

/-! ## Reading seeds -/

/-- An integer that is read is not beyond the range. -/
theorem readInteger_le {range : IntegerRange} (hrange : 0 ≤ range.max) {t : Text} {n : Int}
    (h : readInteger range t = .ok n) : n ≤ range.max := by
  unfold readInteger at h
  split at h
  case h_1 | h_2 | h_3 => cases h
  case h_4 | h_6 =>
    obtain ⟨-, hle, rfl⟩ := map_readDigits_eq_ok_iff.1 h
    rw [Int.ofNat_eq_natCast]
    omega
  case h_5 =>
    split at h
    · obtain ⟨-, -, rfl⟩ := map_readDigits_eq_ok_iff.1 h
      rw [Int.ofNat_eq_natCast]
      omega
    · cases h

/-- The seed of a call is the optional integer that is its first argument. -/
def Call.seed (c : Call) : Except Failure (Option Int) := c.number? (readIntegerArgument .int64) 0

theorem Call.seed_le {c : Call} {seed : Option Int} (h : c.seed = .ok seed) :
    ∀ n ∈ seed, n ≤ Sequence.greatest := by
  rintro n rfl
  unfold Call.seed Call.number? at h
  split at h
  · cases h
  · split at h
    · cases h
    · obtain ⟨m, hm, hn⟩ := map_eq_ok h
      rw [← Option.some.inj hn]
      exact readInteger_le (by decide) (mapError_eq_ok (mapError_eq_ok hm))

/-! ## Evaluations -/

section

variable {self : Text → Gen σ Value}

/-- A call of the sequence takes one number, unless its seed cannot be read. -/
theorem Function.apply_sequence [WordSource σ] (now : Moment) (c : Call) (l : Local σ) :
    (Function.apply now self .sequence c).run l = match c.seed with
      | .ok seed => .next seed fun n => .done (.ok (.long n), l)
      | .error e => .done (.error e, l) := by
  change (do
    let seed ← liftM c.seed
    pure (.long (← ExceptT.lift (Gen.nextNumber seed))) : Attempt σ Value).run l = _
  cases c.seed <;> rfl

theorem invoke_seeded [WordSource σ] (hself : ∀ t, (self t).Seeded) (now : Moment) (f : Function)
    (c : Call) (t : Text) : (invoke now self f c t).Seeded := by
  have happly : Gen.Seeded (f.apply now self c).run := by
    cases hshared : f.usesShared with
    | false =>
      exact Function.apply_closed Gen.Seeded.closed hself now
        (fun h => absurd (hshared.symm.trans h) Bool.false_ne_true) c
    | true =>
      cases f with
      | sequence =>
        intro l
        rw [Function.apply_sequence]
        cases hseed : c.seed with
        | ok seed => exact .next (Call.seed_le hseed) fun n => .done _
        | error e => exact .done _
      | dateSequence =>
        exact Function.applyDateSequence_closed Gen.Seeded.closed
          (fun r l => .advance fun answer => .done _) now c
      | _ => cases hshared
  rw [invoke_eq]
  exact Gen.Seeded.closed.bind (fun l => .done _) fun _ =>
    carryOut_of_apply Gen.Seeded.closed happly t

/-- **Evaluations ask for no seed beyond the greatest number.** -/
theorem evaluateText_seeded [WordSource σ] (now : Moment) (t : Text) :
    (evaluateText now t : Gen σ Value).Seeded :=
  evaluateText_closed Gen.Seeded.closed now (fun _ hself f c t _ => invoke_seeded hself now f c t) t

end

theorem worker_seeded (o : Options) (c : Conditions) (root : Json) (i : Nat) :
    (Engine.worker o c root i).Seeded := by
  rw [Engine.worker_eq]
  have hevents : Gen.Seeded (Walk.events (evaluateLeaf c.now) root o.recordCount) :=
    Walk.events_closed Gen.Seeded.closed
      (evaluateLeafWith_closed Gen.Seeded.closed (evaluateText_seeded (σ := ChaCha) c.now)) root
      o.recordCount
  exact (hevents _).bind fun p => .done _

/-! ## Values of texts -/

section

variable [WordSource σ]

/-- **A text that calls the sequence takes one number**, which is its value. If its seed cannot be
    read, it takes none and stays as it was written. -/
theorem evaluateText_sequence (now : Moment) {t : Text} {c : Call}
    (h : dispatch? t = some (.sequence, c)) (l : Local σ) :
    evaluateText now t l = match c.seed with
      | .ok seed => .next seed fun n =>
          .done (.long n, { l with report := l.report.recordUse c.name })
      | .error _ => .done (literalValue t,
          { l with report := (l.report.recordUse c.name).recordFallback }) := by
  rw [evaluateText_of_dispatch? h, invoke_eq]
  change ((Function.apply now (evaluateText now) .sequence c).run
    { l with report := l.report.recordUse c.name }).bind _ = _
  rw [Function.apply_sequence]
  cases c.seed <;> rfl

/-- Evaluates texts one after the other. -/
def evaluateTexts (now : Moment) : List Text → Gen σ (List Value)
  | [] => pure []
  | t :: rest => do
    let v ← evaluateText now t
    let others ← evaluateTexts now rest
    pure (v :: others)

theorem evaluateTexts_nil (now : Moment) (l : Local σ) :
    evaluateTexts now [] l = .done ([], l) := rfl

theorem evaluateTexts_cons (now : Moment) (t : Text) (rest : List Text) (l : Local σ) :
    evaluateTexts now (t :: rest) l = (evaluateText now t l).bind fun p =>
      (evaluateTexts now rest p.2).bind fun q => .done (p.1 :: q.1, q.2) := rfl

theorem evaluateTexts_seeded (now : Moment) : ∀ ts : List Text,
    (evaluateTexts now ts : Gen σ (List Value)).Seeded
  | [] => Gen.Seeded.closed.pure _
  | t :: rest => Gen.Seeded.closed.bind (evaluateText_seeded now t) fun _ =>
    Gen.Seeded.closed.bind (evaluateTexts_seeded now rest) fun _ => Gen.Seeded.closed.pure _

end

/-- The values of texts that call the sequence: a number for each text, in their order, or the text
    itself if its seed cannot be read. -/
inductive Answered : List Text → List (Option Int × Int) → List Value → Prop
  | nil : Answered [] [] []
  | taken {t : Text} {ts : List Text} {c : Call} {seed : Option Int} {n : Int}
      {numbers : List (Option Int × Int)} {values : List Value} :
      dispatch? t = some (.sequence, c) → c.seed = .ok seed → Answered ts numbers values →
      Answered (t :: ts) ((seed, n) :: numbers) (.long n :: values)
  | refused {t : Text} {ts : List Text} {c : Call} {e : Failure}
      {numbers : List (Option Int × Int)} {values : List Value} :
      dispatch? t = some (.sequence, c) → c.seed = .error e → Answered ts numbers values →
      Answered (t :: ts) numbers (literalValue t :: values)

theorem Work.Takes.of_bind_done {w : Work α} {f : α → β} {taken : List (Option Int × Int)} {b : β}
    (h : (w.bind fun a => .done (f a)).Takes taken (some b)) :
    ∃ a, w.Takes taken (some a) ∧ f a = b := by
  induction w generalizing taken with
  | done a =>
    cases h
    exact ⟨a, .done a, rfl⟩
  | crash => cases h
  | next seed resume ih =>
    cases h with
    | next n h =>
      obtain ⟨a, ha, hb⟩ := ih n h
      exact ⟨a, .next n ha, hb⟩
  | advance request resume ih =>
    cases h with
    | advance answer h =>
      obtain ⟨a, ha, hb⟩ := ih answer h
      exact ⟨a, .advance answer ha, hb⟩

/-- **Texts that call the sequence have the numbers as values that their worker takes.** -/
theorem answered_of_takes [WordSource σ] (now : Moment) {ts : List Text}
    (hts : ∀ t ∈ ts, ∃ c, dispatch? t = some (.sequence, c)) {l l' : Local σ}
    {taken : List (Option Int × Int)} {values : List Value}
    (h : (evaluateTexts now ts l).Takes taken (some (values, l'))) : Answered ts taken values := by
  induction ts generalizing l taken values with
  | nil =>
    cases h
    exact .nil
  | cons t rest ih =>
    obtain ⟨⟨c, hc⟩, hrest⟩ := List.forall_mem_cons.1 hts
    rw [evaluateTexts_cons, evaluateText_sequence now hc] at h
    cases hseed : c.seed with
    | ok seed =>
      simp only [hseed, Work.bind] at h
      cases h with
      | next n h =>
        obtain ⟨⟨others, l₁⟩, hothers, hvalues⟩ := h.of_bind_done
        obtain ⟨rfl, rfl⟩ := Prod.mk.inj hvalues
        exact .taken hc hseed (ih hrest hothers)
    | error e =>
      simp only [hseed, Work.bind] at h
      obtain ⟨⟨others, l₁⟩, hothers, hvalues⟩ := h.of_bind_done
      obtain ⟨rfl, rfl⟩ := Prod.mk.inj hvalues
      exact .refused hc hseed (ih hrest hothers)

/-! ## Consecutive numbers -/

/-- Where the numbers of a pool start: at the seed of the first one, if it has one. -/
def Serving.start (servings : List Serving) : Int := Sequence.first (servings.map Serving.seed)

/-- The numbers count on from the start, up to the greatest number. Unless they come so far, no
    number is left out and none is taken twice, and the numbers of each worker increase. -/
structure Consecutive (servings : List Serving) : Prop where
  numbers : servings.map Serving.number = (List.range servings.length).map fun k : Nat =>
    min (Serving.start servings + k) Sequence.greatest
  gapFree : Serving.start servings + servings.length ≤ Sequence.greatest + 1 →
    servings.map Serving.number = (List.range servings.length).map fun k : Nat =>
      Serving.start servings + k
  increasing : Serving.start servings + servings.length ≤ Sequence.greatest + 1 →
    ∀ i, ((ownNumbers i servings).map Prod.snd).Pairwise (· < ·)

/-- Numbers that count on from a start have no gap before the greatest number. -/
theorem consecutive_of_numbers
    (h : servings.map Serving.number = (List.range servings.length).map fun k : Nat =>
      min (Serving.start servings + k) Sequence.greatest) : Consecutive servings := by
  have hgapFree : Serving.start servings + servings.length ≤ Sequence.greatest + 1 →
      servings.map Serving.number = (List.range servings.length).map fun k : Nat =>
        Serving.start servings + k := by
    intro hroom
    rw [h]
    refine List.map_congr_left fun k hk => min_eq_left ?_
    have hlt : k < servings.length := List.mem_range.1 hk
    omega
  refine ⟨h, hgapFree, fun hroom i => ?_⟩
  have hall : (servings.map Serving.number).Pairwise (· < ·) := by
    rw [hgapFree hroom, List.pairwise_map]
    exact List.pairwise_lt_range.imp fun hlt => by omega
  have hown : (ownNumbers i servings).map Prod.snd =
      (servings.filter (·.worker = i)).map Serving.number := by
    simp [ownNumbers, Function.comp_def]
  rw [hown]
  exact hall.sublist (List.filter_sublist.map _)

theorem Serves.consecutive (h : Serves pool s servings results s') (hfresh : s.sequence = .fresh)
    (hpool : ∀ w ∈ pool, w.Seeded) : Consecutive servings := by
  have hstart : Serving.start servings ≤ Sequence.greatest := by
    cases servings with
    | nil => decide
    | cons v rest =>
      cases hseed : v.seed with
      | none => simp [Serving.start, Sequence.first, hseed, Sequence.initial, Sequence.greatest]
      | some n =>
        have hn := h.seed_le hpool v List.mem_cons_self n hseed
        simpa [Serving.start, Sequence.first, hseed] using hn
  have hnumbers := h.numbers
  rw [hfresh, Sequence.serve_fresh hstart, List.length_map] at hnumbers
  exact consecutive_of_numbers hnumbers

/-- **The numbers of several workers are consecutive.** A text that calls the sequence takes one
    number, or none if its seed cannot be read. Let a pool of workers start with a fresh counter,
    and ask for no greater seed than can be read. In whatever order they take their numbers, and
    whichever of them break down, the numbers count on from the first seed without a gap, and each
    worker goes on with its own. -/
theorem sequence_consecutive [WordSource σ] (now : Moment) :
    (∀ t c (l : Local σ), dispatch? t = some (.sequence, c) →
      (∀ seed, c.seed = .ok seed → evaluateText now t l = .next seed fun n =>
        .done (.long n, { l with report := l.report.recordUse c.name })) ∧
      ∀ e, c.seed = .error e → evaluateText now t l =
        .done (literalValue t, { l with report := (l.report.recordUse c.name).recordFallback })) ∧
    (∀ t, (evaluateText now t : Gen σ Value).Seeded) ∧
    (∀ o c root i, (Engine.worker o c root i).Seeded) ∧
    (∀ (pool : List (Work α)) s servings results s', s.sequence = .fresh →
      (∀ w ∈ pool, w.Seeded) → Serves pool s servings results s' →
        Consecutive servings ∧ ∀ i r, results[i]? = some r →
          ∃ w : Work α, pool[i]? = some w ∧ w.Takes (ownNumbers i servings) r) ∧
    ∀ (jobs : List (Local σ × List Text)) s servings results s', s.sequence = .fresh →
      (∀ job ∈ jobs, ∀ t ∈ job.2, ∃ c, dispatch? t = some (.sequence, c)) →
      Serves (jobs.map fun job => evaluateTexts now job.2 job.1) s servings results s' →
        Consecutive servings ∧ ∀ i values l', results[i]? = some (some (values, l')) →
          ∃ job, jobs[i]? = some job ∧ Answered job.2 (ownNumbers i servings) values := by
  refine ⟨fun t c l h => ⟨fun seed hseed => ?_, fun e hseed => ?_⟩, evaluateText_seeded now,
    worker_seeded, fun pool s servings results s' hfresh hpool h => ?_,
    fun jobs s servings results s' hfresh hjobs h => ⟨?_, fun i values l' hr => ?_⟩⟩
  · rw [evaluateText_sequence now h, hseed]
  · rw [evaluateText_sequence now h, hseed]
  · exact ⟨h.consecutive hfresh hpool, fun i r hr => h.takes hr⟩
  · refine h.consecutive hfresh (List.forall_mem_map.2 fun job _ => ?_)
    exact evaluateTexts_seeded now job.2 job.1
  · obtain ⟨w, hw, htakes⟩ := h.takes hr
    rw [List.getElem?_map] at hw
    obtain ⟨job, hjob, rfl⟩ := Option.map_eq_some_iff.1 hw
    exact ⟨job, hjob, answered_of_takes now (hjobs job (List.mem_of_getElem? hjob)) htakes⟩

/-- Two workers with texts that call the sequence; one of the texts has no seed that can be read. -/
def seedings : List (Local Replay × List Text) :=
  [(.start ⟨[], 0⟩ 0, ["seq(100)".toList, "seq(x)".toList]),
    (.start ⟨[], 0⟩ 0, ["seq(7)".toList, "seq".toList])]

/-- The numbers that they take, if the first worker is served first. -/
def seededServings : List Serving := [⟨0, some 100, 100⟩, ⟨1, some 7, 101⟩, ⟨1, none, 102⟩]

/-- What the workers have then made. -/
def seededValues : List (List Value × Local Replay) :=
  [([.long 100, .text "seq(x)".toList],
      ⟨⟨[], 0⟩, 0, { usage := [("seq".toList, 2)], fallbacks := 1 }⟩),
    ([.long 101, .long 102], ⟨⟨[], 0⟩, 0, { usage := [("seq".toList, 2)] }⟩)]

theorem serves_seedings :
    Serves (seedings.map fun job => evaluateTexts (.midnight .epoch) job.2 job.1) .fresh
      seededServings (seededValues.map some) ⟨⟨103, true⟩, none⟩ := by
  have hseed : ∀ l : Local Replay, evaluateText (.midnight .epoch) "seq(100)".toList l =
      .next (some 100) fun n =>
        .done (.long n, { l with report := l.report.recordUse "seq".toList }) := fun _ => rfl
  have hword : ∀ l : Local Replay, evaluateText (.midnight .epoch) "seq(x)".toList l =
      .done (.text "seq(x)".toList,
        { l with report := (l.report.recordUse "seq".toList).recordFallback }) := fun _ => rfl
  have hlate : ∀ l : Local Replay, evaluateText (.midnight .epoch) "seq(7)".toList l =
      .next (some 7) fun n =>
        .done (.long n, { l with report := l.report.recordUse "seq".toList }) := fun _ => rfl
  have hnone : ∀ l : Local Replay, evaluateText (.midnight .epoch) "seq".toList l =
      .next none fun n =>
        .done (.long n, { l with report := l.report.recordUse "seq".toList }) := fun _ => rfl
  simp only [seedings, List.map_cons, List.map_nil, evaluateTexts_cons, evaluateTexts_nil, hseed,
    hword, hlate, hnone, Work.bind]
  refine .next (i := 0) rfl (.next (i := 1) rfl (.next (i := 1) rfl ?_))
  exact .ended (seededValues.map some) ⟨⟨103, true⟩, none⟩

theorem sequence_consecutive_seedings :
    (∀ job ∈ seedings, ∀ t ∈ job.2, ∃ c, dispatch? t = some (.sequence, c)) ∧
    Serves (seedings.map fun job => evaluateTexts (.midnight .epoch) job.2 job.1) .fresh
      seededServings (seededValues.map some) ⟨⟨103, true⟩, none⟩ ∧
    Consecutive seededServings ∧
    Answered ["seq(100)".toList, "seq(x)".toList] [(some 100, 100)]
      [.long 100, .text "seq(x)".toList] ∧
    Answered ["seq(7)".toList, "seq".toList] [(some 7, 101), (none, 102)]
      [.long 101, .long 102] := by
  have hcalls : ∀ job ∈ seedings, ∀ t ∈ job.2, ∃ c, dispatch? t = some (.sequence, c) := by
    refine List.forall_mem_cons.2 ⟨?_, List.forall_mem_singleton.2 ?_⟩
    · exact List.forall_mem_cons.2 ⟨⟨_, rfl⟩, List.forall_mem_singleton.2 ⟨_, rfl⟩⟩
    · exact List.forall_mem_cons.2 ⟨⟨_, rfl⟩, List.forall_mem_singleton.2 ⟨_, rfl⟩⟩
  obtain ⟨-, -, -, -, hjobs⟩ := sequence_consecutive (σ := Replay) (α := Value) (.midnight .epoch)
  obtain ⟨hconsecutive, hvalues⟩ := hjobs seedings _ _ _ _ rfl hcalls serves_seedings
  obtain ⟨job₁, hjob₁, hanswered₁⟩ := hvalues 0 _ _ rfl
  obtain ⟨job₂, hjob₂, hanswered₂⟩ := hvalues 1 _ _ rfl
  cases hjob₁
  cases hjob₂
  exact ⟨hcalls, serves_seedings, hconsecutive, hanswered₁, hanswered₂⟩

end Recordsmith
