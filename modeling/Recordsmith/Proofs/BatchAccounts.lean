import Recordsmith.Proofs.Interleaving

/-!
# What a batch accounts for

Any worker of a batch can break down, and the batch still accounts for all of them.

* `Interrupted` are the runs of a pool of works, of which any can break down at any time;
* `Gen.Keeps` is a property of reports that every count keeps, and `Engine.made_of_worker`: a worker
  counts its own records, and no worker that broke down;
* `Engine.Ends` are the ends of a batch, whatever its workers do;
* `Engine.Accounted`: the batch has the records of the workers that ended, and its counts are theirs
  taken together, and `Engine.batch_accounted`: so ends every batch whose workers can be listed.
-/

namespace Recordsmith

variable {σ α β : Type}

/-! ## Works that break down -/

/-- Works that run side by side. One of them uses what is shared or breaks down, and so on, until
    all have ended. -/
inductive Interrupted : List (Work α) → Shared → List (Option α) → Shared → Prop
  | ended (results : List (Option α)) (s : Shared) :
      Interrupted (results.map Work.ended) s results s
  | step {pool : List (Work α)} {results : List (Option α)} {s s₁ s' : Shared} {i : Nat}
      {w w' : Work α} : pool[i]? = some w → Work.Step w s w' s₁ →
      Interrupted (pool.set i w') s₁ results s' → Interrupted pool s results s'
  | fail {pool : List (Work α)} {results : List (Option α)} {s s' : Shared} (i : Nat) :
      Interrupted (pool.set i .crash) s results s' → Interrupted pool s results s'

namespace Interrupted

variable {pool : List (Work α)} {results : List (Option α)} {s s' : Shared}

/-- Works need not break down. -/
theorem of_interleaved (h : Interleaved pool s results s') : Interrupted pool s results s' := by
  induction h with
  | ended results s => exact .ended results s
  | step hw hstep _ ih => exact .step hw hstep ih

theorem length (h : Interrupted pool s results s') : results.length = pool.length := by
  induction h with
  | ended results s => rw [List.length_map]
  | step _ _ _ ih => rw [ih, List.length_set]
  | fail _ _ ih => rw [ih, List.length_set]

/-- **A work that ends with a result comes to an end of its own**, whatever happens to the others.
    -/
theorem endsAs (h : Interrupted pool s results s') {i : Nat} {a : α}
    (ha : results[i]? = some (some a)) : ∃ w, pool[i]? = some w ∧ w.EndsAs (some a) := by
  induction h with
  | ended results s =>
    refine ⟨.done a, ?_, .done a⟩
    rw [List.getElem?_map, ha, Option.map_some]
    rfl
  | step hw hstep _ ih =>
    obtain ⟨v, hv, hend⟩ := ih ha
    obtain ⟨rfl, rfl⟩ | ⟨-, hv⟩ := eq_of_getElem?_set hv
    · exact ⟨_, hw, hstep.endsAs hend⟩
    · exact ⟨v, hv, hend⟩
  | fail i _ ih =>
    obtain ⟨v, hv, hend⟩ := ih ha
    obtain ⟨-, rfl⟩ | ⟨-, hv⟩ := eq_of_getElem?_set hv
    · cases hend
    · exact ⟨v, hv, hend⟩

end Interrupted

/-! ## Counts of a worker -/

/-- Every count that a worker makes keeps the property of its report. -/
structure Report.Kept (I : Report → Prop) : Prop where
  use : ∀ {r : Report} (name : Text), I r → I (r.recordUse name)
  fallback : ∀ {r : Report}, I r → I r.recordFallback
  unsupported : ∀ {r : Report}, I r → I r.recordUnsupported

/-- If the report has the property at the start, it has it in the end. -/
def Gen.Keeps (I : Report → Prop) (g : Gen σ α) : Prop :=
  ∀ ⦃l a l'⦄, g.Reaches l a l' → I l.report → I l'.report

section

variable {I : Report → Prop}

namespace Gen.Keeps

/-- A property of reports that counts keep is a preorder of the states of a worker. -/
theorem followed (h : Report.Kept I) :
    Gen.Followed (σ := σ) fun l l' => I l.report → I l'.report where
  refl _ := id
  trans h₁ h₂ := h₂ ∘ h₁
  source _ _ := id
  leftOut _ := h.unsupported
  fallback _ := h.fallback

theorem closed (h : Report.Kept I) : Gen.Closed (σ := σ) (Gen.Keeps I) :=
  (Gen.Moves.stepwise (followed h)).closed fun n =>
    Gen.Moves.of_done fun l => ⟨(), { l with nested := n }, rfl, id⟩

theorem nextNumber (seed : Option Int) : (Gen.nextNumber seed : Gen σ Int).Keeps I :=
  Gen.Moves.nextNumber (fun _ => id) seed

theorem nextDate (request : CursorRequest) :
    (Gen.nextDate request : Gen σ (Except StepFault Zoned)).Keeps I :=
  Gen.Moves.nextDate (fun _ => id) request

end Gen.Keeps

/-- **What every count keeps of a report, every evaluation keeps.** -/
theorem evaluateLeaf_keeps [WordSource σ] (h : Report.Kept I) (now : Moment) (node : Json) :
    (evaluateLeaf now node : Gen σ Value).Keeps I := by
  have hclosed := Gen.Keeps.closed (σ := σ) h
  refine evaluateLeafWith_closed hclosed (fun t => evaluateText_closed hclosed now ?_ t) node
  intro self hself f c t _
  rw [invoke_eq]
  exact hclosed.bind (Gen.Moves.of_done fun _ => ⟨(), _, rfl, h.use c.name⟩) fun _ =>
    carryOut_closed hclosed hself now (fun _ => ⟨Gen.Keeps.nextNumber, Gen.Keeps.nextDate⟩) c t

end

/-! ## Ends of a batch -/

namespace Engine

variable {o : Options} {c : Conditions} {root : Json}

/-- What a worker makes: its report counts its own records, its uses in the order of their names,
    and no worker that broke down. -/
structure Made (o : Options) (g : Generated) : Prop where
  requested : g.report.requested = o.recordCount
  generated : g.report.generated = g.records.length
  failures : g.report.workerFailures = 0
  ordered : g.report.usage.Ordered

theorem made_of_worker {i : Nat} {g : Generated} (h : (worker o c root i).EndsAs (some g)) :
    Made o g := by
  obtain ⟨l, hreach, hg⟩ := endsAs_worker h
  have hkept : Report.Kept fun r => r.workerFailures = 0 ∧ r.usage.Ordered :=
    ⟨fun name hr => ⟨hr.1, Tally.ordered_add name 1 hr.2⟩, id, id⟩
  obtain ⟨hfailures, hordered⟩ := Walk.events_closed (Gen.Keeps.closed hkept)
    (evaluateLeaf_keeps hkept c.now) root o.recordCount hreach ⟨rfl, List.Pairwise.nil⟩
  refine ⟨requested_worker h, ?_, ?_, ?_⟩ <;> rw [hg]
  · rfl
  · exact hfailures
  · exact hordered

/-- The ends of a batch whose workers use what they share in any order, and of which any can break
    down at any time. The batch itself breaks down if its workers cannot be listed, or if more
    records are requested than can be counted. -/
inductive Ends (o : Options) (c : Conditions) (template : Text) (s : Shared) :
    Outcome → Shared → Prop
  | failed {failure : Failure} : (do o.validate; Template.parse template) = .error failure →
      Ends o c template s (.failed failure) s
  | crashed {root : Json} : (do o.validate; Template.parse template) = .ok root →
      maxBytes < o.workerCount * handleBytes → Ends o c template s .crashed s
  | overflowed {root : Json} {results : List (Option Generated)} {s' : Shared} :
      (do o.validate; Template.parse template) = .ok root →
      o.workerCount * handleBytes ≤ maxBytes →
      Interrupted ((List.range o.workerCount).map (worker o c root)) s results s' →
      assemble o results = none → Ends o c template s .crashed s'
  | generated {root : Json} {results : List (Option Generated)} {g : Generated} {s' : Shared} :
      (do o.validate; Template.parse template) = .ok root →
      o.workerCount * handleBytes ≤ maxBytes →
      Interrupted ((List.range o.workerCount).map (worker o c root)) s results s' →
      assemble o results = some g → Ends o c template s (.generated g) s'

/-- One worker after the other, and none of them interrupted, is such an end. -/
theorem ends_runBatch (o : Options) (c : Conditions) (template : Text) (s : Shared) :
    Ends o c template s (runBatch o c template s).1 (runBatch o c template s).2 := by
  unfold runBatch
  split
  · exact .failed ‹_›
  · rename_i root hroot
    split
    · exact .crashed hroot ‹_›
    · have hruns := Interrupted.of_interleaved
        (interleaved_runWorkers (worker o c root) (List.range o.workerCount) s)
      dsimp only
      split
      · exact .generated hroot (not_lt.1 ‹_›) hruns ‹_›
      · exact .overflowed hroot (not_lt.1 ‹_›) hruns ‹_›

/-! ## Accounts -/

/-- What the workers that ended have made, in their order. -/
def survivors (results : List (Option Generated)) : List Generated := results.filterMap id

/-- The batch accounts for its workers: it has the records of those that ended, one worker after the
    other, and counts what their reports count taken together. A worker that broke down counts as
    such, and its records as requested. -/
structure Accounted (o : Options) (results : List (Option Generated)) (g : Generated) : Prop where
  records : g.records = (survivors results).flatMap Generated.records
  generated : g.report.generated = g.records.length
  requested : g.report.requested = results.length * o.recordCount
  failures : g.report.workerFailures = results.countP Option.isNone
  ordered : g.report.usage.Ordered
  names : ∀ name, name ∈ g.report.usage.names ↔
    ∃ made ∈ survivors results, name ∈ made.report.usage.names
  usage : ∀ name, g.report.usage.count name =
    ((survivors results).map fun made => made.report.usage.count name).sum
  fallbacks : g.report.fallbacks = ((survivors results).map fun made => made.report.fallbacks).sum
  unsupported : g.report.unsupported =
    ((survivors results).map fun made => made.report.unsupported).sum

theorem accounted_nil (o : Options) : Accounted o [] ⟨[], .empty⟩ where
  records := rfl
  generated := rfl
  requested := by simp [Report.empty]
  failures := rfl
  ordered := List.Pairwise.nil
  names name := by simp [survivors, Report.empty, Tally.names]
  usage _ := rfl
  fallbacks := rfl
  unsupported := rfl

/-- A worker that broke down is accounted for. -/
theorem Accounted.collect_none {results : List (Option Generated)} {batch g : Generated}
    (h : Accounted o results batch) (hg : collect o batch none = some g) :
    Accounted o (results ++ [none]) g := by
  have hsame : survivors (results ++ [none]) = survivors results := by simp [survivors]
  obtain ⟨report, hreport, rfl⟩ := Option.map_eq_some_iff.1 hg
  obtain ⟨-, rfl⟩ := Report.request_eq_some_iff.1 hreport
  refine ⟨?_, h.generated, ?_, ?_, h.ordered, ?_, ?_, ?_, ?_⟩
  · rw [hsame]
    exact h.records
  · change batch.report.requested + o.recordCount = _
    rw [h.requested, List.length_append, List.length_singleton, Nat.succ_mul]
  · change batch.report.workerFailures + 1 = _
    rw [h.failures, List.countP_append]
    rfl
  · rw [hsame]
    exact h.names
  · rw [hsame]
    exact h.usage
  · rw [hsame]
    exact h.fallbacks
  · rw [hsame]
    exact h.unsupported

/-- A worker that ended is accounted for. -/
theorem Accounted.collect_some {results : List (Option Generated)} {batch made g : Generated}
    (h : Accounted o results batch) (hmade : Made o made)
    (hg : collect o batch (some made) = some g) : Accounted o (results ++ [some made]) g := by
  have hmore : survivors (results ++ [some made]) = survivors results ++ [made] := by
    simp [survivors]
  obtain ⟨report, hreport, rfl⟩ := Option.map_eq_some_iff.1 hg
  obtain ⟨-, rfl⟩ := Report.merge_eq_some_iff.1 hreport
  refine ⟨?_, ?_, ?_, ?_, Tally.ordered_merge h.ordered _, fun name => ?_, fun name => ?_, ?_, ?_⟩
  · simp [hmore, h.records]
  · simp [h.generated, hmade.generated]
  · change batch.report.requested + made.report.requested = _
    rw [h.requested, hmade.requested, List.length_append, List.length_singleton, Nat.succ_mul]
  · simp [h.failures, hmade.failures]
  · change name ∈ (batch.report.usage.merge made.report.usage).names ↔ _
    rw [Tally.mem_names_merge, h.names, hmore]
    simp [or_and_right, exists_or]
  · change (batch.report.usage.merge made.report.usage).count name = _
    rw [Tally.count_merge h.ordered hmade.ordered, h.usage, hmore]
    simp
  · simp [hmore, h.fallbacks]
  · simp [hmore, h.unsupported]

theorem accounted_of_assemble {results : List (Option Generated)} {g : Generated}
    (hmade : ∀ made, some made ∈ results → Made o made) (h : assemble o results = some g) :
    Accounted o results g := by
  induction results using List.reverseRecOn generalizing g with
  | nil =>
    obtain rfl := Option.some.inj h
    exact accounted_nil o
  | append_singleton results r ih =>
    rw [assemble_append] at h
    obtain ⟨batch, hbatch, hg⟩ := Option.bind_eq_some_iff.1 h
    have haccounted := ih (fun made hr => hmade made (List.mem_append_left _ hr)) hbatch
    cases r with
    | none => exact haccounted.collect_none hg
    | some made =>
      exact haccounted.collect_some (hmade made (List.mem_append_right _ List.mem_cons_self)) hg

/-- **All workers are accounted for**, as long as the requested records can be counted. -/
theorem accounted_assemble {results : List (Option Generated)}
    (hmade : ∀ made, some made ∈ results → Made o made)
    (hcount : results.length * o.recordCount < twoTo 64) :
    ∃ g, assemble o results = some g ∧ Accounted o results g := by
  obtain ⟨g, hg, -⟩ := exists_assemble (fun made hr => (hmade made hr).requested) hcount
  exact ⟨g, hg, accounted_of_assemble hmade hg⟩

theorem set_map_range (f : Nat → α) (count i : Nat) (a : α) :
    ((List.range count).map f).set i a =
      (List.range count).map fun j => if i = j then a else f j := by
  refine List.ext_getElem (by simp) fun j hj hj' => ?_
  simp [List.getElem_set]

/-- Any workers can break down. -/
theorem exists_interrupted (work : Nat → Work Generated) (count : Nat) (broken : List Nat)
    (s : Shared) : ∃ results s', Interrupted ((List.range count).map work) s results s' ∧
      ∀ i ∈ broken, i < count → results[i]? = some none := by
  induction broken generalizing work with
  | nil => exact ⟨_, _, .of_interleaved (interleaved_runWorkers work _ s), fun i hi => nomatch hi⟩
  | cons b rest ih =>
    obtain ⟨results, s', hruns, hbroken⟩ := ih fun j => if b = j then .crash else work j
    have hlength : results.length = count := by
      rw [hruns.length, List.length_map, List.length_range]
    refine ⟨results, s', .fail b (set_map_range work count b .crash ▸ hruns), ?_⟩
    refine List.forall_mem_cons.2 ⟨fun hb => ?_, hbroken⟩
    rw [List.getElem?_eq_getElem (hlength ▸ hb)]
    cases hr : results[b] with
    | none => rfl
    | some made =>
      -- a work that broke down before it began has no result
      obtain ⟨w, hw, hend⟩ := hruns.endsAs (List.getElem?_eq_some_iff.2 ⟨_, hr⟩)
      rw [List.getElem?_map, List.getElem?_range hb, Option.map_some, if_pos rfl] at hw
      obtain rfl := Option.some.inj hw
      cases hend

variable {template : Text}

/-- **A batch accounts for its workers.** Let the options be valid, with fewer than 2^64 records
    requested in all, let the template be one, and let there be room for the list of workers. Then
    the batch generates records, in whatever order the workers use what they share, and whichever of
    them break down: those of the workers that ended, whose counts are taken together. -/
theorem batch_accounted (hvalid : o.validate = .ok ()) (hparse : Template.parse template = .ok root)
    (hcount : o.workerCount * o.recordCount < twoTo 64)
    (hroom : o.workerCount * handleBytes ≤ maxBytes) (c : Conditions) (s : Shared) :
    Ends o c template s (runBatch o c template s).1 (runBatch o c template s).2 ∧
    (∀ broken : List Nat, ∃ g results s', assemble o results = some g ∧
      Ends o c template s (.generated g) s' ∧
      ∀ i ∈ broken, i < o.workerCount → results[i]? = some none) ∧
    ∀ outcome s', Ends o c template s outcome s' →
      ∃ g results, outcome = .generated g ∧
        Interrupted ((List.range o.workerCount).map (worker o c root)) s results s' ∧
        (∀ i made, results[i]? = some (some made) → (worker o c root i).EndsAs (some made)) ∧
        results.length = o.workerCount ∧ Accounted o results g ∧
        g.report.requested = o.workerCount * o.recordCount := by
  have hprepared : (do o.validate; Template.parse template) = .ok root := by
    rw [hvalid]
    exact hparse
  have hworkers : ∀ {results s'},
      Interrupted ((List.range o.workerCount).map (worker o c root)) s results s' →
        (∀ i made, results[i]? = some (some made) → (worker o c root i).EndsAs (some made)) ∧
        results.length = o.workerCount ∧ ∃ g, assemble o results = some g ∧ Accounted o results g := by
    intro results s' hruns
    have hworker : ∀ i made, results[i]? = some (some made) →
        (worker o c root i).EndsAs (some made) := by
      intro i made hmade
      obtain ⟨w, hw, hend⟩ := hruns.endsAs hmade
      rwa [eq_of_getElem?_map_range hw] at hend
    have hlength : results.length = o.workerCount := by
      rw [hruns.length, List.length_map, List.length_range]
    refine ⟨hworker, hlength, accounted_assemble (fun made hmade => ?_) (hlength ▸ hcount)⟩
    obtain ⟨i, hi⟩ := List.mem_iff_getElem?.1 hmade
    exact made_of_worker (hworker i made hi)
  refine ⟨ends_runBatch o c template s, fun broken => ?_, fun outcome s' hends => ?_⟩
  · obtain ⟨results, s', hruns, hbroken⟩ :=
      exists_interrupted (worker o c root) o.workerCount broken s
    obtain ⟨-, -, g, hg, -⟩ := hworkers hruns
    exact ⟨g, results, s', hg, .generated hprepared hroom hruns hg, hbroken⟩
  · cases hends with
    | failed h => cases hprepared.symm.trans h
    | crashed _ h => exact absurd hroom (not_le.2 h)
    | overflowed h _ hruns hnone =>
      cases hprepared.symm.trans h
      obtain ⟨-, -, g, hg, -⟩ := hworkers hruns
      cases hnone.symm.trans hg
    | @generated _ results g _ h _ hruns hg =>
      cases hprepared.symm.trans h
      obtain ⟨hworker, hlength, g', hg', haccounts⟩ := hworkers hruns
      obtain rfl := Option.some.inj (hg.symm.trans hg')
      refine ⟨g, results, rfl, hruns, hworker, hlength, haccounts, ?_⟩
      rw [haccounts.requested, hlength]

/-- A template that takes a number. -/
def numbered : Json := .obj [("n".toList, .str "seq".toList)]

/-- Its text. -/
def numberedLine : Text := "\x7b\"n\":\"seq\"\x7d".toList

/-- What a worker makes of it with a number. -/
def numberedMade (n : Int) : Generated :=
  ⟨[(Json.obj [("n".toList, .int n)]).render],
    { requested := 1, generated := 1, usage := [("seq".toList, 1)] }⟩

/-- Three workers with one record each. -/
def threeWorkers : Options := { recordCount := 1, workerCount := 3, seed := some 7 }

theorem worker_numbered (i : Nat) : worker threeWorkers atEpoch numbered i =
    .next none fun n => .done (numberedMade n) := rfl

/-- The last worker takes a number, the second one breaks down, and then the first one takes a
    number. -/
theorem interrupted_numbered :
    Interrupted ((List.range 3).map (worker threeWorkers atEpoch numbered)) .fresh
      [some (numberedMade 2), none, some (numberedMade 1)] ⟨⟨3, true⟩, none⟩ := by
  rw [funext worker_numbered]
  refine .step (i := 2) rfl .next (.fail 1 (.step (i := 0) rfl .next ?_))
  exact .ended [some (numberedMade 2), none, some (numberedMade 1)] ⟨⟨3, true⟩, none⟩

theorem batch_accounted_broken :
    threeWorkers.validate = .ok () ∧ Template.parse numberedLine = .ok numbered ∧
    threeWorkers.workerCount * threeWorkers.recordCount < twoTo 64 ∧
    threeWorkers.workerCount * handleBytes ≤ maxBytes ∧
    Ends threeWorkers atEpoch numberedLine .fresh (.generated
      ⟨(numberedMade 2).records ++ (numberedMade 1).records,
        { requested := 3, generated := 2, usage := [("seq".toList, 2)], workerFailures := 1 }⟩)
      ⟨⟨3, true⟩, none⟩ ∧
    ∃ g results, results.length = 3 ∧ Accounted threeWorkers results g ∧
      g.report = { requested := 3, generated := 2, usage := [("seq".toList, 2)],
                   workerFailures := 1 } ∧
      g.report.requested = 3 * 1 := by
  have hparse : Template.parse numberedLine = .ok numbered := by cbv
  have hprepared : (do threeWorkers.validate; Template.parse numberedLine) = .ok numbered := hparse
  have hends : Ends threeWorkers atEpoch numberedLine .fresh _ _ :=
    .generated hprepared (by decide) interrupted_numbered rfl
  obtain ⟨-, -, haccounts⟩ :=
    batch_accounted (o := threeWorkers) rfl hparse (by decide) (by decide) atEpoch .fresh
  obtain ⟨g, results, hg, -, -, hlength, haccounted, hrequested⟩ := haccounts _ _ hends
  refine ⟨rfl, hparse, by decide, by decide, hends, g, results, hlength, haccounted, ?_, hrequested⟩
  rw [← Outcome.generated.inj hg]
  rfl

/-- A list of workers can be too long to be laid out. -/
theorem runBatch_not_total :
    ({ recordCount := 0, workerCount := 18446744073709551615 } : Options).validate = .ok () ∧
    Template.parse "\x7b\x7d".toList = .ok (.obj []) ∧ 18446744073709551615 * 0 < twoTo 64 ∧
    ∀ g s', runBatch { recordCount := 0, workerCount := 18446744073709551615 } atEpoch
      "\x7b\x7d".toList .fresh ≠ (.generated g, s') := by
  have hparse : Template.parse "\x7b\x7d".toList = .ok (.obj []) := by cbv
  refine ⟨rfl, hparse, by decide, fun g s' h => ?_⟩
  have hcrash : runBatch { recordCount := 0, workerCount := 18446744073709551615 } atEpoch
      "\x7b\x7d".toList .fresh = (.crashed, .fresh) := by
    unfold runBatch
    have hprepared : (do
        ({ recordCount := 0, workerCount := 18446744073709551615 } : Options).validate
        Template.parse "\x7b\x7d".toList) = .ok (.obj []) := hparse
    rw [hprepared]
    rfl
  rw [hcrash] at h
  cases h

end Engine
end Recordsmith
