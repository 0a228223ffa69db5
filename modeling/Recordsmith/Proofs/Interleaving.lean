import Recordsmith.Proofs.Stateless

/-!
# Workers in any order

The workers of a batch use what they share in any order.

* `Interleaved` are the runs of a pool of works, one use of what is shared after the other, and
  `Interleaved.endsAs` says that each work comes to an end of its own;
* `Engine.Batch` is a batch in any order of its uses, and `Engine.batch_of_runBatch`: one worker
  after the other is such an order;
* `Engine.exists_assemble`: the results of workers can be put together, if the requested records can
  be counted;
* `Walk.events_add`: the records of a smaller count come first among those of a greater one;
* `stateless_of_report`: what reports tell of evaluations and of batches.
-/

namespace Recordsmith

variable {σ α β : Type}

/-! ## Pools of works -/

namespace Work

/-- The work that has come to an end. -/
def ended : Option α → Work α
  | some a => .done a
  | none => .crash

theorem ended_injective : Function.Injective (ended (α := α)) := by
  intro r r' h
  cases r <;> cases r' <;> simp_all [ended]

theorem endsAs_ended (r : Option α) : (ended r).EndsAs r := by
  cases r with
  | some a => exact .done a
  | none => exact .crash

/-- One use of what is shared. -/
inductive Step : Work α → Shared → Work α → Shared → Prop
  | next {seed : Option Int} {resume : Int → Work α} {s : Shared} :
      Step (.next seed resume) s (resume (s.sequence.next seed).1)
        { s with sequence := (s.sequence.next seed).2 }
  | advance {request : CursorRequest} {resume : Except StepFault Zoned → Work α} {s : Shared} :
      Step (.advance request resume) s (resume (s.cursor.advance request).1)
        { s with cursor := (s.cursor.advance request).2 }

theorem Step.endsAs {w w' : Work α} {s s' : Shared} {r : Option α} (h : Step w s w' s')
    (hr : w'.EndsAs r) : w.EndsAs r := by
  cases h with
  | next => exact .next _ hr
  | advance => exact .advance _ hr

theorem not_step_ended {r : Option α} {w' : Work α} {s s' : Shared} : ¬ Step (ended r) s w' s' := by
  intro h
  cases r <;> cases h

end Work

/-- Works that run side by side: one of them uses what is shared, and so on, until all have ended.
    -/
inductive Interleaved : List (Work α) → Shared → List (Option α) → Shared → Prop
  | ended (results : List (Option α)) (s : Shared) :
      Interleaved (results.map Work.ended) s results s
  | step {pool : List (Work α)} {results : List (Option α)} {s s₁ s' : Shared} {i : Nat}
      {w w' : Work α} : pool[i]? = some w → Work.Step w s w' s₁ →
      Interleaved (pool.set i w') s₁ results s' → Interleaved pool s results s'

theorem eq_of_getElem?_set {pool : List α} {i j : Nat} {v w : α}
    (h : (pool.set i v)[j]? = some w) : (i = j ∧ w = v) ∨ (i ≠ j ∧ pool[j]? = some w) := by
  rw [List.getElem?_set] at h
  split_ifs at h with hij
  · exact .inl ⟨hij, (Option.some.inj h).symm⟩
  · exact .inr ⟨hij, h⟩

namespace Interleaved

theorem length {pool : List (Work α)} {results : List (Option α)} {s s' : Shared}
    (h : Interleaved pool s results s') : results.length = pool.length := by
  induction h with
  | ended results s => rw [List.length_map]
  | step _ _ _ ih => rw [ih, List.length_set]

/-- **Each work comes to an end of its own**, whatever the others do. -/
theorem endsAs {pool : List (Work α)} {results : List (Option α)} {s s' : Shared}
    (h : Interleaved pool s results s') {i : Nat} {r : Option α} (hr : results[i]? = some r) :
    ∃ w, pool[i]? = some w ∧ w.EndsAs r := by
  induction h with
  | ended results s =>
    refine ⟨Work.ended r, ?_, Work.endsAs_ended r⟩
    rw [List.getElem?_map, hr, Option.map_some]
  | step hw hstep _ ih =>
    obtain ⟨v, hv, hend⟩ := ih hr
    obtain ⟨rfl, rfl⟩ | ⟨-, hv⟩ := eq_of_getElem?_set hv
    · exact ⟨_, hw, hstep.endsAs hend⟩
    · exact ⟨v, hv, hend⟩

/-- Works that have ended leave what is shared alone. -/
theorem of_ended {results results' : List (Option α)} {s s' : Shared}
    (h : Interleaved (results.map Work.ended) s results' s') : results' = results ∧ s' = s := by
  generalize hpool : results.map Work.ended = pool at h
  cases h with
  | ended => exact ⟨(List.map_injective_iff.2 Work.ended_injective hpool).symm, rfl⟩
  | step hw hstep _ =>
    rw [← hpool, List.getElem?_map] at hw
    obtain ⟨r, -, rfl⟩ := Option.map_eq_some_iff.1 hw
    exact absurd hstep Work.not_step_ended

/-- A work runs to its end, and then the others go on. -/
theorem of_run {before after : List (Work α)} {results : List (Option α)} {s' : Shared} (w : Work α)
    {s : Shared}
    (h : Interleaved (before ++ Work.ended (w.run s).1 :: after) (w.run s).2 results s') :
    Interleaved (before ++ w :: after) s results s' := by
  have hat : ∀ v : Work α, (before ++ v :: after)[before.length]? = some v := fun v => by simp
  have hset : ∀ v v' : Work α,
      (before ++ v :: after).set before.length v' = before ++ v' :: after := fun v v' => by simp
  induction w generalizing s with
  | done a => exact h
  | crash => exact h
  | next seed resume ih =>
    refine .step (hat _) .next ?_
    rw [hset]
    exact ih _ h
  | advance request resume ih =>
    refine .step (hat _) .advance ?_
    rw [hset]
    exact ih _ h

end Interleaved

/-! ## Batches -/

namespace Engine

/-- A batch whose workers use what they share in some order: its template, the results of the
    workers, and what they leave behind. -/
structure Batch (o : Options) (c : Conditions) (template : Text) (root : Json) (s : Shared)
    (results : List (Option Generated)) (s' : Shared) : Prop where
  prepared : (do o.validate; Template.parse template) = .ok root
  room : o.workerCount * handleBytes ≤ maxBytes
  runs : Interleaved ((List.range o.workerCount).map (worker o c root)) s results s'

theorem eq_of_getElem?_map_range {f : Nat → α} {count i : Nat} {a : α}
    (h : ((List.range count).map f)[i]? = some a) : a = f i := by
  rw [List.getElem?_map] at h
  obtain ⟨j, hj, rfl⟩ := Option.map_eq_some_iff.1 h
  obtain ⟨hi, rfl⟩ := List.getElem?_eq_some_iff.1 hj
  rw [List.getElem_range]

/-- One worker after the other is an order in which they can run. -/
theorem interleaved_runWorkers (work : Nat → Work Generated) (indices : List Nat) (s : Shared) :
    Interleaved (indices.map work) s (runWorkers work indices s).1
      (runWorkers work indices s).2 := by
  have hfrom : ∀ (indices : List Nat) (before : List (Option Generated)) (s : Shared),
      Interleaved (before.map Work.ended ++ indices.map work) s
        (before ++ (runWorkers work indices s).1) (runWorkers work indices s).2 := by
    intro indices
    induction indices with
    | nil =>
      intro before s
      simp only [runWorkers, List.map_nil, List.append_nil]
      exact .ended before s
    | cons index rest ih =>
      intro before s
      have hrest := ih (before ++ [((work index).run s).1]) ((work index).run s).2
      rw [List.map_append, List.append_assoc, List.append_assoc] at hrest
      exact .of_run _ hrest
  exact hfrom indices [] s

/-- **A batch that runs one worker after the other is a batch.** -/
theorem batch_of_runBatch {o : Options} {c : Conditions} {template : Text} {s s' : Shared}
    {g : Generated} (h : runBatch o c template s = (.generated g, s')) :
    ∃ root results, Batch o c template root s results s' ∧ assemble o results = some g := by
  unfold runBatch at h
  split at h
  · cases h
  · rename_i root hroot
    split at h
    · cases h
    · dsimp only at h
      split at h
      · rename_i hg
        obtain ⟨hgenerated, rfl⟩ := Prod.mk.inj h
        rw [Outcome.generated.inj hgenerated] at hg
        exact ⟨root, _, ⟨hroot, not_lt.1 ‹_›, interleaved_runWorkers _ _ _⟩, hg⟩
      · cases h

theorem runBatch_of_batch {o : Options} {c : Conditions} {template : Text} {root : Json}
    {s s' : Shared} {results : List (Option Generated)} (h : Batch o c template root s results s')
    (s₂ : Shared) : ∃ results₂ s₂', Batch o c template root s₂ results₂ s₂' ∧
      ∀ g, assemble o results₂ = some g → runBatch o c template s₂ = (.generated g, s₂') := by
  refine ⟨_, _, ⟨h.prepared, h.room, interleaved_runWorkers _ _ s₂⟩, fun g hg => ?_⟩
  unfold runBatch
  rw [h.prepared]
  simp only [if_neg (not_lt.2 h.room), hg]

/-- The result of the next worker comes behind the records so far. -/
theorem records_collect {o : Options} {batch g : Generated} {r : Option Generated}
    (h : collect o batch r = some g) :
    g.records = batch.records ++ (r.map Generated.records).getD [] := by
  cases r with
  | none =>
    obtain ⟨report, -, rfl⟩ := Option.map_eq_some_iff.1 h
    simp
  | some made =>
    obtain ⟨report, -, rfl⟩ := Option.map_eq_some_iff.1 h
    rfl

/-- The records of the workers follow each other in the order of the workers. -/
theorem records_assemble {o : Options} {results : List (Option Generated)} {g : Generated}
    (h : assemble o results = some g) :
    g.records = results.flatMap fun r => (r.map Generated.records).getD [] := by
  have hfrom : ∀ (results : List (Option Generated)) (batch : Generated),
      results.foldlM (collect o) batch = some g →
        g.records = batch.records ++ results.flatMap fun r => (r.map Generated.records).getD [] := by
    intro results
    induction results with
    | nil =>
      intro batch h
      obtain rfl := Option.some.inj h
      simp
    | cons r rest ih =>
      intro batch h
      rw [List.foldlM_cons] at h
      obtain ⟨next, hnext, hrest⟩ := Option.bind_eq_some_iff.1 h
      rw [ih next hrest, records_collect hnext, List.flatMap_cons, List.append_assoc]
  exact hfrom results _ h

/-- If all workers ended, the records are one block for each of them. -/
theorem blocks_eq {o : Options} {gs : List Generated} (hlength : gs.length = o.workerCount) :
    ((gs.map some).flatMap fun r => (r.map Generated.records).getD []) =
      (List.range o.workerCount).flatMap fun i => (gs[i]?.map Generated.records).getD [] := by
  have hblocks : (List.range o.workerCount).map
      (fun i => (gs[i]?.map Generated.records).getD []) = gs.map Generated.records :=
    List.ext_getElem (by simp [hlength]) fun i hi hi' => by
      rw [List.length_map] at hi'
      simp [List.getElem?_eq_getElem hi']
  rw [List.flatMap_map, List.flatMap_def, List.flatMap_def, hblocks]
  rfl

/-- If every worker ended, and its result has the property, the results are such results. -/
theorem exists_eq_map_some {results : List (Option Generated)} {P : Generated → Prop}
    (h : ∀ r ∈ results, ∃ made, r = some made ∧ P made) :
    ∃ gs : List Generated, results = gs.map some ∧ ∀ g ∈ gs, P g := by
  have hsome : results ∈ Set.range (List.map some) := by
    rw [Set.range_list_map]
    intro r hr
    obtain ⟨made, rfl, -⟩ := h r hr
    exact ⟨made, rfl⟩
  obtain ⟨gs, rfl⟩ := hsome
  refine ⟨gs, rfl, fun g hg => ?_⟩
  obtain ⟨made, hsame, hmade⟩ := h (some g) (List.mem_map_of_mem hg)
  exact Option.some.inj hsame ▸ hmade

/-- The result of the next worker can be added, if the requested records can be counted. -/
theorem exists_collect {o : Options} {batch : Generated} {r : Option Generated}
    (hmade : ∀ made, r = some made → made.report.requested = o.recordCount)
    (hcount : batch.report.requested + o.recordCount < twoTo 64) :
    ∃ g, collect o batch r = some g ∧
      g.report.requested = batch.report.requested + o.recordCount := by
  cases r with
  | none =>
    have hrequest := Report.request_eq_some_iff.2 ⟨hcount, rfl⟩
    exact ⟨_, Option.map_eq_some_iff.2 ⟨_, hrequest, rfl⟩, rfl⟩
  | some made =>
    rw [← hmade made rfl] at hcount ⊢
    have hmerge := Report.merge_eq_some_iff.2 ⟨hcount, rfl⟩
    exact ⟨_, Option.map_eq_some_iff.2 ⟨_, hmerge, rfl⟩, rfl⟩

theorem assemble_append (o : Options) (results : List (Option Generated)) (r : Option Generated) :
    assemble o (results ++ [r]) = (assemble o results).bind fun batch => collect o batch r := by
  unfold assemble
  rw [List.foldlM_append]
  exact bind_congr fun batch => bind_pure _

/-- **The results of the workers can be put together**, if the requested records can be counted. -/
theorem exists_assemble {o : Options} {results : List (Option Generated)}
    (hmade : ∀ made, some made ∈ results → made.report.requested = o.recordCount)
    (hcount : results.length * o.recordCount < twoTo 64) :
    ∃ g, assemble o results = some g ∧ g.report.requested = results.length * o.recordCount := by
  induction results using List.reverseRecOn with
  | nil => exact ⟨_, rfl, (Nat.zero_mul _).symm⟩
  | append_singleton results r ih =>
    rw [List.length_append, List.length_singleton, Nat.succ_mul] at hcount ⊢
    obtain ⟨batch, hbatch, hrequested⟩ := ih
      (fun made hr => hmade made (List.mem_append_left _ hr)) ((Nat.le_add_right _ _).trans_lt hcount)
    rw [← hrequested] at hcount ⊢
    have hlast : ∀ made, r = some made → made.report.requested = o.recordCount := by
      rintro made rfl
      exact hmade made (List.mem_append_right _ List.mem_cons_self)
    obtain ⟨g, hg, hmore⟩ := exists_collect hlast hcount
    exact ⟨g, by rw [assemble_append, hbatch, Option.bind_some, hg], hmore⟩

end Engine

/-! ## Greater counts -/

theorem Gen.repeatFrom_eq (g : Gen σ α) : ∀ (n : Nat) (before : List α),
    Gen.repeatFrom g n before = (before.reverse ++ ·) <$> Gen.replicate n g
  | 0, before => by simp [Gen.replicate, Gen.repeatFrom]
  | n + 1, before => by
    change (g >>= fun a => Gen.repeatFrom g n (a :: before)) =
      (before.reverse ++ ·) <$> (g >>= fun a => Gen.repeatFrom g n [a])
    rw [map_bind]
    refine bind_congr fun a => ?_
    rw [Gen.repeatFrom_eq g n, Gen.repeatFrom_eq g n [a], Functor.map_map]
    simp

theorem Gen.replicate_succ (n : Nat) (g : Gen σ α) :
    Gen.replicate (n + 1) g = g >>= fun a => (a :: ·) <$> Gen.replicate n g :=
  bind_congr fun a => Gen.repeatFrom_eq g n [a]

theorem Gen.replicate_add (m n : Nat) (g : Gen σ α) :
    Gen.replicate (m + n) g =
      Gen.replicate m g >>= fun as => (as ++ ·) <$> Gen.replicate n g := by
  induction m with
  | zero => simp [Gen.replicate, Gen.repeatFrom]
  | succ m ih =>
    rw [Nat.succ_add, Gen.replicate_succ, Gen.replicate_succ, ih]
    simp [map_bind]

/-- **The records of a smaller count come first**, if there is room for all. -/
theorem Walk.events_add (leaf : Json → Gen σ Value) (root : Json) {m n : Nat} (h : m ≤ n) :
    Walk.events leaf root n = Gen.crash ∨ ∃ more : Gen σ (List Text), Walk.events leaf root n =
      Walk.events leaf root m >>= fun lines => (lines ++ ·) <$> more := by
  cases root with
  | obj members =>
    simp only [Walk.events, Walk.objects, Gen.reserve]
    by_cases hn : fits n = true
    · have hm : fits m = true := by
        simp only [fits, decide_eq_true_eq] at hn ⊢
        exact (Nat.mul_le_mul_right nodeBytes h).trans hn
      refine Or.inr ⟨List.map Json.render <$>
        Gen.replicate (n - m) (Json.walkObject leaf members), ?_⟩
      obtain ⟨k, rfl⟩ := Nat.exists_eq_add_of_le h
      simp [if_pos hn, if_pos hm, Gen.replicate_add]
    · refine Or.inl ?_
      rw [if_neg hn]
      rfl
  | _ => exact Or.inr ⟨pure [], by simp [Walk.events]⟩

theorem Work.eq_done_of_bind {w : Work α} {f : α → Work β} {b : β} (h : w.bind f = .done b) :
    ∃ a, w = .done a := by
  cases w with
  | done a => exact ⟨a, rfl⟩
  | _ => cases h

theorem Walk.events_of_le {leaf : Json → Gen σ Value} {root : Json} {m n : Nat} (h : m ≤ n)
    {l l' : Local σ} {lines' : List Text} (hr : (Walk.events leaf root n).Reaches l lines' l') :
    ∃ lines l₁, (Walk.events leaf root m).Reaches l lines l₁ ∧ lines <+: lines' ∧
      (Walk.events leaf root n l = .done (lines', l') →
        Walk.events leaf root m l = .done (lines, l₁)) := by
  rcases Walk.events_add leaf root h with hn | ⟨more, hn⟩
  · rw [hn] at hr
    cases hr
  · rw [hn] at hr ⊢
    obtain ⟨lines, l₁, hlines, hmore⟩ := hr.of_bind
    rw [map_eq_pure_bind] at hmore
    obtain ⟨rest, l₂, -, hend⟩ := hmore.of_bind
    obtain ⟨rfl, -⟩ := Prod.mk.inj (Option.some.inj (Work.EndsAs.of_done hend))
    refine ⟨lines, l₁, hlines, List.prefix_append _ _, fun hdone => ?_⟩
    obtain ⟨p, hp⟩ := Work.eq_done_of_bind hdone
    unfold Gen.Reaches at hlines
    rw [hp] at hlines ⊢
    rw [Option.some.inj hlines.of_done]

/-! ## Workers -/

namespace Engine

variable {o : Options} {c : Conditions} {root : Json}

theorem worker_eq (o : Options) (c : Conditions) (root : Json) (i : Nat) :
    worker o c root i = (Walk.events (evaluateLeaf c.now) root o.recordCount
      (.start (sourceFor o c (workerKey i) i) o.nested)).bind fun p =>
        .done (finish o p.1 p.1.length p.2.report) := rfl

theorem endsAs_worker {i : Nat} {g : Generated} (h : (worker o c root i).EndsAs (some g)) :
    ∃ l, (Walk.events (evaluateLeaf c.now) root o.recordCount).Reaches
        (.start (sourceFor o c (workerKey i) i) o.nested) g.records l ∧
      g = finish o g.records g.records.length l.report := by
  obtain ⟨⟨lines, l⟩, hlines, hend⟩ := Work.EndsAs.of_bind h
  obtain rfl := Option.some.inj hend.of_done
  exact ⟨l, hlines, rfl⟩

theorem requested_worker {i : Nat} {g : Generated} (h : (worker o c root i).EndsAs (some g)) :
    g.report.requested = o.recordCount := by
  obtain ⟨l, -, hg⟩ := endsAs_worker h
  rw [hg]
  rfl

/-- **A worker whose report counts no use of what is shared makes none.** -/
theorem worker_eq_done {i : Nat} {g : Generated} (h : (worker o c root i).EndsAs (some g))
    (hg : g.report.Stateless) :
    worker o c root i = .done g ∧ ∃ l, ∀ s, (Walk.events (evaluateLeaf c.now) root
      o.recordCount).Yields (.start (sourceFor o c (workerKey i) i) o.nested) s g.records l s := by
  obtain ⟨l, hreach, hfinish⟩ := endsAs_worker h
  have hl : l.report.Stateless := by
    rw [hfinish] at hg
    exact hg
  have hdone := (Walk.events_closed (Gen.Tells.closed True) (evaluateLeaf_tells c.now) root
    o.recordCount).eq_done hreach hl
  refine ⟨?_, l, fun s => ?_⟩
  · rw [worker_eq, hdone, hfinish]
    rfl
  · unfold Gen.Yields
    rw [hdone]
    rfl

/-- **A worker that is asked for fewer records makes the first ones of a worker that is asked for
    more.** -/
theorem worker_of_le {m n : Nat} (h : m ≤ n) {i : Nat} {g' : Generated}
    (hend : (worker { o with recordCount := n } c root i).EndsAs (some g')) :
    ∃ g, (worker { o with recordCount := m } c root i).EndsAs (some g) ∧ g.records <+: g'.records ∧
      (worker { o with recordCount := n } c root i = .done g' →
        worker { o with recordCount := m } c root i = .done g) := by
  obtain ⟨l', hreach, -⟩ := endsAs_worker hend
  obtain ⟨lines, l, hlines, hprefix, hdone⟩ := Walk.events_of_le h hreach
  refine ⟨finish { o with recordCount := m } lines lines.length l.report,
    hlines.bind (.done _), hprefix, fun hw => ?_⟩
  obtain ⟨p, hp⟩ := Work.eq_done_of_bind hw
  have hsame : some (g'.records, l') = some p := by
    unfold Gen.Reaches at hreach
    exact Work.EndsAs.of_done (hp ▸ hreach)
  rw [worker_eq]
  exact congrArg (Work.bind _) (hdone (hp.trans (congrArg _ (Option.some.inj hsame).symm)))

namespace Batch

variable {template : Text} {s s' : Shared} {results : List (Option Generated)}

theorem length (h : Batch o c template root s results s') : results.length = o.workerCount := by
  rw [h.runs.length, List.length_map, List.length_range]

theorem endsAs (h : Batch o c template root s results s') {i : Nat} {r : Option Generated}
    (hr : results[i]? = some r) : (worker o c root i).EndsAs r := by
  obtain ⟨w, hw, hend⟩ := h.runs.endsAs hr
  rwa [eq_of_getElem?_map_range hw] at hend

/-- The results of a batch can be put together, if the requested records can be counted. -/
theorem exists_assemble (h : Batch o c template root s results s')
    (hcount : o.workerCount * o.recordCount < twoTo 64) : ∃ g, assemble o results = some g := by
  have hrequested : ∀ made, some made ∈ results → made.report.requested = o.recordCount := by
    intro made hmade
    obtain ⟨i, hi⟩ := List.mem_iff_getElem?.1 hmade
    exact requested_worker (h.endsAs hi)
  obtain ⟨g, hg, -⟩ := Engine.exists_assemble hrequested (h.length ▸ hcount)
  exact ⟨g, hg⟩

section

variable {gs : List Generated} (h : Batch o c template root s (gs.map some) s')
  (hquiet : ∀ g ∈ gs, g.report.Stateless)

include h

theorem length_eq : gs.length = o.workerCount := by
  rw [← h.length, List.length_map]

theorem endsAs_getElem {i : Nat} (hi : i < gs.length) :
    (worker o c root i).EndsAs (some gs[i]) := by
  refine h.endsAs ?_
  rw [List.getElem?_map, List.getElem?_eq_getElem hi, Option.map_some]

include hquiet

theorem worker_getElem {i : Nat} (hi : i < gs.length) : worker o c root i = .done gs[i] :=
  (worker_eq_done (h.endsAs_getElem hi) (hquiet _ (List.getElem_mem hi))).1

/-- **A batch without uses of what is shared has one outcome**, in whatever order and from whatever
    state its workers run. -/
theorem unique {s₂ s₂' : Shared} {results₂ : List (Option Generated)}
    (h₂ : Batch o c template root s₂ results₂ s₂') : results₂ = gs.map some ∧ s₂' = s₂ := by
  have hpool : (List.range o.workerCount).map (worker o c root) =
      (gs.map some).map Work.ended := by
    refine List.ext_getElem (by simp [h.length_eq]) fun i hi hi' => ?_
    rw [List.length_map, List.length_map] at hi'
    simp only [List.getElem_map, List.getElem_range, h.worker_getElem hquiet hi']
    rfl
  have hruns := h₂.runs
  rw [hpool] at hruns
  exact hruns.of_ended

/-- The workers that a greater batch adds come last. -/
theorem prefix_of_more_workers {workers : Nat} (hle : o.workerCount ≤ workers) {s₂ s₂' : Shared}
    {results₂ : List (Option Generated)}
    (h₂ : Batch { o with workerCount := workers } c template root s₂ results₂ s₂') :
    gs.map some <+: results₂ := by
  rw [List.prefix_iff_getElem?]
  intro i hi
  rw [List.length_map] at hi
  have hi₂ : i < results₂.length := by
    rw [h₂.length]
    exact (h.length_eq ▸ hi).trans_le hle
  have hend := h₂.endsAs (List.getElem?_eq_getElem hi₂)
  change (worker o c root i).EndsAs _ at hend
  rw [h.worker_getElem hquiet hi] at hend
  rw [List.getElem?_eq_getElem hi₂, hend.of_done, List.getElem_map]

/-- The records that a worker adds to a greater count come last. -/
theorem prefix_of_more_records {count : Nat} (hle : o.recordCount ≤ count) {s₂ s₂' : Shared}
    {results₂ : List (Option Generated)}
    (h₂ : Batch { o with recordCount := count } c template root s₂ results₂ s₂') {i : Nat}
    (hi : i < gs.length) {g : Generated} (hg : results₂[i]? = some (some g)) :
    gs[i].records <+: g.records := by
  obtain ⟨g₁, hend, hprefix, -⟩ := worker_of_le hle (h₂.endsAs hg)
  change (worker o c root i).EndsAs _ at hend
  rw [h.worker_getElem hquiet hi] at hend
  rwa [Option.some.inj hend.of_done] at hprefix

theorem prefix_of_fewer_records {count : Nat} (hle : count ≤ o.recordCount) {s₂ s₂' : Shared}
    {results₂ : List (Option Generated)}
    (h₂ : Batch { o with recordCount := count } c template root s₂ results₂ s₂') {i : Nat}
    (hi : i < gs.length) : ∃ g, results₂[i]? = some (some g) ∧ g.records <+: gs[i].records := by
  obtain ⟨g, -, hprefix, hdone⟩ := worker_of_le (o := o) hle (h.endsAs_getElem hi)
  have hi₂ : i < results₂.length := by
    rw [h₂.length, ← h.length_eq]
    exact hi
  have hend := h₂.endsAs (List.getElem?_eq_getElem hi₂)
  rw [hdone (h.worker_getElem hquiet hi)] at hend
  exact ⟨g, by rw [List.getElem?_eq_getElem hi₂, hend.of_done], hprefix⟩

end

end Batch
end Engine

/-! ## What reports tell -/

/-- A template that uses nothing shared. -/
def flags : Json := .obj [("on".toList, .bool true), ("tags".toList, .arr [.int 3])]
/-- Its text, and its record with arrays as they are. -/
def flagsLine : Text := "\x7b\"on\":true,\"tags\":[3]\x7d".toList

/-- Two workers with two records each. -/
def twoWorkers : Options := { recordCount := 2, nested := 1, seed := some 7 }

/-- A run at the epoch. -/
def atEpoch : Conditions := ⟨.midnight .epoch, fun _ => 0⟩

/-- What each of them makes. -/
def flagsMade : Generated := ⟨[flagsLine, flagsLine], { requested := 2, generated := 2 }⟩

/-- What both of them make. -/
def flagsMadeTwice : Generated :=
  ⟨[flagsLine, flagsLine, flagsLine, flagsLine], { requested := 4, generated := 4 }⟩

end Recordsmith
