import Recordsmith.Engine
import Recordsmith.Proofs.Closure
import Recordsmith.Proofs.Tallies

/-!
# What a report tells about what is shared

A function that uses the sequence or the cursor is counted before it does so. So a computation whose
report counts neither has used nothing that workers share.

* `Work.EndsAs` is an end that a work can come to, whatever the answers to its uses of what is
  shared;
* `Gen.Moves`: whatever these answers are, a computation takes a worker from a state to a related
  one, and `Gen.Moves.stepwise`: so do the steps that follow a preorder;
* `Gen.Tells`: uses are counted, and a computation that counts no use makes none;
* `evaluateText_tells`, `evaluateLeaf_tells`: so do texts and leaves;
* `Gen.Oblivious`: if the report of one run counts no use, every shared state would have done.
-/

namespace Recordsmith

variable {σ α β : Type}

/-! ## Ends for any answers -/

namespace Work

/-- The work can end like this, if its uses of what is shared are answered in some way: with a
    result, or by breaking down. -/
inductive EndsAs : Work α → Option α → Prop
  | done (a : α) : EndsAs (.done a) (some a)
  | crash : EndsAs .crash none
  | next {seed : Option Int} {resume : Int → Work α} {r : Option α} (n : Int) :
      EndsAs (resume n) r → EndsAs (.next seed resume) r
  | advance {request : CursorRequest} {resume : Except StepFault Zoned → Work α} {r : Option α}
      (answer : Except StepFault Zoned) :
      EndsAs (resume answer) r → EndsAs (.advance request resume) r

theorem endsAs_run (w : Work α) (s : Shared) : w.EndsAs (w.run s).1 := by
  induction w generalizing s with
  | done a => exact .done a
  | crash => exact .crash
  | next seed resume ih => exact .next _ (ih _ _)
  | advance request resume ih => exact .advance _ (ih _ _)

theorem EndsAs.of_done {a : α} {r : Option α} (h : (Work.done a).EndsAs r) :
    r = some a := by
  cases h
  rfl

theorem EndsAs.bind {w : Work α} {f : α → Work β} {a : α} {r : Option β} (h : w.EndsAs (some a))
    (hr : (f a).EndsAs r) : (w.bind f).EndsAs r := by
  induction w with
  | done a' =>
    obtain rfl := Option.some.inj h.of_done
    exact hr
  | crash => cases h
  | next seed resume ih =>
    cases h with
    | next n h => exact .next n (ih n h)
  | advance request resume ih =>
    cases h with
    | advance answer h => exact .advance answer (ih answer h)

/-- A sequence ends with a result if both its works do. -/
theorem EndsAs.of_bind {w : Work α} {f : α → Work β} {b : β} (h : (w.bind f).EndsAs (some b)) :
    ∃ a, w.EndsAs (some a) ∧ (f a).EndsAs (some b) := by
  induction w with
  | done a => exact ⟨a, .done a, h⟩
  | crash => cases h
  | next seed resume ih =>
    cases h with
    | next n h =>
      obtain ⟨a, ha, hb⟩ := ih n h
      exact ⟨a, .next n ha, hb⟩
  | advance request resume ih =>
    cases h with
    | advance answer h =>
      obtain ⟨a, ha, hb⟩ := ih answer h
      exact ⟨a, .advance answer ha, hb⟩

end Work

namespace Gen

/-- The computation can end with this result and this state of the worker, if its uses of what is
    shared are answered in some way. -/
def Reaches (g : Gen σ α) (l : Local σ) (a : α) (l' : Local σ) : Prop :=
  (g l).EndsAs (some (a, l'))

theorem Yields.reaches {g : Gen σ α} {l l' : Local σ} {s s' : Shared} {a : α}
    (h : g.Yields l s a l' s') : g.Reaches l a l' := by
  have hend := (g l).endsAs_run s
  rwa [h] at hend

theorem Reaches.of_bind {g : Gen σ α} {f : α → Gen σ β} {l l' : Local σ} {b : β}
    (h : (g >>= f).Reaches l b l') : ∃ a l₁, g.Reaches l a l₁ ∧ (f a).Reaches l₁ b l' := by
  obtain ⟨⟨a, l₁⟩, ha, hb⟩ := Work.EndsAs.of_bind h
  exact ⟨a, l₁, ha, hb⟩

theorem Reaches.of_done {g : Gen σ α} {l l₁ l' : Local σ} {a b : α} (h : g l = .done (b, l₁))
    (hr : g.Reaches l a l') : a = b ∧ l' = l₁ := by
  unfold Reaches at hr
  rw [h] at hr
  obtain ⟨rfl, rfl⟩ := Prod.mk.inj (Option.some.inj (Work.EndsAs.of_done hr))
  exact ⟨rfl, rfl⟩

/-- A number that is taken changes nothing of the worker's own. -/
theorem Reaches.of_nextNumber {seed : Option Int} {n : Int} {l l' : Local σ}
    (hr : (nextNumber seed).Reaches l n l') : l' = l := by
  cases hr with
  | next n hr => exact (Prod.mk.inj (Option.some.inj hr.of_done)).2

/-- A date that is taken changes nothing of the worker's own. -/
theorem Reaches.of_nextDate {request : CursorRequest} {r : Except StepFault Zoned}
    {l l' : Local σ} (hr : (nextDate request).Reaches l r l') : l' = l := by
  cases hr with
  | advance answer hr => exact (Prod.mk.inj (Option.some.inj hr.of_done)).2

/-! ### Relations of states -/

/-- Whatever the answers to its uses of what is shared, the computation takes a worker from a state
    to a related one. -/
def Moves (R : Local σ → Local σ → Prop) (g : Gen σ α) : Prop :=
  ∀ ⦃l : Local σ⦄ ⦃a : α⦄ ⦃l' : Local σ⦄, g.Reaches l a l' → R l l'

/-- A preorder of the states of a worker that its draws, and its counts of what is left out and of
    what falls back, follow. -/
structure Followed (R : Local σ → Local σ → Prop) : Prop where
  refl : ∀ l, R l l
  trans : ∀ {l₁ l₂ l₃}, R l₁ l₂ → R l₂ l₃ → R l₁ l₃
  source : ∀ l source, R l { l with source }
  leftOut : ∀ l, R l { l with report := l.report.recordUnsupported }
  fallback : ∀ l, R l { l with report := l.report.recordFallback }

namespace Moves

variable {R : Local σ → Local σ → Prop}

theorem of_done {g : Gen σ α} (h : ∀ l, ∃ a l', g l = .done (a, l') ∧ R l l') : g.Moves R := by
  intro l a l' hr
  obtain ⟨b, l₁, hdone, hR⟩ := h l
  obtain ⟨-, rfl⟩ := hr.of_done hdone
  exact hR

/-- **What uses nothing shared follows the preorder**, if it sets no repetition. -/
theorem stepwise (h : Followed R) : Gen.Stepwise (σ := σ) (Gen.Moves R) where
  pure a := of_done fun l => ⟨a, l, rfl, h.refl l⟩
  bind hg hf := by
    intro l b l' hr
    obtain ⟨a, l₁, ha, hb⟩ := hr.of_bind
    exact h.trans (hg ha) (hf a hb)
  draw d := of_done fun l => ⟨(d l.source).1, _, rfl, h.source l (d l.source).2⟩
  crash := by
    intro α l a l' hr
    cases hr
  leftOut := of_done fun l => ⟨(), _, rfl, h.leftOut l⟩
  fallback := of_done fun l => ⟨(), _, rfl, h.fallback l⟩
  get hf _ := fun _ _ _ hr => hf _ hr

theorem nextNumber (h : ∀ l, R l l) (seed : Option Int) :
    (Gen.nextNumber seed : Gen σ Int).Moves R := by
  intro l n l' hr
  rw [hr.of_nextNumber]
  exact h l

theorem nextDate (h : ∀ l, R l l) (request : CursorRequest) :
    (Gen.nextDate request : Gen σ (Except StepFault Zoned)).Moves R := by
  intro l r l' hr
  rw [hr.of_nextDate]
  exact h l

end Moves
end Gen

/-! ## Counted uses -/

/-- The number of uses of the sequence and of the cursor that a report counts. -/
def Report.sharedUses (r : Report) : Nat :=
  r.usage.count "seq".toList + r.usage.count "datetime_seq".toList

theorem Report.sharedUses_recordUse {r : Report} (h : r.usage.Ordered) (name : Text) :
    (r.recordUse name).sharedUses =
      r.sharedUses + if name = "seq".toList ∨ name = "datetime_seq".toList then 1 else 0 := by
  have hne : "seq".toList ≠ "datetime_seq".toList := by decide
  simp only [sharedUses, recordUse, Tally.count_add name 1 h]
  generalize "seq".toList = x at hne ⊢
  generalize "datetime_seq".toList = y at hne ⊢
  by_cases hx : name = x
  · rw [if_pos hx.symm, if_neg fun hy => hne (hx.symm.trans hy.symm), if_pos (Or.inl hx)]
    omega
  by_cases hy : name = y
  · rw [if_neg (Ne.symm hx), if_pos hy.symm, if_pos (Or.inr hy)]
    omega
  · rw [if_neg (Ne.symm hx), if_neg (Ne.symm hy), if_neg (not_or.2 ⟨hx, hy⟩)]
    omega

/-- Only the names of the sequence and of the cursor stand for functions that use what is shared. -/
theorem Function.name_of_usesShared {t : Text} {f : Function} {c : Call}
    (hd : dispatch? t = some (f, c)) (hf : f.usesShared = true) :
    c.name = "seq".toList ∨ c.name = "datetime_seq".toList := by
  have hnames : ∀ p ∈ callNames, p.2.usesShared = true →
      p.1 = "seq".toList ∨ p.1 = "datetime_seq".toList := by decide
  have hwords : ∀ p ∈ keywords, p.2.usesShared = true →
      p.1 = "seq".toList ∨ p.1 = "datetime_seq".toList := by decide
  unfold dispatch? at hd
  split at hd
  · obtain ⟨c', -, hd⟩ := Option.bind_eq_some_iff.1 hd
    obtain ⟨f', hf', hd⟩ := Option.map_eq_some_iff.1 hd
    obtain ⟨rfl, rfl⟩ := Prod.mk.inj hd
    obtain ⟨before, after, hmem, -⟩ := List.lookup_eq_some_iff.1 hf'
    exact hnames (c'.name, f') (hmem ▸ List.mem_append_right before List.mem_cons_self) hf
  · obtain ⟨f', hf', hd⟩ := Option.map_eq_some_iff.1 hd
    obtain ⟨rfl, rfl⟩ := Prod.mk.inj hd
    obtain ⟨before, after, hmem, -⟩ := List.lookup_eq_some_iff.1 hf'
    exact hwords (_, f') (hmem ▸ List.mem_append_right before List.mem_cons_self) hf

/-- The report tells of uses of what is shared: they are counted, and if `quiet` holds, then a
    computation that counts no use ends at once, whatever is shared. -/
structure Gen.Tells (quiet : Prop) (g : Gen σ α) : Prop where
  ordered : ∀ {l a l'}, g.Reaches l a l' → l.report.usage.Ordered → l'.report.usage.Ordered
  grows : ∀ {l a l'}, g.Reaches l a l' → l.report.usage.Ordered →
    l.report.sharedUses ≤ l'.report.sharedUses
  ends : quiet → ∀ {l a l'}, g.Reaches l a l' → l.report.usage.Ordered →
    l'.report.sharedUses = l.report.sharedUses → g l = .done (a, l')

namespace Gen.Tells

variable {quiet : Prop}

/-- A computation that uses nothing shared, and counts no use. -/
theorem of_done {g : Gen σ α} (h : ∀ l, ∃ a l', g l = .done (a, l') ∧
    l'.report.usage = l.report.usage) : g.Tells quiet := by
  have hend : ∀ {l a l'}, g.Reaches l a l' →
      g l = .done (a, l') ∧ l'.report.usage = l.report.usage := by
    intro l a l' hr
    obtain ⟨a', l'', hdone, husage⟩ := h l
    obtain ⟨rfl, rfl⟩ := hr.of_done hdone
    exact ⟨hdone, husage⟩
  refine ⟨fun hr ho => ?_, fun hr ho => ?_, fun _ {l a l'} hr _ _ => (hend hr).1⟩
  · rw [(hend hr).2]
    exact ho
  · simp only [Report.sharedUses, (hend hr).2, le_refl]

/-- A computation without a result. -/
theorem crash : (Gen.crash : Gen σ α).Tells quiet := by
  have hnone : ∀ {l a l'}, ¬ (Gen.crash : Gen σ α).Reaches l a l' := by
    intro l a l' hr
    cases hr
  exact ⟨fun hr => absurd hr hnone, fun hr => absurd hr hnone, fun _ {_ _ _} hr => absurd hr hnone⟩

theorem bind {g : Gen σ α} {f : α → Gen σ β} (hg : g.Tells quiet) (hf : ∀ a, (f a).Tells quiet) :
    (g >>= f).Tells quiet := by
  constructor
  · intro l b l' hr ho
    obtain ⟨a, l₁, ha, hb⟩ := hr.of_bind
    exact (hf a).ordered hb (hg.ordered ha ho)
  · intro l b l' hr ho
    obtain ⟨a, l₁, ha, hb⟩ := hr.of_bind
    exact (hg.grows ha ho).trans ((hf a).grows hb (hg.ordered ha ho))
  · intro hq l b l' hr ho heq
    obtain ⟨a, l₁, ha, hb⟩ := hr.of_bind
    have ho₁ := hg.ordered ha ho
    have hle := hg.grows ha ho
    have hle₁ := (hf a).grows hb ho₁
    have hdone := hg.ends hq ha ho (by omega)
    have hdone₁ := (hf a).ends hq hb ho₁ (by omega)
    change (g l).bind (fun p => f p.1 p.2) = _
    rw [hdone]
    exact hdone₁

theorem stepwise (quiet : Prop) : Gen.Stepwise (σ := σ) (Gen.Tells quiet) where
  pure a := of_done fun l => ⟨a, l, rfl, rfl⟩
  bind := bind
  draw d := of_done fun l => ⟨(d l.source).1, { l with source := (d l.source).2 }, rfl, rfl⟩
  crash := crash
  leftOut := of_done fun _ => ⟨(), _, rfl, rfl⟩
  fallback := of_done fun _ => ⟨(), _, rfl, rfl⟩
  get hf _ := ⟨fun hr => (hf _).ordered hr, fun hr => (hf _).grows hr,
    fun hq {_ _ _} hr => (hf _).ends hq hr⟩

/-- **What uses nothing shared tells of its uses**, together with what it is made of. -/
theorem closed (quiet : Prop) : Gen.Closed (σ := σ) (Gen.Tells quiet) :=
  (stepwise quiet).closed fun n => of_done fun l => ⟨(), { l with nested := n }, rfl, rfl⟩

theorem nextNumber (seed : Option Int) : (Gen.nextNumber seed : Gen σ Int).Tells False :=
  ⟨fun hr ho => hr.of_nextNumber ▸ ho, fun hr _ => hr.of_nextNumber ▸ le_rfl, False.elim⟩

theorem nextDate (request : CursorRequest) :
    (Gen.nextDate request : Gen σ (Except StepFault Zoned)).Tells False :=
  ⟨fun hr ho => hr.of_nextDate ▸ ho, fun hr _ => hr.of_nextDate ▸ le_rfl, False.elim⟩

end Gen.Tells

/-! ## Evaluations -/

section

variable [WordSource σ]

/-- **A call whose function uses what is shared is counted; any other one makes no use of it**,
    except by the calls inside it. -/
theorem invoke_tells (now : Moment) {self : Text → Gen σ Value} (hself : ∀ t, (self t).Tells True)
    {f : Function} {c : Call} {t : Text} (hd : dispatch? t = some (f, c)) :
    (invoke now self f c t).Tells True := by
  have hcount : ∀ {l a l'}, (invoke now self f c t).Reaches l a l' →
      (carryOut now self f c t).Reaches { l with report := l.report.recordUse c.name } a l' := by
    intro l a l' hr
    exact hr
  have hordered : ∀ {l : Local σ}, l.report.usage.Ordered →
      (l.report.recordUse c.name).usage.Ordered := fun ho => Tally.ordered_add c.name 1 ho
  cases hshared : f.usesShared with
  | true =>
    -- the count of the use is more than none, so there is nothing to show for a quiet call
    have hname := Function.name_of_usesShared hd hshared
    have hcarry : (carryOut now self f c t).Tells False := by
      refine carryOut_closed (Gen.Tells.closed False) (fun u => ?_) now
        (fun _ => ⟨.nextNumber, .nextDate⟩) c t
      exact ⟨(hself u).ordered, (hself u).grows, False.elim⟩
    have hmore : ∀ {l a l'}, (invoke now self f c t).Reaches l a l' → l.report.usage.Ordered →
        l.report.sharedUses < l'.report.sharedUses := by
      intro l a l' hr ho
      have hle := hcarry.grows (hcount hr) (hordered ho)
      rw [Report.sharedUses_recordUse ho, if_pos hname] at hle
      omega
    exact ⟨fun hr ho => hcarry.ordered (hcount hr) (hordered ho), fun hr ho => (hmore hr ho).le,
      fun _ _ _ _ hr ho heq => absurd heq (hmore hr ho).ne'⟩
  | false =>
    have hcarry : (carryOut now self f c t).Tells True :=
      carryOut_closed (Gen.Tells.closed True) hself now
        (fun h => absurd h (by rw [hshared]; exact Bool.false_ne_true)) c t
    have hle : ∀ {l : Local σ}, l.report.usage.Ordered →
        l.report.sharedUses ≤ (l.report.recordUse c.name).sharedUses := by
      intro l ho
      rw [Report.sharedUses_recordUse ho]
      omega
    refine ⟨fun hr ho => hcarry.ordered (hcount hr) (hordered ho),
      fun hr ho => (hle ho).trans (hcarry.grows (hcount hr) (hordered ho)),
      fun _ _ _ _ hr ho heq => ?_⟩
    have hgrows := hcarry.grows (hcount hr) (hordered ho)
    have hstart := hle ho
    exact hcarry.ends trivial (hcount hr) (hordered ho) (by dsimp only at hgrows ⊢; omega)

/-- **The evaluation of a text tells of its uses of what is shared.** -/
theorem evaluateText_tells (now : Moment) (t : Text) :
    (evaluateText now t : Gen σ Value).Tells True :=
  evaluateText_closed (Gen.Tells.closed True) now
    (fun _ hself _ _ _ hd => invoke_tells now hself hd) t

theorem evaluateLeaf_tells (now : Moment) (node : Json) :
    (evaluateLeaf now node : Gen σ Value).Tells True :=
  evaluateLeafWith_closed (Gen.Tells.closed True) (evaluateText_tells now) node

end

/-! ## Any shared state -/

/-- The report counts no use of the sequence, and none of the cursor. -/
def Report.Stateless (r : Report) : Prop :=
  r.usage.count "seq".toList = 0 ∧ r.usage.count "datetime_seq".toList = 0

/-- The computation of a new worker needs no shared state, if its report counts no use of it: it
    leaves the state as it is, and ends in the same way for every other one. -/
def Gen.Oblivious (g : Gen σ α) : Prop :=
  ∀ source nested s₁ a l s₁', g.Yields (.start source nested) s₁ a l s₁' → l.report.Stateless →
    s₁' = s₁ ∧ ∀ s₂, g.Yields (.start source nested) s₂ a l s₂

/-- A new worker that counts no use has made none. -/
theorem Gen.Tells.eq_done {g : Gen σ α} (h : g.Tells True) {source : σ} {nested : Nat} {a : α}
    {l : Local σ} (hr : g.Reaches (.start source nested) a l) (hl : l.report.Stateless) :
    g (.start source nested) = .done (a, l) := by
  refine h.ends trivial hr List.Pairwise.nil ?_
  simp only [Report.sharedUses, hl.1, hl.2]
  rfl

theorem Gen.Tells.oblivious {g : Gen σ α} (h : g.Tells True) : g.Oblivious := by
  intro source nested s₁ a l s₁' hy hl
  have hdone := h.eq_done hy.reaches hl
  have hany : ∀ s, g.Yields (.start source nested) s a l s := by
    intro s
    unfold Gen.Yields
    rw [hdone]
    rfl
  exact ⟨(hy.unique (hany s₁)).2.2, hany⟩

end Recordsmith
