import Recordsmith.Evaluator
import Recordsmith.Proofs.Computation

/-!
# Attempts

An attempt is a computation of a worker that may fail for a cause in the call.

* `Attempt.Succeeds`, `Attempt.Fails` are its two normal ends, and `Attempt.fails_bind_iff` takes a
  sequence of attempts apart;
* `Attempt.Atomic`: a failure leaves all as it was. This holds of a sequence whose first part changes
  nothing (`Atomic.bind_of_still`), or whose later parts cannot fail (`Atomic.bind_of_sure`);
* `Function.applyDateOffset_still`, `Function.candidate_still`: a date at an offset from the present,
  and the date where a sequence would like to start, are found without any change.
-/

namespace Recordsmith

namespace Attempt

variable {σ α β : Type}

/-! ## Ends -/

/-- The attempt ends normally with a result. -/
def Succeeds (x : Attempt σ α) (l : Local σ) (s : Shared) (a : α) (l' : Local σ) (s' : Shared) :
    Prop :=
  Gen.Yields x.run l s (.ok a) l' s'

/-- The attempt ends normally with a failure. -/
def Fails (x : Attempt σ α) (l : Local σ) (s : Shared) (e : Failure) (l' : Local σ) (s' : Shared) :
    Prop :=
  Gen.Yields x.run l s (.error e) l' s'

variable {x : Attempt σ α} {f : α → Attempt σ β} {l l' : Local σ} {s s' : Shared}

theorem succeeds_bind_iff {b : β} :
    (x >>= f).Succeeds l s b l' s' ↔
      ∃ a l₁ s₁, x.Succeeds l s a l₁ s₁ ∧ (f a).Succeeds l₁ s₁ b l' s' := by
  unfold Succeeds
  rw [ExceptT.run_bind, Gen.yields_bind_iff]
  constructor
  · rintro ⟨r, l₁, s₁, hx, hf⟩
    cases r with
    | ok a => exact ⟨a, l₁, s₁, hx, hf⟩
    | error e => exact absurd (Gen.yields_pure_iff.1 hf).1 (by simp)
  · rintro ⟨a, l₁, s₁, hx, hf⟩
    exact ⟨.ok a, l₁, s₁, hx, hf⟩

/-- **A sequence fails where its first part fails, or after it.** -/
theorem fails_bind_iff {e : Failure} :
    (x >>= f).Fails l s e l' s' ↔
      x.Fails l s e l' s' ∨ ∃ a l₁ s₁, x.Succeeds l s a l₁ s₁ ∧ (f a).Fails l₁ s₁ e l' s' := by
  unfold Fails Succeeds
  rw [ExceptT.run_bind, Gen.yields_bind_iff]
  constructor
  · rintro ⟨r, l₁, s₁, hx, hf⟩
    cases r with
    | ok a => exact Or.inr ⟨a, l₁, s₁, hx, hf⟩
    | error e' =>
      obtain ⟨he, rfl, rfl⟩ := Gen.yields_pure_iff.1 hf
      obtain rfl := Except.error.inj he
      exact Or.inl hx
  · rintro (hx | ⟨a, l₁, s₁, hx, hf⟩)
    · exact ⟨.error e, l', s', hx, Gen.yields_pure_iff.2 ⟨rfl, rfl, rfl⟩⟩
    · exact ⟨.ok a, l₁, s₁, hx, hf⟩

theorem succeeds_lift_iff {g : Gen σ α} {a : α} :
    Succeeds (ExceptT.lift g) l s a l' s' ↔ g.Yields l s a l' s' := by
  unfold Succeeds
  rw [ExceptT.run_lift, Gen.yields_map_iff]
  constructor
  · rintro ⟨b, h, hb⟩
    rw [Except.ok.inj hb]
    exact h
  · exact fun h => ⟨a, h, rfl⟩

theorem succeeds_liftM_iff {r : Except Failure α} {a : α} :
    (liftM r : Attempt σ α).Succeeds l s a l' s' ↔ .ok a = r ∧ l' = l ∧ s' = s :=
  Gen.yields_pure_iff

theorem succeeds_drawChecked_iff {d : StateM σ (Except Failure α)} {a : α} :
    (drawChecked d).Succeeds l s a l' s' ↔
      .ok a = (d l.source).1 ∧ l' = { l with source := (d l.source).2 } ∧ s' = s :=
  Gen.yields_draw_iff

/-- What does not fail is passed on. -/
theorem ok_bind (a : α) (f : α → Attempt σ β) :
    (liftM (Except.ok a : Except Failure α) : Attempt σ α) >>= f = f a := rfl

theorem error_bind (e : Failure) (f : α → Attempt σ β) :
    (liftM (Except.error e : Except Failure α) : Attempt σ α) >>= f = throw e := rfl

/-! ## Attempts that cannot fail -/

/-- The attempt never fails. -/
def Sure (x : Attempt σ α) : Prop := ∀ l s e l' s', ¬ x.Fails l s e l' s'

theorem Sure.pure (a : α) : Sure (Pure.pure a : Attempt σ α) := by
  intro l s e l' s' h
  exact absurd (Gen.yields_pure_iff.1 h).1 (by simp)

theorem Sure.lift (g : Gen σ α) : Sure (ExceptT.lift g : Attempt σ α) := by
  intro l s e l' s' h
  unfold Fails at h
  rw [ExceptT.run_lift, Gen.yields_map_iff] at h
  obtain ⟨a, -, ha⟩ := h
  exact absurd ha (by simp)

theorem Sure.bind (hx : Sure x) (hf : ∀ a, Sure (f a)) : Sure (x >>= f) := by
  intro l s e l' s' h
  rcases fails_bind_iff.1 h with h | ⟨a, l₁, s₁, -, h⟩
  · exact hx l s e l' s' h
  · exact hf a l₁ s₁ e l' s' h

/-! ## Attempts whose failures leave all as it was -/

/-- A failure of the attempt leaves all as it was. -/
def Atomic (x : Attempt σ α) (l : Local σ) (s : Shared) : Prop :=
  ∀ e l' s', x.Fails l s e l' s' → l' = l ∧ s' = s

/-- The attempt leaves all as it was. -/
structure Still (x : Attempt σ α) (l : Local σ) (s : Shared) : Prop where
  atomic : x.Atomic l s
  unchanged : ∀ a l' s', x.Succeeds l s a l' s' → l' = l ∧ s' = s

theorem Sure.atomic (hx : Sure x) : x.Atomic l s := fun e l' s' h => absurd h (hx l s e l' s')

theorem Atomic.throw (e : Failure) : Atomic (throw e : Attempt σ α) l s := by
  intro e' l' s' h
  exact (Gen.yields_pure_iff.1 h).2

theorem Still.pure (a : α) : Still (Pure.pure a : Attempt σ α) l s := by
  refine ⟨(Sure.pure a).atomic, fun a' l' s' h => ?_⟩
  exact (Gen.yields_pure_iff.1 h).2

theorem Still.throw (e : Failure) : Still (throw e : Attempt σ α) l s := by
  refine ⟨.throw e, fun a l' s' h => ?_⟩
  exact absurd (Gen.yields_pure_iff.1 h).1 (by simp)

theorem Still.liftM (r : Except Failure α) : Still (liftM r : Attempt σ α) l s := by
  cases r with
  | ok a => exact .pure a
  | error e => exact .throw e

theorem Still.get : Still (ExceptT.lift (get : Gen σ (Local σ)) : Attempt σ (Local σ)) l s := by
  refine ⟨(Sure.lift _).atomic, fun a l' s' h => ?_⟩
  exact (Gen.yields_get_iff.1 (succeeds_lift_iff.1 h)).2

/-- **A failure after a part that changes nothing leaves all as it was.** -/
theorem Atomic.bind_of_still (hx : x.Still l s) (hf : ∀ a, x.Succeeds l s a l s → (f a).Atomic l s) :
    (x >>= f).Atomic l s := by
  intro e l' s' h
  rcases fails_bind_iff.1 h with hfirst | ⟨a, l₁, s₁, ha, hlater⟩
  · exact hx.atomic e l' s' hfirst
  · obtain ⟨rfl, rfl⟩ := hx.unchanged a l₁ s₁ ha
    exact hf a ha e l' s' hlater

/-- **A failure leaves all as it was if it cannot come later than the first part.** -/
theorem Atomic.bind_of_sure (hx : x.Atomic l s) (hf : ∀ a, Sure (f a)) : (x >>= f).Atomic l s := by
  intro e l' s' h
  rcases fails_bind_iff.1 h with h | ⟨a, l₁, s₁, -, h⟩
  · exact hx e l' s' h
  · exact absurd h (hf a l₁ s₁ e l' s')

theorem Still.bind (hx : x.Still l s) (hf : ∀ a, x.Succeeds l s a l s → (f a).Still l s) :
    (x >>= f).Still l s := by
  refine ⟨.bind_of_still hx fun a ha => (hf a ha).atomic, fun b l' s' h => ?_⟩
  obtain ⟨a, l₁, s₁, ha, hlater⟩ := succeeds_bind_iff.1 h
  obtain ⟨rfl, rfl⟩ := hx.unchanged a l₁ s₁ ha
  exact (hf a ha).unchanged b l' s' hlater

theorem Still.crash : Still (ExceptT.lift Gen.crash : Attempt σ α) l s := by
  refine ⟨(Sure.lift _).atomic, fun a l' s' h => ?_⟩
  exact absurd (succeeds_lift_iff.1 h) Gen.not_yields_crash

theorem Still.ofChecked {ε : Type} (failure? : ε → Option Failure) (r : Except ε α) :
    Still (ofChecked failure? r : Attempt σ α) l s := by
  cases r with
  | ok a => exact .pure a
  | error fault =>
    unfold Attempt.ofChecked
    dsimp only
    split
    · exact .throw _
    · exact .crash

end Attempt

/-! ## Calls that change nothing -/

namespace Function

open Attempt

variable {σ : Type} {l : Local σ} {s : Shared}

theorem applyDateOffset_still (now : Moment) (c : Call) : (applyDateOffset now c).Still l s := by
  refine .bind (.liftM _) fun offset _ => ?_
  refine .bind (.liftM _) fun source _ => ?_
  refine .bind (.liftM _) fun p _ => ?_
  refine .bind (.liftM _) fun name _ => ?_
  refine .bind (.liftM _) fun zone _ => ?_
  refine .bind (.liftM _) fun unit _ => ?_
  refine .bind (.ofChecked _ _) fun amount _ => ?_
  exact .bind (.ofChecked _ _) fun z _ => .pure _

theorem candidate_still (c : Call) (p : Pattern) (unit : TimeUnit) (now : Zoned) (start : Text) :
    (candidate c p unit now start).Still l s := by
  refine .bind (.ofChecked _ _) fun offset _ => ?_
  cases offset with
  | some n =>
    dsimp only
    split
    · exact .pure _
    · rw [map_eq_pure_bind]
      exact .bind (.ofChecked _ _) fun z _ => .pure _
  | none =>
    refine .bind (.liftM _) fun reading _ => ?_
    split
    · exact .pure _
    · exact .throw _

end Function
end Recordsmith
