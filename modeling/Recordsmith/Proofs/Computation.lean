import Mathlib.Tactic
import Recordsmith.Worker

/-!
# Computations of workers

* `Work` is a lawful monad, and `Work.run_bind` runs works one after the other;
* `Gen.Yields` is the normal end of a computation, with what it leaves behind, and `Gen.BreaksDown`
  the other one;
* `Gen.yields_bind_iff`, `Gen.breaksDown_bind_iff` take a sequence of computations apart, and each
  use of what is a worker's own or shared has a lemma of its own.
-/

namespace Recordsmith

/-! ## Works -/

namespace Work

variable {α β γ : Type}

theorem bind_done (w : Work α) : w.bind done = w := by
  induction w with
  | done | crash => rfl
  | next seed resume ih =>
    simp only [bind]
    exact congrArg (next seed) (funext ih)
  | advance request resume ih =>
    simp only [bind]
    exact congrArg (advance request) (funext ih)

theorem bind_bind (w : Work α) (f : α → Work β) (g : β → Work γ) :
    (w.bind f).bind g = w.bind fun a => (f a).bind g := by
  induction w with
  | done | crash => rfl
  | next seed resume ih =>
    simp only [bind]
    exact congrArg (next seed) (funext ih)
  | advance request resume ih =>
    simp only [bind]
    exact congrArg (advance request) (funext ih)

instance : LawfulMonad Work :=
  LawfulMonad.mk' Work bind_done (fun _ _ => rfl) bind_bind

theorem run_bind (w : Work α) (f : α → Work β) (s : Shared) :
    (w >>= f).run s = match w.run s with
      | (some a, s) => (f a).run s
      | (none, s) => (none, s) := by
  change (w.bind f).run s = _
  induction w generalizing s with
  | done | crash => rfl
  | next seed resume ih => exact ih _ _
  | advance request resume ih => exact ih _ _

end Work

/-! ## Ends of computations -/

namespace Gen

variable {σ α β : Type}

/-- The computation ends normally, with this result, from one state of a worker to another. -/
def Yields (g : Gen σ α) (l : Local σ) (s : Shared) (a : α) (l' : Local σ) (s' : Shared) : Prop :=
  (g l).run s = (some (a, l'), s')

/-- The computation breaks down, and leaves this behind. -/
def BreaksDown (g : Gen σ α) (l : Local σ) (s s' : Shared) : Prop := (g l).run s = (none, s')

theorem yields_or_breaksDown (g : Gen σ α) (l : Local σ) (s : Shared) :
    (∃ a l' s', g.Yields l s a l' s') ∨ ∃ s', g.BreaksDown l s s' := by
  rcases h : (g l).run s with ⟨_ | ⟨a, l'⟩, s'⟩
  · exact Or.inr ⟨s', h⟩
  · exact Or.inl ⟨a, l', s', h⟩

theorem Yields.unique {g : Gen σ α} {l l₁ l₂ : Local σ} {s s₁ s₂ : Shared} {a₁ a₂ : α}
    (h₁ : g.Yields l s a₁ l₁ s₁) (h₂ : g.Yields l s a₂ l₂ s₂) : a₁ = a₂ ∧ l₁ = l₂ ∧ s₁ = s₂ := by
  have h := h₁.symm.trans h₂
  simpa [and_assoc] using h

theorem BreaksDown.not_yields {g : Gen σ α} {l l' : Local σ} {s s₁ s₂ : Shared} {a : α}
    (h₁ : g.BreaksDown l s s₁) (h₂ : g.Yields l s a l' s₂) : False := by
  have h := h₁.symm.trans h₂
  simp at h

/-! ### Sequences -/

@[simp] theorem yields_pure_iff {a b : α} {l l' : Local σ} {s s' : Shared} :
    (pure a : Gen σ α).Yields l s b l' s' ↔ b = a ∧ l' = l ∧ s' = s := by
  constructor
  · intro h
    cases h
    exact ⟨rfl, rfl, rfl⟩
  · rintro ⟨rfl, rfl, rfl⟩
    rfl

@[simp] theorem not_breaksDown_pure {a : α} {l : Local σ} {s s' : Shared} :
    ¬ (pure a : Gen σ α).BreaksDown l s s' := by
  intro h
  cases h

theorem run_bind (g : Gen σ α) (f : α → Gen σ β) (l : Local σ) (s : Shared) :
    ((g >>= f) l).run s = match (g l).run s with
      | (some (a, l), s) => (f a l).run s
      | (none, s) => (none, s) := by
  change (g l >>= fun p => f p.1 p.2).run s = _
  rw [Work.run_bind]
  rcases (g l).run s with ⟨_ | ⟨a, l'⟩, s'⟩ <;> rfl

theorem yields_bind_iff {g : Gen σ α} {f : α → Gen σ β} {b : β} {l l' : Local σ} {s s' : Shared} :
    (g >>= f).Yields l s b l' s' ↔
      ∃ a l₁ s₁, g.Yields l s a l₁ s₁ ∧ (f a).Yields l₁ s₁ b l' s' := by
  unfold Yields
  rw [run_bind]
  constructor
  · intro h
    rcases hg : (g l).run s with ⟨_ | ⟨a, l₁⟩, s₁⟩
    · rw [hg] at h
      exact absurd h (by simp)
    · rw [hg] at h
      exact ⟨a, l₁, s₁, rfl, h⟩
  · rintro ⟨a, l₁, s₁, hg, hf⟩
    rw [hg]
    exact hf

theorem breaksDown_bind_iff {g : Gen σ α} {f : α → Gen σ β} {l : Local σ} {s s' : Shared} :
    (g >>= f).BreaksDown l s s' ↔
      g.BreaksDown l s s' ∨ ∃ a l₁ s₁, g.Yields l s a l₁ s₁ ∧ (f a).BreaksDown l₁ s₁ s' := by
  unfold BreaksDown Yields
  rw [run_bind]
  constructor
  · intro h
    rcases hg : (g l).run s with ⟨_ | ⟨a, l₁⟩, s₁⟩
    · rw [hg] at h
      exact Or.inl (by simpa using h)
    · rw [hg] at h
      exact Or.inr ⟨a, l₁, s₁, rfl, h⟩
  · rintro (hg | ⟨a, l₁, s₁, hg, hf⟩)
    · rw [hg]
    · rw [hg]
      exact hf

theorem yields_map_iff {g : Gen σ α} {f : α → β} {b : β} {l l' : Local σ} {s s' : Shared} :
    (f <$> g).Yields l s b l' s' ↔ ∃ a, g.Yields l s a l' s' ∧ b = f a := by
  rw [map_eq_pure_bind, yields_bind_iff]
  constructor
  · rintro ⟨a, l₁, s₁, h, hp⟩
    obtain ⟨rfl, rfl, rfl⟩ := yields_pure_iff.1 hp
    exact ⟨a, h, rfl⟩
  · rintro ⟨a, h, rfl⟩
    exact ⟨a, l', s', h, yields_pure_iff.2 ⟨rfl, rfl, rfl⟩⟩

/-! ### Uses of a worker's own -/

@[simp] theorem yields_get_iff {a l l' : Local σ} {s s' : Shared} :
    (get : Gen σ (Local σ)).Yields l s a l' s' ↔ a = l ∧ l' = l ∧ s' = s := by
  constructor
  · intro h
    cases h
    exact ⟨rfl, rfl, rfl⟩
  · rintro ⟨rfl, rfl, rfl⟩
    rfl

@[simp] theorem not_breaksDown_get {l : Local σ} {s s' : Shared} :
    ¬ (get : Gen σ (Local σ)).BreaksDown l s s' := by
  intro h
  cases h

@[simp] theorem yields_modify_iff {f : Local σ → Local σ} {a : Unit} {l l' : Local σ}
    {s s' : Shared} :
    (modify f : Gen σ Unit).Yields l s a l' s' ↔ l' = f l ∧ s' = s := by
  constructor
  · intro h
    cases h
    exact ⟨rfl, rfl⟩
  · rintro ⟨rfl, rfl⟩
    rfl

@[simp] theorem not_breaksDown_modify {f : Local σ → Local σ} {l : Local σ} {s s' : Shared} :
    ¬ (modify f : Gen σ Unit).BreaksDown l s s' := by
  intro h
  cases h

@[simp] theorem yields_draw_iff {d : StateM σ α} {a : α} {l l' : Local σ} {s s' : Shared} :
    (draw d).Yields l s a l' s' ↔
      a = (d l.source).1 ∧ l' = { l with source := (d l.source).2 } ∧ s' = s := by
  constructor
  · intro h
    cases h
    exact ⟨rfl, rfl, rfl⟩
  · rintro ⟨rfl, rfl, rfl⟩
    rfl

@[simp] theorem yields_note_iff {f : Report → Report} {a : Unit} {l l' : Local σ} {s s' : Shared} :
    (note f).Yields l s a l' s' ↔ l' = { l with report := f l.report } ∧ s' = s :=
  yields_modify_iff

@[simp] theorem not_yields_crash {a : α} {l l' : Local σ} {s s' : Shared} :
    ¬ (crash : Gen σ α).Yields l s a l' s' := by
  intro h
  cases h

/-! ### Uses of what is shared -/

@[simp] theorem yields_nextNumber_iff {seed : Option Int} {n : Int} {l l' : Local σ}
    {s s' : Shared} :
    (nextNumber seed).Yields l s n l' s' ↔
      n = (s.sequence.next seed).1 ∧ l' = l ∧
        s' = { s with sequence := (s.sequence.next seed).2 } := by
  constructor
  · intro h
    cases h
    exact ⟨rfl, rfl, rfl⟩
  · rintro ⟨rfl, rfl, rfl⟩
    rfl

@[simp] theorem yields_nextDate_iff {request : CursorRequest} {r : Except StepFault Zoned}
    {l l' : Local σ} {s s' : Shared} :
    (nextDate request).Yields l s r l' s' ↔
      r = (s.cursor.advance request).1 ∧ l' = l ∧
        s' = { s with cursor := (s.cursor.advance request).2 } := by
  unfold Yields nextDate
  simp only [Work.run]
  constructor
  · intro h
    obtain ⟨h₁, h₂⟩ := Prod.mk.inj h
    obtain ⟨h₁, h₃⟩ := Prod.mk.inj (Option.some.inj h₁)
    exact ⟨h₁.symm, h₃.symm, h₂.symm⟩
  · rintro ⟨rfl, rfl, rfl⟩
    rfl

/-! ### Another repetition of arrays -/

theorem yields_withNested_iff {g : Gen σ α} {nested : Nat} {a : α} {l l' : Local σ}
    {s s' : Shared} :
    (withNested nested g).Yields l s a l' s' ↔
      ∃ l₁, g.Yields { l with nested } s a l₁ s' ∧ l' = { l₁ with nested := l.nested } := by
  unfold withNested
  simp only [yields_bind_iff, yields_get_iff, yields_modify_iff, yields_pure_iff]
  constructor
  · rintro ⟨_, _, _, ⟨rfl, rfl, rfl⟩, _, _, _, ⟨rfl, rfl⟩, a', l₁, s₁, hg, _, _, _, ⟨rfl, rfl⟩,
      rfl, rfl, rfl⟩
    exact ⟨l₁, hg, rfl⟩
  · rintro ⟨l₁, hg, rfl⟩
    exact ⟨l, l, s, ⟨rfl, rfl, rfl⟩, (), _, s, ⟨rfl, rfl⟩, a, l₁, s', hg, (), _, s', ⟨rfl, rfl⟩,
      rfl, rfl, rfl⟩

end Gen
end Recordsmith
