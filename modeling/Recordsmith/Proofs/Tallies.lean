import Mathlib.Data.Char
import Mathlib.Data.List.Lex
import Mathlib.Tactic
import Recordsmith.Report

/-!
# Tallies

A tally is kept in the order of its names, and so has one count for each of them.

* `Tally.ordered_add`: counting keeps the order;
* `Tally.count_add`: in an ordered tally it changes one count only;
* `Tally.add_comm`: counts can be added in any order;
* `Tally.count_merge`: two tallies together count what each of them counts;
* `Report.request_eq_some_iff`, `Report.merge_eq_some_iff`: reports can be added as long as the
  requested records can be counted.
-/

namespace Recordsmith

namespace Tally

/-- The names stand in order, each of them once. -/
def Ordered (t : Tally) : Prop := t.Pairwise fun p q => p.1 < q.1

theorem ordered_cons {p : Text × Nat} {rest : Tally} :
    Ordered (p :: rest) ↔ (∀ q ∈ rest, p.1 < q.1) ∧ Ordered rest := List.pairwise_cons

theorem count_cons (name other : Text) (m : Nat) (rest : Tally) :
    count ((name, m) :: rest) other = if other = name then m else count rest other := by
  unfold count
  by_cases h : other = name
  · rw [if_pos h, h, List.lookup_cons_self]
    rfl
  · rw [if_neg h, List.lookup_cons, beq_eq_false_iff_ne.2 h]

/-- A name before all names of a tally has no count in it. -/
theorem count_eq_zero {t : Tally} {name : Text} (h : ∀ q ∈ t, name < q.1) : count t name = 0 := by
  induction t with
  | nil => rfl
  | cons p rest ih =>
    obtain ⟨hp, hrest⟩ := List.forall_mem_cons.1 h
    rw [count_cons, if_neg hp.ne, ih hrest]

theorem mem_add {name : Text} {n : Nat} {t : Tally} {q : Text × Nat} (h : q ∈ add name n t) :
    q.1 = name ∨ ∃ p ∈ t, p.1 = q.1 := by
  induction t with
  | nil =>
    obtain rfl := List.mem_singleton.1 h
    exact Or.inl rfl
  | cons p rest ih =>
    simp only [add] at h
    split_ifs at h
    · rcases List.mem_cons.1 h with hq | hq
      · exact Or.inr ⟨p, List.mem_cons_self, (congrArg Prod.fst hq).symm⟩
      · exact Or.inr ⟨q, List.mem_cons_of_mem p hq, rfl⟩
    · rcases List.mem_cons.1 h with hq | hq
      · exact Or.inl (congrArg Prod.fst hq)
      · exact Or.inr ⟨q, hq, rfl⟩
    · rcases List.mem_cons.1 h with hq | hq
      · exact Or.inr ⟨p, List.mem_cons_self, (congrArg Prod.fst hq).symm⟩
      · rcases ih hq with hq | ⟨r, hr, hq⟩
        · exact Or.inl hq
        · exact Or.inr ⟨r, List.mem_cons_of_mem p hr, hq⟩

/-- **Counting keeps the order.** -/
theorem ordered_add (name : Text) (n : Nat) {t : Tally} (h : Ordered t) :
    Ordered (add name n t) := by
  induction t with
  | nil => exact List.pairwise_singleton _ _
  | cons p rest ih =>
    obtain ⟨hp, hrest⟩ := ordered_cons.1 h
    simp only [add]
    split_ifs with heq hlt
    · exact ordered_cons.2 ⟨hp, hrest⟩
    · refine ordered_cons.2 ⟨?_, h⟩
      exact List.forall_mem_cons.2 ⟨hlt, fun q hq => hlt.trans (hp q hq)⟩
    · refine ordered_cons.2 ⟨fun q hq => ?_, ih hrest⟩
      rcases mem_add hq with hq | ⟨r, hr, hq⟩
      · rw [hq]
        exact lt_of_le_of_ne (not_lt.1 hlt) heq
      · rw [← hq]
        exact hp r hr

/-- **Counting changes the count of one name.** -/
theorem count_add (name : Text) (n : Nat) {t : Tally} (h : Ordered t) (other : Text) :
    count (add name n t) other = count t other + if other = name then n else 0 := by
  induction t with
  | nil =>
    simp only [add, count_cons]
    split <;> simp [count]
  | cons p rest ih =>
    obtain ⟨first, m⟩ := p
    obtain ⟨hp, hrest⟩ := ordered_cons.1 h
    simp only [add]
    by_cases heq : first = name
    · rw [if_pos heq, count_cons, count_cons, heq]
      split <;> rfl
    rw [if_neg heq]
    by_cases hlt : name < first
    · rw [if_pos hlt, count_cons name]
      by_cases hother : other = name
      · have hzero : count ((first, m) :: rest) name = 0 :=
          count_eq_zero (List.forall_mem_cons.2 ⟨hlt, fun q hq => hlt.trans (hp q hq)⟩)
        rw [if_pos hother, if_pos hother, hother, hzero, Nat.zero_add]
      · rw [if_neg hother, if_neg hother, Nat.add_zero]
    · rw [if_neg hlt, count_cons, count_cons, ih hrest]
      by_cases hother : other = first
      · rw [if_pos hother, if_pos hother, if_neg (hother ▸ heq), Nat.add_zero]
      · rw [if_neg hother, if_neg hother]

/-- **Counts can be added in any order.** -/
theorem add_comm (name other : Text) (m n : Nat) (t : Tally) :
    add name m (add other n t) = add other n (add name m t) := by
  rcases eq_or_ne name other with rfl | hne
  · induction t with
    | nil => simp [add, Nat.add_comm]
    | cons p rest ih =>
      simp only [add]
      split_ifs with heq hlt
      · simp [add, heq, Nat.add_right_comm]
      · simp [add, Nat.add_comm]
      · simp [add, heq, hlt, ih]
  · induction t with
    | nil =>
      rcases hne.lt_or_gt with hlt | hlt
      · simp [add, hlt.ne, hlt.ne', hlt, hlt.asymm]
      · simp [add, hlt.ne, hlt.ne', hlt, hlt.asymm]
    | cons p rest ih =>
      obtain ⟨k, v⟩ := p
      -- the count that stands first decides where each of the two goes
      rcases lt_trichotomy name k with h₁ | rfl | h₁
      · rcases lt_trichotomy other k with h₂ | rfl | h₂
        · rcases hne.lt_or_gt with hlt | hlt
          · simp [add, h₁, h₂, h₁.ne', h₂.ne', hlt, hlt.ne, hlt.ne', hlt.asymm]
          · simp [add, h₁, h₂, h₁.ne', h₂.ne', hlt, hlt.ne, hlt.ne', hlt.asymm]
        · simp [add, h₁, h₁.ne', h₁.ne, h₁.asymm]
        · simp [add, h₁, h₁.ne', h₂.ne, h₂.asymm, (h₁.trans h₂).asymm, (h₁.trans h₂).ne]
      · rcases lt_trichotomy other name with h₂ | rfl | h₂
        · simp [add, h₂, h₂.ne', h₂.ne, h₂.asymm]
        · exact absurd rfl hne
        · simp [add, h₂.ne, h₂.asymm]
      · rcases lt_trichotomy other k with h₂ | rfl | h₂
        · simp [add, h₂, h₁.ne, h₂.ne', h₁.asymm, (h₂.trans h₁).asymm, (h₂.trans h₁).ne]
        · simp [add, h₁.ne, h₁.asymm]
        · simp [add, h₁.ne, h₁.asymm, h₂.ne, h₂.asymm, ih]

/-! ## Two tallies -/

/-- The names that a tally counts. -/
def names (t : Tally) : List Text := t.map Prod.fst

theorem mem_names_add {name other : Text} {n : Nat} {t : Tally} :
    other ∈ names (add name n t) ↔ other = name ∨ other ∈ names t := by
  induction t with
  | nil => simp [add, names]
  | cons p rest ih =>
    simp only [names] at ih
    simp only [add]
    split_ifs with heq hlt
    · simp [names, heq]
    · simp [names]
    · simp [names, ih, or_left_comm]

theorem mem_names_merge {name : Text} {t u : Tally} :
    name ∈ names (merge t u) ↔ name ∈ names t ∨ name ∈ names u := by
  induction u generalizing t with
  | nil => simp [merge, names]
  | cons p rest ih =>
    change name ∈ names (merge (add p.1 p.2 t) rest) ↔ _
    rw [ih, mem_names_add]
    simp only [names, List.map_cons, List.mem_cons]
    tauto

theorem ordered_merge {t : Tally} (h : Ordered t) (u : Tally) : Ordered (merge t u) := by
  induction u generalizing t with
  | nil => exact h
  | cons p rest ih => exact ih (ordered_add p.1 p.2 h)

/-- **Two tallies together count what each of them counts.** -/
theorem count_merge {t u : Tally} (ht : Ordered t) (hu : Ordered u) (name : Text) :
    count (merge t u) name = count t name + count u name := by
  induction u generalizing t with
  | nil => rfl
  | cons p rest ih =>
    obtain ⟨other, n⟩ := p
    obtain ⟨hfirst, hrest⟩ := ordered_cons.1 hu
    change count (merge (add other n t) rest) name = _
    rw [ih (ordered_add other n ht) hrest, count_add other n ht, count_cons]
    by_cases hname : name = other
    · have hzero : count rest name = 0 := count_eq_zero (hname ▸ hfirst)
      rw [if_pos hname, if_pos hname, hzero, Nat.add_zero]
    · rw [if_neg hname, if_neg hname, Nat.add_zero]

end Tally

/-! ## Reports -/

namespace Report

variable {r s t : Report} {n : Nat}

theorem request_eq_some_iff : r.request n = some t ↔
    r.requested + n < twoTo 64 ∧ t = { r with requested := r.requested + n } := by
  unfold request
  rw [Option.ite_none_right_eq_some, Option.some.injEq, eq_comm (a := t)]

theorem merge_eq_some_iff : r.merge s = some t ↔ r.requested + s.requested < twoTo 64 ∧
    t = ⟨r.requested + s.requested, r.generated + s.generated, r.usage.merge s.usage,
      r.fallbacks + s.fallbacks, r.unsupported + s.unsupported,
      r.workerFailures + s.workerFailures⟩ := by
  unfold merge
  rw [Option.map_eq_some_iff]
  constructor
  · rintro ⟨u, hu, rfl⟩
    obtain ⟨hlt, rfl⟩ := request_eq_some_iff.1 hu
    exact ⟨hlt, rfl⟩
  · rintro ⟨hlt, rfl⟩
    exact ⟨_, request_eq_some_iff.2 ⟨hlt, rfl⟩, rfl⟩

end Report
end Recordsmith
