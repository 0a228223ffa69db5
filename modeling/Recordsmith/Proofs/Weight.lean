import Mathlib.Tactic
import Recordsmith.Evaluator

/-!
# Weights of texts inside texts

The weight of a text counts its characters, except those that can be part of a time which replaces a
token. It bounds how deep texts can be evaluated inside each other, since each text inside a call
weighs less than the call:

* `Call.weight_inner_lt`, `Call.weight_argument_lt`: what stands between the brackets of a call, and
  each of its arguments;
* `Template.weight_substitute_le`: replacing the token makes no text heavier, although it can make
  it longer.
-/

namespace Recordsmith

@[simp] theorem weight_nil : weight [] = 0 := rfl

theorem weight_cons (c : Char) (t : Text) : weight (c :: t) = weight t + if weighs c then 1 else 0 :=
  List.countP_cons

theorem weight_append (t u : Text) : weight (t ++ u) = weight t + weight u := List.countP_append

theorem weight_le_cons (c : Char) (t : Text) : weight t ≤ weight (c :: t) := by
  rw [weight_cons]
  omega

theorem weight_cons_le (c : Char) (t : Text) : weight (c :: t) ≤ weight t + 1 := by
  rw [weight_cons]
  split <;> omega

theorem weight_le_of_sublist {t u : Text} (h : t.Sublist u) : weight t ≤ weight u :=
  h.countP_le

@[simp] theorem weight_reverse (t : Text) : weight t.reverse = weight t := List.countP_reverse

/-! ## Trimmed texts -/

namespace Text

theorem dropEndWhile_sublist (p : Char → Bool) (t : Text) : (dropEndWhile p t).Sublist t := by
  unfold dropEndWhile
  have h := (List.dropWhile_sublist p (l := t.reverse)).reverse
  rwa [List.reverse_reverse] at h

theorem trim_sublist (t : Text) : (trim t).Sublist t :=
  (dropEndWhile_sublist isBlank (trimStart t)).trans (List.dropWhile_sublist isBlank)

theorem sublist_of_inside? {q : Char} {t u : Text} (h : inside? q t = some u) : u.Sublist t := by
  cases t with
  | nil => exact absurd h (by simp [inside?])
  | cons c cs =>
    simp only [inside?] at h
    split at h
    · obtain rfl := Option.some.inj h
      exact (List.dropLast_sublist cs).trans (List.sublist_cons_self c cs)
    · exact absurd h (by simp)

theorem stripQuotes_sublist (t : Text) : (stripQuotes t).Sublist t := by
  simp only [stripQuotes]
  split
  · exact (trim_sublist _).trans ((sublist_of_inside? ‹_›).trans (trim_sublist t))
  · split
    · exact (trim_sublist _).trans ((sublist_of_inside? ‹_›).trans (trim_sublist t))
    · exact trim_sublist t

theorem beforeLast_sublist {c : Char} {t u : Text} (h : beforeLast c t = some u) :
    u.Sublist t := by
  unfold beforeLast at h
  split at h
  · exact absurd h (by simp)
  · rename_i k kept hk
    obtain rfl := Option.some.inj h
    have hd := List.dropWhile_sublist (· != c) (l := t.reverse)
    rw [hk] at hd
    simpa using ((List.sublist_cons_self k kept).trans hd).reverse

end Text

/-! ## Calls -/

theorem Scanner.pieces_sublist (t : Text) : ∀ (s : Scanner), ∀ p ∈ s.pieces t, p.Sublist t := by
  induction t with
  | nil =>
    intro s p hp
    obtain rfl := List.mem_singleton.1 hp
    exact List.Sublist.refl _
  | cons c rest ih =>
    intro s p hp
    simp only [pieces] at hp
    split at hp
    · rcases List.mem_cons.1 hp with rfl | hp
      · exact List.nil_sublist _
      · exact (ih _ p hp).cons c
    · split at hp
      · obtain rfl := List.mem_singleton.1 hp
        exact (List.nil_sublist rest).cons_cons c
      · rename_i piece others hpieces
        have hall := ih (s.step c)
        rw [hpieces] at hall
        rcases List.mem_cons.1 hp with rfl | hp
        · exact (hall piece List.mem_cons_self).cons_cons c
        · exact (hall p (List.mem_cons_of_mem _ hp)).cons c

theorem splitArguments_sublist (t : Text) : ∀ a ∈ splitArguments t, a.Sublist t := by
  intro a ha
  unfold splitArguments at ha
  split at ha
  · exact absurd ha List.not_mem_nil
  · obtain ⟨p, hp, rfl⟩ := List.mem_map.1 ha
    exact (Text.trim_sublist p).trans (Scanner.pieces_sublist t _ p hp)

namespace Call

/-- A call holds its inner text behind an opening bracket, and its arguments are parts of the inner
    text. -/
theorem parse?_eq_some {t : Text} {c : Call} (h : parse? t = some c) :
    ('(' :: c.inner).Sublist t ∧ c.arguments = splitArguments c.inner := by
  simp only [parse?, List.span_eq_takeWhile_dropWhile] at h
  split at h
  · exact absurd h (by simp)
  · rename_i b rest hrest
    obtain ⟨inner, hinner, h⟩ := Option.bind_eq_some_iff.1 h
    split at h
    · obtain rfl := Option.some.inj h
      refine ⟨?_, rfl⟩
      have hb : b = '(' := by
        have := List.head?_dropWhile_not (· != '(') (Text.trim t)
        simpa [hrest] using this
      have hsub := List.dropWhile_sublist (· != '(') (l := Text.trim t)
      rw [hrest, hb] at hsub
      exact (((Text.beforeLast_sublist hinner).cons_cons _).trans hsub).trans (Text.trim_sublist t)
    · exact absurd h (by simp)

/-- **What stands between the brackets of a call weighs less than the call.** -/
theorem weight_inner_lt {t : Text} {c : Call} (h : parse? t = some c) :
    weight c.inner < weight t := by
  have hw := weight_le_of_sublist (parse?_eq_some h).1
  have hb : weighs '(' = true := by decide
  rw [weight_cons, hb] at hw
  simp only [if_true] at hw
  omega

/-- **The arguments of a call weigh less than the call.** -/
theorem weight_argument_lt {t a : Text} {c : Call} (h : parse? t = some c)
    (ha : a ∈ c.arguments) : weight a < weight t := by
  rw [(parse?_eq_some h).2] at ha
  exact (weight_le_of_sublist (splitArguments_sublist c.inner a ha)).trans_lt (weight_inner_lt h)

end Call

/-! ## Keywords -/

theorem Function.weight_keyword_pos {word : Text} {f : Function} (h : ofKeyword? word = some f) :
    0 < weight word := by
  have hpos : ∀ p ∈ keywords, 0 < weight p.1 := by decide
  obtain ⟨before, after, hk, -⟩ := List.lookup_eq_some_iff.1 h
  exact hpos (word, f) (hk ▸ List.mem_append_right before List.mem_cons_self)

/-! ## The token of templates -/

theorem Text.eq_append_of_dropWord? {word t rest : Text} (h : dropWord? word t = some rest) :
    t = word ++ rest := by
  induction word generalizing t with
  | nil => exact Option.some.inj h
  | cons w ws ih =>
    cases t with
    | nil => exact absurd h (by simp [dropWord?])
    | cons c cs =>
      simp only [dropWord?] at h
      split at h
      · rename_i hc
        rw [ih h, hc]
        rfl
      · exact absurd h (by simp)

/-- Replacing a word by a text that is not heavier makes no text heavier. -/
theorem weight_replaceFrom_le {word by_ : Text} (hw : weight by_ ≤ weight word) (t : Text) :
    ∀ skip, weight (Text.replaceFrom word by_ skip t) ≤ weight (t.drop skip) := by
  induction t with
  | nil =>
    intro skip
    cases skip <;> simp [Text.replaceFrom]
  | cons c cs ih =>
    intro skip
    cases skip with
    | succ skip => exact ih skip
    | zero =>
      simp only [Text.replaceFrom, List.drop_zero]
      split
      · rename_i rest hrest
        have happ := Text.eq_append_of_dropWord? hrest
        have hlater := ih (word.length - 1)
        cases word with
        | nil =>
          have hle := weight_le_cons c cs
          simp only [weight_nil, List.length_nil, List.drop_zero, Nat.zero_sub] at hw hlater ⊢
          rw [weight_append]
          omega
        | cons w ws =>
          simp only [List.cons_append, List.cons.injEq] at happ
          simp only [List.length_cons, Nat.add_sub_cancel, happ.2, List.drop_left] at hlater
          rw [weight_append, happ.1, happ.2, ← List.cons_append, weight_append]
          simp only [List.length_cons, Nat.add_sub_cancel]
          omega
      · have := ih 0
        rw [weight_cons, weight_cons c cs]
        simp only [List.drop_zero] at this
        omega

/-- **Replacing the token makes no text heavier.** -/
theorem Template.weight_substitute_le (t : Text) : weight (substitute t) ≤ weight t :=
  weight_replaceFrom_le (by decide) t 0

end Recordsmith
