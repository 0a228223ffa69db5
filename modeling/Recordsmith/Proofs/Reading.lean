import Recordsmith.Proofs.Outcomes
import Recordsmith.Proofs.Weight

/-!
# What a JSON text contains

* `Json.Shows` are the texts that stand as values in a JSON value;
* `Json.suffix_of_…`: every reader leaves an end of its input;
* `Json.weight_of_string`: a string, once its escapes are replaced, weighs no more than what was
  read;
* `Json.weight_of_parse`: no text in a value weighs more than the text that it was read from.
-/

namespace Recordsmith.Json

/-- The text stands in the value, not as a key. -/
inductive Shows (t : Text) : Json → Prop
  | str : Shows t (.str t)
  | item {items : List Json} {v : Json} : v ∈ items → Shows t v → Shows t (.arr items)
  | member {members : Members} {key : Text} {v : Json} :
      (key, v) ∈ members → Shows t v → Shows t (.obj members)

/-! ## Inputs -/

theorem suffix_skip (i : Input) : i.skip.rest <:+ i.rest := by
  unfold Input.skip
  split
  · exact List.suffix_refl _
  · rename_i c rest h
    rw [h]
    exact List.suffix_cons c rest

theorem rest_of_skip {i : Input} {c : Char} {rest : Text} (h : i.rest = c :: rest) :
    i.skip.rest = rest := by
  simp only [Input.skip, h]

theorem suffix_skipSpace (i : Input) : i.skipSpace.rest <:+ i.rest :=
  List.dropWhile_suffix Input.isSpace

theorem weight_le_of_suffix {t u : Text} (h : t <:+ u) : weight t ≤ weight u :=
  weight_le_of_sublist h.sublist

theorem fail_ne_ok {α : Type} {i : Input} {d : Defect} {a : α} : i.fail d ≠ .ok a := by
  intro h
  cases h

theorem failNext_ne_ok {α : Type} {i : Input} {d : Defect} {a : α} : i.failNext d ≠ .ok a := by
  intro h
  cases h

/-! ## Words and numbers -/

theorem rest_of_word (expected : Text) : ∀ {i i' : Input} {u : Unit},
    word expected i = .ok (u, i') → i.rest = expected ++ i'.rest := by
  induction expected with
  | nil =>
    intro i i' u h
    cases h
    rfl
  | cons w ws ih =>
    intro i i' u h
    unfold word at h
    split at h
    · cases ‹w :: ws = []›
    · exact absurd h fail_ne_ok
    · rename_i hcons hrest
      obtain ⟨rfl, rfl⟩ := List.cons.inj hcons
      split_ifs at h with hc
      · rw [hrest, hc, List.cons_append, ← ih h, rest_of_skip hrest]
      · exact absurd h failNext_ne_ok

theorem suffix_of_word {expected : Text} {i i' : Input} {u : Unit}
    (h : word expected i = .ok (u, i')) : i'.rest <:+ i.rest :=
  ⟨expected, (rest_of_word expected h).symm⟩

theorem suffix_skipDigits (i : Input) : (skipDigits i).2.rest <:+ i.rest :=
  List.drop_suffix _ _

theorem suffix_significandDigits (fuel : Nat) : ∀ (significand count : Nat) (i : Input),
    (significandDigits fuel significand count i).2.2.rest <:+ i.rest := by
  induction fuel with
  | zero => exact fun _ _ i => List.suffix_refl _
  | succ fuel ih =>
    intro significand count i
    simp only [significandDigits]
    split
    · exact List.suffix_refl _
    · split
      · exact List.suffix_refl _
      · exact (ih _ _ _).trans (suffix_skip i)

theorem suffix_exponentSign (i : Input) : (exponentSign i).2.rest <:+ i.rest := by
  unfold exponentSign
  split
  · exact suffix_skip i
  · exact suffix_skip i
  · exact List.suffix_refl _

theorem suffix_of_exponentPart {negative : Bool} {significand : Nat} {exponent : Int}
    {i i' : Input} {n : Numeral} (h : exponentPart negative significand exponent i = .ok (n, i')) :
    i'.rest <:+ i.rest := by
  have hdigits : (skipDigits (exponentSign i.skip).2).2.rest <:+ i.rest :=
    (suffix_skipDigits _).trans ((suffix_exponentSign _).trans (suffix_skip i))
  unfold exponentPart at h
  split at h
  case h_3 =>
    cases h
    exact List.suffix_refl _
  all_goals
    dsimp only at h
    split at h
    · exact absurd h fail_ne_ok
    · split at h
      · exact absurd h failNext_ne_ok
      · split at h
        · cases h
          exact hdigits
        · split at h
          · exact absurd h fail_ne_ok
          · cases h
            exact hdigits

theorem suffix_of_fractionPart {negative : Bool} {significand : Nat} {exponent : Int}
    {i i' : Input} {n : Numeral} (h : fractionPart negative significand exponent i = .ok (n, i')) :
    i'.rest <:+ i.rest := by
  simp only [fractionPart] at h
  split at h
  · split at h
    · exact absurd h fail_ne_ok
    · exact absurd h failNext_ne_ok
  · exact (suffix_of_exponentPart h).trans
      ((suffix_skipDigits _).trans (suffix_significandDigits _ _ _ i))

theorem suffix_of_numberTail {negative : Bool} {significand dropped : Nat} {i i' : Input}
    {n : Numeral} (h : numberTail negative significand dropped i = .ok (n, i')) :
    i'.rest <:+ i.rest := by
  unfold numberTail at h
  split at h
  · exact (suffix_of_fractionPart h).trans (suffix_skip i)
  · exact suffix_of_exponentPart h
  · exact suffix_of_exponentPart h
  · split_ifs at h <;> cases h <;> exact List.suffix_refl _

theorem suffix_of_unsignedNumber {negative : Bool} {i i' : Input} {n : Numeral}
    (h : unsignedNumber negative i = .ok (n, i')) : i'.rest <:+ i.rest := by
  unfold unsignedNumber at h
  split at h
  · exact absurd h fail_ne_ok
  · split at h
    · exact absurd h failNext_ne_ok
    · simp only at h
      split at h
      · exact absurd h failNext_ne_ok
      · exact (suffix_of_numberTail h).trans (suffix_skip i)
    · exact (suffix_of_numberTail h).trans
        ((suffix_skipDigits _).trans (suffix_significandDigits _ _ _ i))

/-- A number shows no text. -/
theorem number_spec {negative : Bool} {i i' : Input} {v : Json}
    (h : number negative i = .ok (v, i')) : i'.rest <:+ i.rest ∧ ∀ t, ¬ Shows t v := by
  unfold number at h
  obtain ⟨⟨numeral, i₁⟩, hn, h⟩ := bind_eq_ok h
  have hs := suffix_of_unsignedNumber hn
  simp only at h
  split at h
  · cases h
    exact ⟨hs, fun t ht => by cases ht⟩
  · split at h
    · cases h
      exact ⟨hs, fun t ht => by cases ht⟩
    · exact absurd h fail_ne_ok

/-! ## Strings -/

theorem suffix_of_hexQuad {i i' : Input} {n : Nat} (h : hexQuad i = .ok (n, i')) :
    i'.rest <:+ i.rest := by
  unfold hexQuad at h
  split at h
  · exact absurd h fail_ne_ok
  · split at h
    · cases h
      exact List.drop_suffix _ _
    · cases h

theorem suffix_of_lowSurrogate {high : Nat} {i i' : Input} {c : Char}
    (h : lowSurrogate high i = .ok (c, i')) : i'.rest <:+ i.rest := by
  unfold lowSurrogate at h
  split at h
  · exact absurd h fail_ne_ok
  · simp only at h
    split at h
    · exact absurd h fail_ne_ok
    · obtain ⟨⟨low, i₁⟩, hq, h⟩ := bind_eq_ok h
      simp only at h
      split at h
      · obtain ⟨-, rfl⟩ := Prod.mk.inj (Except.ok.inj h)
        exact (suffix_of_hexQuad hq).trans ((suffix_skip _).trans (suffix_skip i))
      · exact absurd h fail_ne_ok
    · exact absurd h failNext_ne_ok
  · exact absurd h failNext_ne_ok

theorem suffix_of_codeEscape {i i' : Input} {c : Char} (h : codeEscape i = .ok (c, i')) :
    i'.rest <:+ i.rest := by
  unfold codeEscape at h
  obtain ⟨⟨n, i₁⟩, hq, h⟩ := bind_eq_ok h
  have hs := suffix_of_hexQuad hq
  simp only at h
  split_ifs at h
  · exact absurd h fail_ne_ok
  · exact (suffix_of_lowSurrogate h).trans hs
  · obtain ⟨-, rfl⟩ := Prod.mk.inj (Except.ok.inj h)
    exact hs

theorem suffix_of_escape {i i' : Input} {c : Char} (h : escape i = .ok (c, i')) :
    i'.rest <:+ i.rest := by
  unfold escape at h
  split at h
  case h_1 => exact absurd h fail_ne_ok
  case h_10 => exact (suffix_of_codeEscape h).trans (suffix_skip i)
  case h_11 => exact absurd h failNext_ne_ok
  all_goals
    cases h
    exact suffix_skip i

/-- An escape stands for one character, and its backslash weighs as much. -/
theorem weight_of_stringFrom (fuel : Nat) : ∀ {before : Text} {i i' : Input} {t : Text},
    stringFrom fuel before i = .ok (t, i') →
      i'.rest <:+ i.rest ∧ weight t ≤ weight before + weight i.rest := by
  induction fuel with
  | zero => exact fun h => absurd h fail_ne_ok
  | succ fuel ih =>
    intro before i i' t h
    unfold stringFrom at h
    split at h
    · exact absurd h fail_ne_ok
    · cases h
      exact ⟨suffix_skip i, by rw [weight_reverse]; omega⟩
    · rename_i rest hrest
      obtain ⟨⟨c, i₁⟩, he, h⟩ := bind_eq_ok h
      obtain ⟨hs, hw⟩ := ih h
      have hskip : i.skip.rest = rest := rest_of_skip hrest
      have hesc := suffix_of_escape he
      rw [hskip] at hesc
      refine ⟨hs.trans (hesc.trans (hrest ▸ List.suffix_cons _ rest)), ?_⟩
      have h₁ := weight_le_of_suffix hesc
      have h₂ := weight_cons_le c before
      have h₃ : weight ('\\' :: rest) = weight rest + 1 := by
        rw [weight_cons]
        rfl
      rw [hrest, h₃]
      omega
    · rename_i c rest _ _ hrest
      split at h
      · exact absurd h failNext_ne_ok
      · obtain ⟨hs, hw⟩ := ih h
        have hskip : i.skip.rest = rest := rest_of_skip hrest
        refine ⟨hs.trans (suffix_skip i), ?_⟩
        rw [hskip] at hw
        rw [hrest]
        rw [weight_cons] at hw ⊢
        omega

theorem weight_of_string {i i' : Input} {t : Text} (h : string i = .ok (t, i')) :
    i'.rest <:+ i.rest ∧ weight t ≤ weight i.rest := by
  have := weight_of_stringFrom _ h
  simpa using this

/-! ## Arrays and objects -/

/-- A reader leaves an end of its input, and no text in the value that it reads weighs more than the
    input. -/
def Bounded (read : Input → Except Fault (Json × Input)) : Prop :=
  ∀ {i i' : Input} {v : Json}, read i = .ok (v, i') →
    i'.rest <:+ i.rest ∧ ∀ t, Shows t v → weight t ≤ weight i.rest

variable {item : Input → Except Fault (Json × Input)}

/-- What a list that is read comes from: its end, or its first item, or the next one behind a comma. -/
theorem items_eq_ok {fuel : Nat} {before : List Json} {i i' : Input} {v : Json}
    (h : items item (fuel + 1) before i = .ok (v, i')) :
    (i.skipSpace.rest = ']' :: i'.rest ∧ v = .arr before.reverse) ∨
      (before = [] ∧ ∃ u k, item i.skipSpace = .ok (u, k) ∧ items item fuel [u] k = .ok (v, i')) ∨
      (before ≠ [] ∧ i.skipSpace.rest = ',' :: i.skipSpace.skip.rest ∧
        ∃ u k, item i.skipSpace.skip.skipSpace = .ok (u, k) ∧
          items item fuel (u :: before) k = .ok (v, i')) := by
  unfold items at h
  dsimp only at h
  split at h
  · exact absurd h failNext_ne_ok
  rename_i c rest hrest
  have hskip := rest_of_skip hrest
  split_ifs at h with hclose hempty hcomma
  · obtain ⟨rfl, rfl⟩ := Prod.mk.inj (Except.ok.inj h)
    exact Or.inl ⟨by rw [hrest, hskip, hclose], rfl⟩
  · obtain ⟨⟨u, k⟩, hu, h⟩ := bind_eq_ok h
    exact Or.inr (Or.inl ⟨List.isEmpty_iff.1 hempty, u, k, hu, h⟩)
  · split at h
    · exact absurd h failNext_ne_ok
    · exact absurd h failNext_ne_ok
    · obtain ⟨⟨u, k⟩, hu, h⟩ := bind_eq_ok h
      exact Or.inr (Or.inr ⟨fun hb => hempty (by rw [hb]; rfl), by rw [hrest, hskip, hcomma],
        u, k, hu, h⟩)
  · exact absurd h failNext_ne_ok

/-- A list that is read has ended, or there is one more item behind some of the input. -/
theorem items_succ_eq_ok {fuel : Nat} {before : List Json} {i i' : Input} {v : Json}
    (h : items item (fuel + 1) before i = .ok (v, i')) :
    (v = .arr before.reverse ∧ i'.rest <:+ i.rest) ∨
      ∃ j u k, j.rest <:+ i.rest ∧ item j = .ok (u, k) ∧
        items item fuel (u :: before) k = .ok (v, i') := by
  have hspace := suffix_skipSpace i
  obtain ⟨hclose, rfl⟩ | ⟨rfl, u, k, hu, h⟩ | ⟨-, -, u, k, hu, h⟩ := items_eq_ok h
  · exact Or.inl ⟨rfl, (hclose ▸ List.suffix_cons _ _ : i'.rest <:+ i.skipSpace.rest).trans hspace⟩
  · exact Or.inr ⟨_, u, k, hspace, hu, h⟩
  · exact Or.inr ⟨_, u, k, (suffix_skipSpace _).trans ((suffix_skip _).trans hspace), hu, h⟩

theorem weight_of_items (hitem : Bounded item) (fuel : Nat) :
    ∀ {before : List Json} {i i' : Input} {v : Json}, items item fuel before i = .ok (v, i') →
      i'.rest <:+ i.rest ∧
        ∀ t, Shows t v → (∃ u ∈ before, Shows t u) ∨ weight t ≤ weight i.rest := by
  induction fuel with
  | zero => exact fun h => absurd h fail_ne_ok
  | succ fuel ih =>
    intro before i i' v h
    obtain ⟨rfl, hi'⟩ | ⟨j, u, k, hj, hu, h⟩ := items_succ_eq_ok h
    · refine ⟨hi', fun t ht => ?_⟩
      cases ht with
      | item hmem ht => exact Or.inl ⟨_, List.mem_reverse.1 hmem, ht⟩
    · obtain ⟨hk, hut⟩ := hitem hu
      obtain ⟨hi', hv⟩ := ih h
      refine ⟨hi'.trans (hk.trans hj), fun t ht => ?_⟩
      rcases hv t ht with ⟨w, hw, hwt⟩ | hle
      · rcases List.mem_cons.1 hw with rfl | hw
        · exact Or.inr ((hut t hwt).trans (weight_le_of_suffix hj))
        · exact Or.inl ⟨w, hw, hwt⟩
      · exact Or.inr (hle.trans (weight_le_of_suffix (hk.trans hj)))

theorem eq_or_mem_of_mem_put {key : Text} {v : Json} {p : Text × Json} {before : Members}
    (h : p ∈ before.put key v) : p = (key, v) ∨ p ∈ before := by
  induction before with
  | nil => exact Or.inl (List.mem_singleton.1 h)
  | cons q rest ih =>
    simp only [Members.put] at h
    split at h
    · rcases List.mem_cons.1 h with rfl | h
      · exact Or.inl rfl
      · exact Or.inr (List.mem_cons_of_mem q h)
    · rcases List.mem_cons.1 h with rfl | h
      · exact Or.inr List.mem_cons_self
      · exact (ih h).imp_right (List.mem_cons_of_mem q)

theorem weight_of_member (hitem : Bounded item) {i i' : Input} {key : Text} {v : Json}
    (h : member item i = .ok ((key, v), i')) :
    i'.rest <:+ i.rest ∧ ∀ t, Shows t v → weight t ≤ weight i.rest := by
  unfold member at h
  obtain ⟨⟨k, j⟩, hk, h⟩ := bind_eq_ok h
  have hj : j.rest <:+ i.rest := (weight_of_string hk).1.trans (suffix_skip i)
  dsimp only at h
  split at h
  · obtain ⟨⟨u, j'⟩, hu, h⟩ := bind_eq_ok h
    obtain ⟨hj', hut⟩ := hitem hu
    obtain ⟨hp, rfl⟩ := Prod.mk.inj (Except.ok.inj h)
    obtain ⟨-, rfl⟩ := Prod.mk.inj hp
    have hs := (suffix_skip _).trans ((suffix_skipSpace j).trans hj)
    exact ⟨hj'.trans hs, fun t ht => (hut t ht).trans (weight_le_of_suffix hs)⟩
  · exact absurd h failNext_ne_ok
  · exact absurd h failNext_ne_ok

/-- What an object that is read comes from: its end, or its first member, or the next one behind a
    comma. -/
theorem members_eq_ok {fuel : Nat} {first : Bool} {before : Members} {i i' : Input} {v : Json}
    (h : members item (fuel + 1) first before i = .ok (v, i')) :
    (i.skipSpace.rest = '}' :: i'.rest ∧ v = .obj before) ∨
      (first = true ∧ i.skipSpace.rest.head? = some '"' ∧
        ∃ key u k, member item i.skipSpace = .ok ((key, u), k) ∧
          members item fuel false (before.put key u) k = .ok (v, i')) ∨
      (first = false ∧ i.skipSpace.rest = ',' :: i.skipSpace.skip.rest ∧
        i.skipSpace.skip.skipSpace.rest.head? = some '"' ∧
        ∃ key u k, member item i.skipSpace.skip.skipSpace = .ok ((key, u), k) ∧
          members item fuel false (before.put key u) k = .ok (v, i')) := by
  unfold members at h
  dsimp only at h
  split at h
  · exact absurd h failNext_ne_ok
  · rename_i rest hrest
    obtain ⟨rfl, rfl⟩ := Prod.mk.inj (Except.ok.inj h)
    exact Or.inl ⟨by rw [hrest, rest_of_skip hrest], rfl⟩
  rename_i c rest hclose hrest
  split_ifs at h with hcomma hfirst hquote
  · split at h
    · exact absurd h failNext_ne_ok
    · rename_i hnext
      obtain ⟨⟨⟨key, u⟩, k⟩, hu, h⟩ := bind_eq_ok h
      exact Or.inr (Or.inr ⟨by simpa using hcomma.2,
        by rw [hrest, rest_of_skip hrest, hcomma.1], by rw [hnext]; rfl, key, u, k, hu, h⟩)
    · exact absurd h failNext_ne_ok
    · exact absurd h failNext_ne_ok
  · exact absurd h failNext_ne_ok
  · obtain ⟨⟨⟨key, u⟩, k⟩, hu, h⟩ := bind_eq_ok h
    exact Or.inr (Or.inl ⟨by simpa using hfirst, by rw [hrest, hquote]; rfl, key, u, k, hu, h⟩)
  · exact absurd h failNext_ne_ok

/-- An object that is read has ended, or there is one more member behind some of the input. -/
theorem members_succ_eq_ok {fuel : Nat} {first : Bool} {before : Members} {i i' : Input} {v : Json}
    (h : members item (fuel + 1) first before i = .ok (v, i')) :
    (v = .obj before ∧ i'.rest <:+ i.rest) ∨
      ∃ j key u k, j.rest <:+ i.rest ∧ member item j = .ok ((key, u), k) ∧
        members item fuel false (before.put key u) k = .ok (v, i') := by
  have hspace := suffix_skipSpace i
  obtain ⟨hclose, rfl⟩ | ⟨-, -, key, u, k, hu, h⟩ | ⟨-, -, -, key, u, k, hu, h⟩ := members_eq_ok h
  · exact Or.inl ⟨rfl, (hclose ▸ List.suffix_cons _ _ : i'.rest <:+ i.skipSpace.rest).trans hspace⟩
  · exact Or.inr ⟨_, key, u, k, hspace, hu, h⟩
  · exact Or.inr ⟨_, key, u, k, (suffix_skipSpace _).trans ((suffix_skip _).trans hspace), hu, h⟩

theorem weight_of_members (hitem : Bounded item) (fuel : Nat) :
    ∀ {first : Bool} {before : Members} {i i' : Input} {v : Json},
      members item fuel first before i = .ok (v, i') →
        i'.rest <:+ i.rest ∧
          ∀ t, Shows t v → (∃ p ∈ before, Shows t p.2) ∨ weight t ≤ weight i.rest := by
  induction fuel with
  | zero => exact fun h => absurd h fail_ne_ok
  | succ fuel ih =>
    intro first before i i' v h
    obtain ⟨rfl, hi'⟩ | ⟨j, key, u, k, hj, hu, h⟩ := members_succ_eq_ok h
    · refine ⟨hi', fun t ht => ?_⟩
      cases ht with
      | member hmem ht => exact Or.inl ⟨_, hmem, ht⟩
    · obtain ⟨hk, hut⟩ := weight_of_member hitem hu
      obtain ⟨hi', hv⟩ := ih h
      refine ⟨hi'.trans (hk.trans hj), fun t ht => ?_⟩
      rcases hv t ht with ⟨p, hp, hpt⟩ | hle
      · rcases eq_or_mem_of_mem_put hp with rfl | hp
        · exact Or.inr ((hut t hpt).trans (weight_le_of_suffix hj))
        · exact Or.inl ⟨p, hp, hpt⟩
      · exact Or.inr (hle.trans (weight_le_of_suffix (hk.trans hj)))

/-! ## Values -/

theorem spec_of_word {expected : Text} {c v : Json} {i i' : Input}
    (h : (do let (_, j) ← word expected i; pure (c, j)) = .ok (v, i')) :
    i'.rest <:+ i.rest ∧ v = c := by
  obtain ⟨⟨_, j⟩, hw, h⟩ := bind_eq_ok h
  obtain ⟨rfl, rfl⟩ := Prod.mk.inj (Except.ok.inj h)
  exact ⟨suffix_of_word hw, rfl⟩

theorem bounded_value (depth : Nat) : Bounded (value depth) := by
  induction depth using Nat.strong_induction_on with
  | _ depth ih =>
    intro i i' v h
    have hspace := suffix_skipSpace i
    have hskip := (suffix_skip i.skipSpace).trans hspace
    unfold value at h
    dsimp only at h
    split at h
    · exact absurd h failNext_ne_ok
    · obtain ⟨hs, rfl⟩ := spec_of_word h
      exact ⟨hs.trans hskip, fun t ht => by cases ht⟩
    · obtain ⟨hs, rfl⟩ := spec_of_word h
      exact ⟨hs.trans hskip, fun t ht => by cases ht⟩
    · obtain ⟨hs, rfl⟩ := spec_of_word h
      exact ⟨hs.trans hskip, fun t ht => by cases ht⟩
    · obtain ⟨hs, hn⟩ := number_spec h
      exact ⟨hs.trans hskip, fun t ht => absurd ht (hn t)⟩
    · obtain ⟨⟨u, j⟩, hu, h⟩ := bind_eq_ok h
      obtain ⟨rfl, rfl⟩ := Prod.mk.inj (Except.ok.inj h)
      obtain ⟨hs, hw⟩ := weight_of_string hu
      refine ⟨hs.trans hskip, fun t ht => ?_⟩
      cases ht
      exact hw.trans (weight_le_of_suffix hskip)
    · cases depth with
      | zero => exact absurd h failNext_ne_ok
      | succ depth =>
        obtain ⟨hs, hv⟩ := weight_of_items (ih depth depth.lt_succ_self) _ h
        refine ⟨hs.trans hskip, fun t ht => ?_⟩
        rcases hv t ht with ⟨u, hu, -⟩ | hle
        · cases hu
        · exact hle.trans (weight_le_of_suffix hskip)
    · cases depth with
      | zero => exact absurd h failNext_ne_ok
      | succ depth =>
        obtain ⟨hs, hv⟩ := weight_of_members (ih depth depth.lt_succ_self) _ h
        refine ⟨hs.trans hskip, fun t ht => ?_⟩
        rcases hv t ht with ⟨p, hp, -⟩ | hle
        · cases hp
        · exact hle.trans (weight_le_of_suffix hskip)
    · split at h
      · obtain ⟨hs, hn⟩ := number_spec h
        exact ⟨hs.trans hspace, fun t ht => absurd ht (hn t)⟩
      · exact absurd h failNext_ne_ok

theorem value_of_parse {t : Text} {v : Json} (h : parse t = .ok v) :
    ∃ i, value maxDepth ⟨t, .start⟩ = .ok (v, i) := by
  unfold parse at h
  obtain ⟨⟨w, i⟩, hw, h⟩ := bind_eq_ok h
  dsimp only at h
  split at h
  · obtain rfl := Except.ok.inj h
    exact ⟨i, hw⟩
  · exact absurd h failNext_ne_ok

/-- **No text in a value weighs more than the text that the value was read from.** -/
theorem weight_of_parse {t u : Text} {v : Json} (h : parse t = .ok v) (hu : Shows u v) :
    weight u ≤ weight t := by
  obtain ⟨i, hv⟩ := value_of_parse h
  exact (bounded_value maxDepth hv).2 u hu

end Recordsmith.Json
