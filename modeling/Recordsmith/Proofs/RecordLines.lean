import Recordsmith.Proofs.JsonRoundTrip

/-!
# Records as lines

A record is written in one line, and is read back from it.

* `Json.nesting` is how deep arrays and objects are nested, and `Json.nesting_le_of_value`: a reader
  that goes so deep reads nothing deeper;
* `Json.oneLine_render`: a line has no control characters;
* `Template.parse_render_iff`: a record is read from its line as it was, unless it is nested deeper
  than any reader goes.
-/

namespace Recordsmith

/-! ## Lines -/

/-- The text has no control characters, and so no line break among them. -/
def Text.OneLine (t : Text) : Prop := ∀ c ∈ t, 0x20 ≤ c.toNat

namespace Text

@[simp] theorem oneLine_nil : OneLine [] := fun _ hc => absurd hc List.not_mem_nil

@[simp] theorem oneLine_cons {c : Char} {t : Text} :
    OneLine (c :: t) ↔ 0x20 ≤ c.toNat ∧ OneLine t := List.forall_mem_cons

@[simp] theorem oneLine_append {t u : Text} : OneLine (t ++ u) ↔ OneLine t ∧ OneLine u :=
  List.forall_mem_append

theorem oneLine_ofInt (n : Int) : OneLine (ofInt n) := by
  intro c hc
  rcases numeral_of_mem_ofInt hc with hdigit | rfl
  · exact le_trans (by decide) (toNat_of_isDigit hdigit).1
  · decide

end Text

namespace Json

open Text (OneLine)

/-- A control character is written by its code, which has none. -/
theorem oneLine_escapeChar (c : Char) : OneLine (escapeChar c) := by
  have hdigit : ∀ n < 16, 0x20 ≤ (Nat.digitChar n).toNat := by decide
  unfold escapeChar
  split
  all_goals first
    | (simp only [Text.oneLine_cons, Text.oneLine_nil]; decide)
    | skip
  split
  · rename_i hcontrol
    have h₁ := hdigit (c.toNat / 16) (by omega)
    have h₂ := hdigit (c.toNat % 16) (by omega)
    simp [h₁, h₂]
  · rename_i hplain
    simpa using hplain

theorem oneLine_quote (t : Text) : OneLine (quote t) := by
  have hescaped : OneLine (t.flatMap escapeChar) := by
    intro c hc
    obtain ⟨d, -, hc⟩ := List.mem_flatMap.1 hc
    exact oneLine_escapeChar d c hc
  simp [quote, hescaped]

theorem oneLine_join {ts : List Text} (h : ∀ t ∈ ts, OneLine t) : OneLine (Text.join [','] ts) := by
  cases ts with
  | nil => exact Text.oneLine_nil
  | cons t rest =>
    obtain ⟨ht, hrest⟩ := List.forall_mem_cons.1 h
    rw [join_eq_commaed, Text.oneLine_append]
    refine ⟨ht, fun c hc => ?_⟩
    obtain ⟨u, hu, hc⟩ := List.mem_flatMap.1 hc
    exact Text.oneLine_cons.2 ⟨by decide, hrest u hu⟩ c hc

theorem oneLine_renderMember {p : Text × Json} (h : OneLine (render p.2)) :
    OneLine (renderMember p) := by
  simp [renderMember, oneLine_quote, h]

/-- **A value is written in one line.** -/
theorem oneLine_render {depth : Nat} {v : Json} (h : Plain depth v) : OneLine (render v) := by
  induction h with
  | null => simp [render]
  | bool b => cases b <;> simp [render]
  | int _ _ =>
    rw [render]
    exact Text.oneLine_ofInt _
  | str t =>
    rw [render]
    exact oneLine_quote t
  | arr _ ih =>
    rw [render, renderItems_eq_join]
    simp [oneLine_join (List.forall_mem_map.2 ih)]
  | obj _ _ ih =>
    rw [render, renderMembers_eq_join]
    simp [oneLine_join (List.forall_mem_map.2 fun p hp => oneLine_renderMember (ih p hp))]

/-! ## Nesting -/

mutual

/-- How deep arrays and objects are nested. -/
def nesting : Json → Nat
  | arr items => nestingOfItems items + 1
  | obj members => nestingOfMembers members + 1
  | _ => 0

/-- How deep the items of an array are nested. -/
def nestingOfItems : List Json → Nat
  | [] => 0
  | v :: rest => max (nesting v) (nestingOfItems rest)

/-- How deep the members of an object are nested. -/
def nestingOfMembers : Members → Nat
  | [] => 0
  | (_, v) :: rest => max (nesting v) (nestingOfMembers rest)

end

theorem nestingOfItems_le_iff {items : List Json} {n : Nat} :
    nestingOfItems items ≤ n ↔ ∀ v ∈ items, nesting v ≤ n := by
  induction items with
  | nil => simp [nestingOfItems]
  | cons v rest ih => simp [nestingOfItems, ih]

theorem nestingOfMembers_le_iff {members : Members} {n : Nat} :
    nestingOfMembers members ≤ n ↔ ∀ p ∈ members, nesting p.2 ≤ n := by
  induction members with
  | nil => simp [nestingOfMembers]
  | cons p rest ih => simp [nestingOfMembers, ih]

/-- A value can be read to the depth that it is nested. -/
theorem Plain.of_nesting_le {depth : Nat} {v : Json} (h : Plain depth v) :
    ∀ {limit : Nat}, nesting v ≤ limit → Plain limit v := by
  induction h with
  | null => exact fun _ => .null
  | bool b => exact fun _ => .bool b
  | int hmin hmax => exact fun _ => .int hmin hmax
  | str t => exact fun _ => .str t
  | arr _ ih =>
    intro limit hle
    cases limit with
    | zero => exact absurd hle (Nat.not_succ_le_zero _)
    | succ limit =>
      have hitems := nestingOfItems_le_iff.1 (Nat.le_of_succ_le_succ hle)
      exact .arr fun v hv => ih v hv (hitems v hv)
  | obj hnodup _ ih =>
    intro limit hle
    cases limit with
    | zero => exact absurd hle (Nat.not_succ_le_zero _)
    | succ limit =>
      have hmembers := nestingOfMembers_le_iff.1 (Nat.le_of_succ_le_succ hle)
      exact .obj hnodup fun p hp => ih p hp (hmembers p hp)

section

variable {item : Input → Except Fault (Json × Input)} {n : Nat}
  (hitem : ∀ {i i' : Input} {v : Json}, item i = .ok (v, i') → nesting v ≤ n)

include hitem

theorem nesting_le_of_items (fuel : Nat) : ∀ {before : List Json} {i i' : Input} {v : Json},
    (∀ u ∈ before, nesting u ≤ n) → items item fuel before i = .ok (v, i') →
      nesting v ≤ n + 1 := by
  induction fuel with
  | zero => exact fun _ h => absurd h fail_ne_ok
  | succ fuel ih =>
    intro before i i' v hbefore h
    obtain ⟨rfl, -⟩ | ⟨_, u, _, -, hu, h⟩ := items_succ_eq_ok h
    · rw [nesting, Nat.add_le_add_iff_right, nestingOfItems_le_iff]
      exact fun u hu => hbefore u (List.mem_reverse.1 hu)
    · exact ih (List.forall_mem_cons.2 ⟨hitem hu, hbefore⟩) h

theorem nesting_le_of_member {i i' : Input} {key : Text} {v : Json}
    (h : member item i = .ok ((key, v), i')) : nesting v ≤ n := by
  unfold member at h
  obtain ⟨⟨_, j⟩, -, h⟩ := bind_eq_ok h
  dsimp only at h
  split at h
  · obtain ⟨⟨u, j'⟩, hu, h⟩ := bind_eq_ok h
    obtain ⟨hp, -⟩ := Prod.mk.inj (Except.ok.inj h)
    rw [← (Prod.mk.inj hp).2]
    exact hitem hu
  · exact absurd h failNext_ne_ok
  · exact absurd h failNext_ne_ok

theorem nesting_le_of_members (fuel : Nat) : ∀ {first : Bool} {before : Members} {i i' : Input}
    {v : Json}, (∀ p ∈ before, nesting p.2 ≤ n) →
      members item fuel first before i = .ok (v, i') → nesting v ≤ n + 1 := by
  induction fuel with
  | zero => exact fun _ h => absurd h fail_ne_ok
  | succ fuel ih =>
    intro first before i i' v hbefore h
    obtain ⟨rfl, -⟩ | ⟨_, key, u, _, -, hu, h⟩ := members_succ_eq_ok h
    · rw [nesting, Nat.add_le_add_iff_right, nestingOfMembers_le_iff]
      exact hbefore
    · refine ih (fun p hp => ?_) h
      rcases eq_or_mem_of_mem_put hp with rfl | hp
      · exact nesting_le_of_member hitem hu
      · exact hbefore p hp

end

theorem nesting_of_number {negative : Bool} {i i' : Input} {v : Json}
    (h : number negative i = .ok (v, i')) : nesting v = 0 := by
  unfold number at h
  obtain ⟨⟨numeral, i₁⟩, -, h⟩ := bind_eq_ok h
  dsimp only at h
  split at h
  · cases h
    rfl
  · split at h
    · cases h
      rfl
    · exact absurd h fail_ne_ok

/-- **A reader reads nothing deeper than it goes.** -/
theorem nesting_le_of_value (depth : Nat) : ∀ {i i' : Input} {v : Json},
    value depth i = .ok (v, i') → nesting v ≤ depth := by
  induction depth using Nat.strong_induction_on with
  | _ depth ih =>
    intro i i' v h
    unfold value at h
    dsimp only at h
    split at h
    · exact absurd h failNext_ne_ok
    · rw [(spec_of_word h).2]
      exact Nat.zero_le _
    · rw [(spec_of_word h).2]
      exact Nat.zero_le _
    · rw [(spec_of_word h).2]
      exact Nat.zero_le _
    · rw [nesting_of_number h]
      exact Nat.zero_le _
    · obtain ⟨⟨u, j⟩, -, h⟩ := bind_eq_ok h
      obtain ⟨rfl, -⟩ := Prod.mk.inj (Except.ok.inj h)
      exact Nat.zero_le _
    · cases depth with
      | zero => exact absurd h failNext_ne_ok
      | succ depth =>
        exact nesting_le_of_items (ih depth depth.lt_succ_self) _
          (fun _ hu => absurd hu List.not_mem_nil) h
    · cases depth with
      | zero => exact absurd h failNext_ne_ok
      | succ depth =>
        exact nesting_le_of_members (ih depth depth.lt_succ_self) _
          (fun _ hp => absurd hp List.not_mem_nil) h
    · split at h
      · rw [nesting_of_number h]
        exact Nat.zero_le _
      · exact absurd h failNext_ne_ok

end Json

/-! ## Records -/

/-- **A record is a line, from which it is read as it was.** Let its keys be distinct in each
    object, and its numbers integers of 64-bit words; its texts are arbitrary. Then its line has no
    control characters. If the token does not stand in it either, then the record is read from it,
    unless it is nested deeper than the reader goes. -/
theorem Template.parse_render_iff {depth : Nat} {v : Json} (h : v.Plain depth) :
    v.render.OneLine ∧
      (¬ token <:+: v.render → (Template.parse v.render = .ok v ↔ v.nesting ≤ Json.maxDepth)) := by
  refine ⟨Json.oneLine_render h, fun htoken => ⟨fun hparse => ?_, fun hle => ?_⟩⟩
  · rw [Template.parse, substitute, Text.replaceAll_of_not_infix htoken] at hparse
    obtain ⟨i, hvalue⟩ := Json.value_of_parse (mapError_eq_ok hparse)
    exact Json.nesting_le_of_value _ hvalue
  · exact Template.parse_render (h.of_nesting_le hle) htoken

/-- A record with control characters, quotes and backslashes in its texts, and with the least and
    the greatest numbers. -/
def awkward : Json :=
  .obj [("\"b\"\n".toList, .str "\\u0041\x00\x1f é".toList),
    ("a".toList, .arr [.int (-9223372036854775808), .int 18446744073709551615, .null, .obj []])]

/-- Its line. -/
def awkwardLine : Text :=
  ("\x7b\"\\\"b\\\"\\n\":\"\\\\u0041\\u0000\\u001f é\"," ++
    "\"a\":[-9223372036854775808,18446744073709551615,null,\x7b\x7d]\x7d").toList

theorem parse_render_iff_awkward :
    awkward.render = awkwardLine ∧ awkward.Plain 3 ∧ ¬ Template.token <:+: awkward.render ∧
    awkward.render.OneLine ∧ Template.parse awkward.render = .ok awkward := by
  have hplain : awkward.Plain 3 :=
    .obj (by decide) (List.forall_mem_cons.2 ⟨.str _, List.forall_mem_singleton.2 (.arr
      (List.forall_mem_cons.2 ⟨.int (by decide) (by decide), List.forall_mem_cons.2
        ⟨.int (by decide) (by decide), List.forall_mem_cons.2 ⟨.null, List.forall_mem_singleton.2
          (.obj List.nodup_nil fun _ hp => absurd hp List.not_mem_nil)⟩⟩⟩))⟩)
  have htoken : ¬ Template.token <:+: awkward.render := by decide +kernel
  obtain ⟨hline, hread⟩ := Template.parse_render_iff hplain
  exact ⟨by decide, hplain, htoken, hline, (hread htoken).2 (by decide)⟩

end Recordsmith
