import Recordsmith.Proofs.Unfolding
import Recordsmith.Proofs.Visits

/-!
# Literal templates

A template whose texts all stand for themselves is copied by a walk, with its arrays repeated.

* `Text.Inert`: the text stands for itself, and `evaluateText_eq_pure`: it is its own value;
* `Gen.Settles`: a computation ends at once and leaves all as it was, or breaks down at once if
  there is no room;
* `Json.repeated` is a template with every array repeated, at every level;
* `walk_inert`: a walk makes that tree, wherever its arrays can be laid out, and
  `walk_inert_endless`: a greater one it cannot make.
-/

namespace Recordsmith

variable {σ α β : Type}

/-! ## Texts that stand for themselves -/

/-- The text stands for itself: it is not quoted, no keyword, and no call of a function. -/
structure Text.Inert (t : Text) : Prop where
  stripQuotes_eq : stripQuotes t = t
  calls_nothing : ('(' ∉ t ∧ Function.ofKeyword? t = none) ∨
    ('(' ∈ t ∧ ∀ c, Call.parse? t = some c → Function.named? c.name = none)

theorem Text.Inert.dispatch?_eq_none {t : Text} (h : t.Inert) : dispatch? t = none := by
  unfold dispatch?
  rcases h.calls_nothing with ⟨hbracket, hword⟩ | ⟨hbracket, hname⟩
  · rw [if_neg (by simpa using hbracket), h.stripQuotes_eq, hword, Option.map_none]
  · rw [if_pos (by simpa using hbracket), Option.bind_eq_none_iff]
    intro c hc
    rw [hname c hc, Option.map_none]

/-- **A text that stands for itself is its own value.** -/
theorem evaluateText_eq_pure [WordSource σ] (now : Moment) {t : Text} (h : t.Inert) :
    (evaluateText now t : Gen σ Value) = pure (.text t) := by
  rw [evaluateText_eq, evaluateStep_eq, h.dispatch?_eq_none]
  simp only [literalValue, h.stripQuotes_eq]

/-! ## Computations that change nothing -/

/-- If there is room, the computation ends at once with this result, and leaves all as it was; if
    there is none, it breaks down at once. -/
structure Gen.Settles (l : Local σ) (room : Prop) (a : α) (g : Gen σ α) : Prop where
  ends : room → g l = .done (a, l)
  breaks : ¬ room → g l = .crash

namespace Gen.Settles

variable {l : Local σ}

theorem pure (a : α) : Settles l True a (Pure.pure a : Gen σ α) :=
  ⟨fun _ => rfl, fun h => absurd trivial h⟩

theorem bind {room₁ room₂ : Prop} {g : Gen σ α} {f : α → Gen σ β} {a : α} {b : β}
    (hg : Settles l room₁ a g) (hf : Settles l room₂ b (f a)) :
    Settles l (room₁ ∧ room₂) b (g >>= f) := by
  have hstep : (g >>= f) l = (g l).bind fun p => f p.1 p.2 := rfl
  constructor
  · rintro ⟨h₁, h₂⟩
    rw [hstep, hg.ends h₁]
    exact hf.ends h₂
  · intro h
    by_cases h₁ : room₁
    · rw [hstep, hg.ends h₁]
      exact hf.breaks fun h₂ => h ⟨h₁, h₂⟩
    · rw [hstep, hg.breaks h₁]
      rfl

theorem iff {room room' : Prop} {g : Gen σ α} {a : α} (h : Settles l room a g)
    (hroom : room' ↔ room) : Settles l room' a g :=
  ⟨fun hr => h.ends (hroom.1 hr), fun hr => h.breaks fun hr' => hr (hroom.2 hr')⟩

theorem map {room : Prop} {g : Gen σ α} {a : α} (h : Settles l room a g) (f : α → β) :
    Settles l room (f a) (f <$> g) := by
  rw [map_eq_pure_bind]
  exact (h.bind (.pure (f a))).iff (by simp)

theorem get : Settles l True l (MonadState.get : Gen σ (Local σ)) :=
  ⟨fun _ => rfl, fun h => absurd trivial h⟩

theorem reserve (count : Nat) : Settles l (fits count = true) () (Gen.reserve count) := by
  unfold Gen.reserve
  constructor
  · intro h
    rw [if_pos h]
    rfl
  · intro h
    rw [if_neg h]
    rfl

/-- A computation that is never run needs no room. -/
theorem replicate {room : Prop} {g : Gen σ α} {a : α} (h : Settles l room a g) (n : Nat) :
    Settles l (n = 0 ∨ room) (List.replicate n a) (Gen.replicate n g) := by
  have hfrom : ∀ (n : Nat) (before : List α), Settles l (n = 0 ∨ room)
      (before.reverse ++ List.replicate n a) (Gen.repeatFrom g n before) := by
    intro n
    induction n with
    | zero =>
      intro before
      rw [List.replicate_zero, List.append_nil]
      exact (Settles.pure before.reverse).iff (by simp)
    | succ n ih =>
      intro before
      have hrest := ih (a :: before)
      rw [List.reverse_cons, List.append_assoc, List.singleton_append,
        ← List.replicate_succ] at hrest
      exact (h.bind hrest).iff (by simp; tauto)
  exact hfrom n []

end Gen.Settles

namespace Json

/-! ## Literal templates -/

/-- The template is literal: its texts stand for themselves, and its doubles are finite. -/
inductive Inert : Json → Prop
  | null : Inert .null
  | bool (b : Bool) : Inert (.bool b)
  | int (n : Int) : Inert (.int n)
  | float {x : Float} : x.isFinite = true → Inert (.float x)
  | str {t : Text} : t.Inert → Inert (.str t)
  | arr {items : List Json} : (∀ v ∈ items, Inert v) → Inert (.arr items)
  | obj {members : Members} : (∀ p ∈ members, Inert p.2) → Inert (.obj members)

/-- There is no array in the template. -/
inductive ArrayFree : Json → Prop
  | null : ArrayFree .null
  | bool (b : Bool) : ArrayFree (.bool b)
  | int (n : Int) : ArrayFree (.int n)
  | float (x : Float) : ArrayFree (.float x)
  | str (t : Text) : ArrayFree (.str t)
  | obj {members : Members} : (∀ p ∈ members, ArrayFree p.2) → ArrayFree (.obj members)

mutual

/-- The template with every array repeated `n` times, at every level. -/
def repeated (n : Nat) : Json → Json
  | arr items => .arr (List.replicate n (repeatedItems n items)).flatten
  | obj members => .obj (repeatedMembers n members)
  | null => .null
  | bool b => .bool b
  | int m => .int m
  | float x => .float x
  | str t => .str t

/-- The items of an array, with every array in them repeated. -/
def repeatedItems (n : Nat) : List Json → List Json
  | [] => []
  | v :: rest => repeated n v :: repeatedItems n rest

/-- The members of an object, with every array in them repeated. -/
def repeatedMembers (n : Nat) : Members → Members
  | [] => []
  | (key, v) :: rest => (key, repeated n v) :: repeatedMembers n rest

end

theorem repeatedMembers_eq_map (n : Nat) (members : Members) :
    repeatedMembers n members = members.map fun p => (p.1, repeated n p.2) := by
  induction members with
  | nil => rfl
  | cons p rest ih => simp [repeatedMembers, ih]

mutual

/-- Arrays that are repeated once are as they were. -/
theorem repeated_one : ∀ v : Json, repeated 1 v = v
  | .arr items => by simp [repeated, repeatedItems_one items]
  | .obj members => by simp [repeated, repeatedMembers_one members]
  | .null | .bool _ | .int _ | .float _ | .str _ => by simp only [repeated]

theorem repeatedItems_one : ∀ items : List Json, repeatedItems 1 items = items
  | [] => rfl
  | v :: rest => by rw [repeatedItems, repeated_one v, repeatedItems_one rest]

theorem repeatedMembers_one : ∀ members : Members, repeatedMembers 1 members = members
  | [] => rfl
  | (key, v) :: rest => by rw [repeatedMembers, repeated_one v, repeatedMembers_one rest]

end

theorem ArrayFree.repeated_eq {v : Json} (h : v.ArrayFree) (n : Nat) : repeated n v = v := by
  induction h with
  | @obj members _ ih =>
    rw [repeated, repeatedMembers_eq_map]
    have hsame : (members.map fun p => (p.1, repeated n p.2)) = members.map id :=
      List.map_congr_left fun p hp => Prod.ext rfl (ih p hp)
    rw [hsame, List.map_id]
  | _ => simp only [repeated]

/-! ## Room -/

theorem membersFit_iff {n : Nat} {members : Members} :
    MembersFit n members ↔ ∀ p ∈ members, Fits n p.2 := by
  induction members with
  | nil => simp [MembersFit]
  | cons p rest ih => simp [MembersFit, ih]

theorem ArrayFree.fits {v : Json} (h : v.ArrayFree) (n : Nat) : v.Fits n := by
  induction h with
  | obj _ ih =>
    rw [Fits]
    exact membersFit_iff.2 ih
  | _ => simp only [Fits]

/-! ## Walks -/

section

variable {l : Local σ}

/-- A leaf whose value has its own JSON form is copied. -/
theorem walkLeaf_settles {leaf : Json → Gen σ Value} {node : Json} {v : Value}
    (h : leaf node = pure v) (hv : v.toJson? = some node) :
    Gen.Settles l True (some node) (walkLeaf leaf node) := by
  have hpure : walkLeaf leaf node = pure (some node) := by
    unfold walkLeaf
    rw [h, pure_bind, hv]
  rw [hpure]
  exact .pure _

variable [WordSource σ]

mutual

/-- **A walk of a literal template copies it**, with its arrays repeated. -/
theorem walk_settles (now : Moment) : ∀ {tree : Json}, tree.Inert →
    Gen.Settles l (tree.Fits l.nested) (some (tree.repeated l.nested))
      (walk (evaluateLeaf now) tree)
  | .null, _ => by
    simp only [walk, repeated, Fits]
    exact .pure _
  | .bool b, _ => by
    simp only [walk, repeated, Fits]
    exact walkLeaf_settles rfl rfl
  | .int m, _ => by
    simp only [walk, repeated, Fits]
    refine walkLeaf_settles rfl ?_
    split_ifs <;> rfl
  | .float x, h => by
    cases h with
    | float hx =>
      simp only [walk, repeated, Fits]
      exact walkLeaf_settles rfl (if_pos hx)
  | .str t, h => by
    cases h with
    | str ht =>
      simp only [walk, repeated, Fits]
      exact walkLeaf_settles (evaluateText_eq_pure now ht) rfl
  | .obj members, h => by
    cases h with
    | obj hmembers =>
      simp only [walk, repeated, Fits, bind_pure_comp]
      exact (walkMembers_settles now hmembers).map fun out => some (obj out)
  | .arr items, h => by
    cases h with
    | arr hitems =>
      simp only [walk, repeated, Fits]
      refine (Gen.Settles.get.bind ((Gen.Settles.reserve _).bind ?_)).iff
        (Iff.of_eq (true_and _).symm)
      cases items with
      | nil =>
        simp only [repeatedItems, ItemsFit, List.flatten_replicate_nil]
        exact .pure _
      | cons v rest =>
        rw [if_neg (by simp), bind_pure_comp]
        exact (((walkItems_settles now hitems).replicate l.nested).iff itemsFit_iff).map
          fun passes => some (arr passes.flatten)

theorem walkItems_settles (now : Moment) : ∀ {items : List Json}, (∀ v ∈ items, v.Inert) →
    Gen.Settles l (ItemsFit l.nested items) (repeatedItems l.nested items)
      (walkItems (evaluateLeaf now) items)
  | [], _ => by
    simp only [walkItems, repeatedItems, ItemsFit]
    exact .pure _
  | node :: rest, h => by
    obtain ⟨hnode, hrest⟩ := List.forall_mem_cons.1 h
    simp only [walkItems, repeatedItems, ItemsFit, bind_pure_comp]
    exact (walk_settles now hnode).bind ((walkItems_settles now hrest).map _)

theorem walkMembers_settles (now : Moment) : ∀ {members : Members},
    (∀ p ∈ members, p.2.Inert) →
    Gen.Settles l (MembersFit l.nested members) (repeatedMembers l.nested members)
      (walkMembers (evaluateLeaf now) members)
  | [], _ => by
    simp only [walkMembers, repeatedMembers, MembersFit]
    exact .pure _
  | (key, node) :: rest, h => by
    obtain ⟨hnode, hrest⟩ := List.forall_mem_cons.1 h
    simp only [walkMembers, repeatedMembers, MembersFit, bind_pure_comp]
    exact (walk_settles now hnode).bind ((walkMembers_settles now hrest).map _)

end

/-- **A literal template passes through.** Its arrays are repeated, at every level, and all else is
    copied; no word is drawn, no number and no date is taken, and the report stays as it was. A
    walk breaks down at once if an array cannot be laid out. So a template without arrays is
    reproduced, and any other one is if arrays are not repeated. -/
theorem walk_inert (now : Moment) {template : Json} (h : template.Inert) (l : Local σ) :
    (template.Fits l.nested →
      walk (evaluateLeaf now) template l = .done (some (template.repeated l.nested), l)) ∧
    (¬ template.Fits l.nested → walk (evaluateLeaf now) template l = .crash) ∧
    (template.ArrayFree → walk (evaluateLeaf now) template l = .done (some template, l)) ∧
    (l.nested = 1 → template.Fits 1 →
      walk (evaluateLeaf now) template l = .done (some template, l)) := by
  have hwalk := walk_settles (l := l) now h
  refine ⟨hwalk.ends, hwalk.breaks, fun hfree => ?_, fun hone hfits => ?_⟩
  · rw [hwalk.ends (hfree.fits l.nested), hfree.repeated_eq]
  · rw [hwalk.ends (hone ▸ hfits), hone, repeated_one]

end

/-- A literal template: prose with brackets, a call of no function, a negative zero, and an array in
    an array. -/
def postcard : Json :=
  .obj [("to".toList, .str "it's me (again)".toList), ("text".toList, .str "f(x)".toList),
    ("stamps".toList, .arr [.float (-0.0), .arr [.int 18446744073709551615, .null]])]

theorem inert_postcard : postcard.Inert := by
  have hnone : Call.parse? "it's me (again)".toList = none := by decide
  have hcall : Call.parse? "f(x)".toList = some ⟨"f".toList, "x".toList, ["x".toList]⟩ := by
    decide
  have hprose : Text.Inert "it's me (again)".toList :=
    ⟨by decide, .inr ⟨by decide, fun c hc => nomatch hnone.symm.trans hc⟩⟩
  have hunknown : Text.Inert "f(x)".toList :=
    ⟨by decide, .inr ⟨by decide, fun c hc => by cases hcall.symm.trans hc; decide⟩⟩
  have hinner : (arr [.int 18446744073709551615, .null]).Inert :=
    .arr (List.forall_mem_cons.2 ⟨.int _, List.forall_mem_singleton.2 .null⟩)
  have hstamps : (arr [.float (-0.0), .arr [.int 18446744073709551615, .null]]).Inert :=
    .arr (List.forall_mem_cons.2 ⟨.float (by decide), List.forall_mem_singleton.2 hinner⟩)
  exact .obj (List.forall_mem_cons.2 ⟨.str hprose, List.forall_mem_cons.2 ⟨.str hunknown,
    List.forall_mem_singleton.2 hstamps⟩⟩)

theorem walk_inert_postcard :
    postcard.Inert ∧ postcard.Fits 2 ∧
    walk (evaluateLeaf (.midnight .epoch)) postcard (⟨⟨[], 0⟩, 2, {}⟩ : Local Replay) =
      .done (some (.obj [("to".toList, .str "it's me (again)".toList),
        ("text".toList, .str "f(x)".toList),
        ("stamps".toList, .arr [
          .float (-0.0), .arr [.int 18446744073709551615, .null, .int 18446744073709551615, .null],
          .float (-0.0), .arr [.int 18446744073709551615, .null, .int 18446744073709551615, .null]
        ])]), ⟨⟨[], 0⟩, 2, {}⟩) := by
  have hfits : postcard.Fits 2 := by
    simp only [postcard, Fits, MembersFit, ItemsFit]
    decide
  have hrepeated : postcard.repeated 2 = .obj [("to".toList, .str "it's me (again)".toList),
      ("text".toList, .str "f(x)".toList),
      ("stamps".toList, .arr [
        .float (-0.0), .arr [.int 18446744073709551615, .null, .int 18446744073709551615, .null],
        .float (-0.0), .arr [.int 18446744073709551615, .null, .int 18446744073709551615, .null]
      ])] := rfl
  refine ⟨inert_postcard, hfits, ?_⟩
  rw [← hrepeated]
  exact (walk_inert (.midnight .epoch) inert_postcard (⟨⟨[], 0⟩, 2, {}⟩ : Local Replay)).1 hfits

/-- An array that is repeated as often as can be asked for is never made. -/
theorem walk_inert_endless :
    (arr [.int 1]).Inert ∧
    walk (evaluateLeaf (.midnight .epoch)) (arr [.int 1])
      (⟨⟨[], 0⟩, 18446744073709551615, {}⟩ : Local Replay) = .crash ∧
    walk (evaluateLeaf (.midnight .epoch)) (arr [.int 1])
      (⟨⟨[], 0⟩, 18446744073709551615, {}⟩ : Local Replay) ≠
        .done (some ((arr [.int 1]).repeated 18446744073709551615),
          ⟨⟨[], 0⟩, 18446744073709551615, {}⟩) := by
  have hcrash : walk (evaluateLeaf (.midnight .epoch)) (arr [.int 1])
      (⟨⟨[], 0⟩, 18446744073709551615, {}⟩ : Local Replay) = .crash := rfl
  refine ⟨.arr (List.forall_mem_singleton.2 (.int 1)), hcrash, fun h => ?_⟩
  rw [hcrash] at h
  cases h

end Json
end Recordsmith
