import Recordsmith.Proofs.Attempts
import Recordsmith.Proofs.Reading

/-!
# Texts inside texts

A text is evaluated to a depth that its weight bounds. Nothing depends on this depth:

* `Json.walk_congr`: a walk uses the texts of its template, and no others;
* `Function.Nests` are the texts inside a call, and `Function.apply_congr`: a call uses no others;
* `dispatch?` finds the call that a text stands for, and `evaluateStep_eq` carries it out;
* `Nests` are the texts inside a text, each of which weighs less (`Nests.weight_lt`);
* `evaluateText_eq`: the evaluation of a text is one step, which evaluates the texts inside it in
  the same way.
-/

namespace Recordsmith

variable {σ : Type} {self self' : Text → Gen σ Value}

/-! ## Templates -/

namespace Json

mutual

/-- **A walk uses only the texts of its template.** -/
theorem walk_congr : ∀ tree : Json, (∀ t, Shows t tree → self t = self' t) →
    walk (evaluateLeafWith self) tree = walk (evaluateLeafWith self') tree
  | .null, _ => by simp only [walk]
  | .bool _, _ => by simp only [walk, walkLeaf, evaluateLeafWith]
  | .int _, _ => by simp only [walk, walkLeaf, evaluateLeafWith]
  | .float _, _ => by simp only [walk, walkLeaf, evaluateLeafWith]
  | .str t, h => by simp only [walk, walkLeaf, evaluateLeafWith, h t .str]
  | .arr items, h => by
    simp only [walk, walkItems_congr items fun v hv t ht => h t (.item hv ht)]
  | .obj members, h => by
    simp only [walk, walkMembers_congr members fun p hp t ht => h t (.member hp ht)]

theorem walkMembers_congr : ∀ members : Members,
    (∀ p ∈ members, ∀ t, Shows t p.2 → self t = self' t) →
    walkMembers (evaluateLeafWith self) members = walkMembers (evaluateLeafWith self') members
  | [], _ => by simp only [walkMembers]
  | (key, v) :: rest, h => by
    obtain ⟨hv, hrest⟩ := List.forall_mem_cons.1 h
    simp only [walkMembers, walk_congr v hv, walkMembers_congr rest hrest]

theorem walkItems_congr : ∀ items : List Json,
    (∀ v ∈ items, ∀ t, Shows t v → self t = self' t) →
    walkItems (evaluateLeafWith self) items = walkItems (evaluateLeafWith self') items
  | [], _ => by simp only [walkItems]
  | v :: rest, h => by
    obtain ⟨hv, hrest⟩ := List.forall_mem_cons.1 h
    simp only [walkItems, walk_congr v hv, walkItems_congr rest hrest]

end

end Json

/-! ## Calls -/

namespace Function

theorem weight_of_readInline {body u : Text} {template : Json} (h : readInline body = .ok template)
    (hu : Json.Shows u template) : weight u ≤ weight body := by
  have hparse : ∀ {t : Text}, Template.parse t = .ok template → weight u ≤ weight t := fun ht =>
    (Json.weight_of_parse (mapError_eq_ok ht) hu).trans (Template.weight_substitute_le _)
  unfold readInline at h
  split at h
  · obtain rfl := Except.ok.inj h
    exact hparse ‹_›
  · exact (hparse h).trans (weight_le_of_sublist List.filter_sublist)

/-- The texts of a template inside a call are parts of the first argument of the call. -/
theorem inlineArguments_eq_ok {c : Call} {i : InlineTemplate} (h : inlineArguments c = .ok i) :
    ∃ body, c.argument? 0 = some body ∧ readInline body = .ok (.obj i.members) := by
  unfold inlineArguments at h
  split at h
  · exact absurd h (by simp)
  · rename_i body hbody
    refine ⟨body, hbody, ?_⟩
    obtain ⟨template, ht, h⟩ := bind_eq_ok h
    split at h
    · obtain ⟨_, -, h⟩ := bind_eq_ok h
      obtain ⟨_, -, h⟩ := bind_eq_ok h
      obtain rfl := Except.ok.inj h
      exact ht
    · exact absurd h (by simp)

/-- The texts that carrying out a call can evaluate. -/
inductive Nests : Function → Call → Text → Prop
  | quoted {c : Call} : Nests quoted c c.inner
  | upper {c : Call} : Nests upper c c.inner
  | lower {c : Call} : Nests lower c c.inner
  | part {c : Call} {u : Text} : u ∈ c.arguments → Nests concat c u
  | leaf {c : Call} {i : InlineTemplate} {u : Text} : inlineArguments c = .ok i →
      Json.Shows u (.obj i.members) → Nests inlineTemplate c u

/-- A text inside a call weighs no more than what stands between the brackets, or than one of the
    arguments. -/
theorem Nests.weight_le {f : Function} {c : Call} {u : Text} (h : Nests f c u) :
    weight u ≤ weight c.inner ∨ ∃ a ∈ c.arguments, weight u ≤ weight a := by
  cases h with
  | quoted | upper | lower => exact Or.inl le_rfl
  | part hu => exact Or.inr ⟨u, hu, le_rfl⟩
  | leaf hi hu =>
    obtain ⟨body, hbody, hread⟩ := inlineArguments_eq_ok hi
    exact Or.inr ⟨body, List.mem_of_getElem? hbody, weight_of_readInline hread hu⟩

theorem applyInline_congr {c : Call} (h : ∀ u, Nests inlineTemplate c u → self u = self' u) :
    applyInline self c = applyInline self' c := by
  unfold applyInline
  rcases hi : inlineArguments c with e | i
  · rw [Attempt.error_bind, Attempt.error_bind]
  · rw [Attempt.ok_bind, Attempt.ok_bind]
    have hmembers : Json.walkMembers (evaluateLeafWith self) i.members =
        Json.walkMembers (evaluateLeafWith self') i.members :=
      Json.walkMembers_congr i.members fun p hp t ht => h t (.leaf hi (.member hp ht))
    simp only [Walk.events, Walk.objects, Json.walkObject, hmembers]

theorem parts_congr : ∀ {ts : List Text}, (∀ t ∈ ts, self t = self' t) →
    parts self ts = parts self' ts
  | [], _ => rfl
  | t :: rest, h => by
    obtain ⟨ht, hrest⟩ := List.forall_mem_cons.1 h
    simp only [parts, part, ht, parts_congr hrest]

variable [WordSource σ]

/-- **A call uses only the texts inside it.** -/
theorem apply_congr (now : Moment) (f : Function) {c : Call}
    (h : ∀ u, Nests f c u → self u = self' u) : f.apply now self c = f.apply now self' c := by
  cases f with
  | inlineTemplate => exact applyInline_congr h
  | quoted => simp only [apply, h c.inner .quoted]
  | upper => simp only [apply, h c.inner .upper]
  | lower => simp only [apply, h c.inner .lower]
  | concat => simp only [apply, parts_congr fun a ha => h a (.part ha)]
  | _ => rfl

end Function

/-! ## Texts -/

variable [WordSource σ]

/-- The call that a text stands for, with its function: a call as written, or a bare keyword. -/
def dispatch? (t : Text) : Option (Function × Call) :=
  if t.contains '(' then
    (Call.parse? t).bind fun c => (Function.named? c.name).map fun f => (f, c)
  else
    (Function.ofKeyword? (Text.stripQuotes t)).map fun f => (f, .bare (Text.stripQuotes t))

theorem weight_of_dispatch? {t : Text} {f : Function} {c : Call} (h : dispatch? t = some (f, c)) :
    weight c.inner < weight t ∧ ∀ a ∈ c.arguments, weight a < weight t := by
  unfold dispatch? at h
  split at h
  · obtain ⟨c', hc, h⟩ := Option.bind_eq_some_iff.1 h
    obtain ⟨f', -, h⟩ := Option.map_eq_some_iff.1 h
    obtain ⟨-, rfl⟩ := Prod.mk.inj h
    exact ⟨Call.weight_inner_lt hc, fun a ha => Call.weight_argument_lt hc ha⟩
  · obtain ⟨f', hf, h⟩ := Option.map_eq_some_iff.1 h
    obtain ⟨-, rfl⟩ := Prod.mk.inj h
    have hpos := (Function.weight_keyword_pos hf).trans_le
      (weight_le_of_sublist (Text.stripQuotes_sublist t))
    exact ⟨hpos, fun a ha => absurd ha List.not_mem_nil⟩

/-- The texts that the evaluation of a text can evaluate inside it. -/
inductive Nests (t : Text) : Text → Prop
  | call {f : Function} {c : Call} {u : Text} : dispatch? t = some (f, c) → f.Nests c u → Nests t u

/-- **A text inside a text weighs less.** -/
theorem Nests.weight_lt {t u : Text} (h : Nests t u) : weight u < weight t := by
  obtain ⟨hd, hu⟩ := h
  obtain ⟨hi, ha⟩ := weight_of_dispatch? hd
  rcases hu.weight_le with hle | ⟨a, hmem, hle⟩
  · exact hle.trans_lt hi
  · exact hle.trans_lt (ha a hmem)

/-- A text that stands for no call is literal. -/
theorem evaluateStep_eq (now : Moment) (self : Text → Gen σ Value) (t : Text) :
    evaluateStep now self t = match dispatch? t with
      | none => pure (literalValue t)
      | some (f, c) => invoke now self f c t := by
  unfold evaluateStep dispatch?
  split
  · cases Call.parse? t with
    | none => simp only [Option.bind_none]
    | some c =>
      simp only [Option.bind_some]
      cases Function.named? c.name <;> simp only [Option.map_none, Option.map_some]
  · dsimp only
    cases Function.ofKeyword? (Text.stripQuotes t) <;> simp only [Option.map_none, Option.map_some]

/-- **A step uses only the texts inside the text.** -/
theorem evaluateStep_congr (now : Moment) {t : Text} (h : ∀ u, Nests t u → self u = self' u) :
    evaluateStep now self t = evaluateStep now self' t := by
  rw [evaluateStep_eq, evaluateStep_eq]
  rcases hd : dispatch? t with _ | ⟨f, c⟩
  · simp only
  · simp only [invoke, Function.apply_congr now f fun u hu => h u (.call hd hu)]

/-- A depth above the weight of a text is as good as any other. -/
theorem evaluateToDepth_eq (now : Moment) : ∀ (depth depth' : Nat) {t : Text},
    weight t < depth → weight t < depth' →
      (evaluateToDepth now depth t : Gen σ Value) = evaluateToDepth now depth' t
  | 0, _, _, h, _ => absurd h (Nat.not_lt_zero _)
  | _, 0, _, _, h => absurd h (Nat.not_lt_zero _)
  | depth + 1, depth' + 1, t, h, h' => evaluateStep_congr now fun u hu =>
    have hlt := hu.weight_lt
    evaluateToDepth_eq now depth depth' (by omega) (by omega)

/-- **The evaluation of a text is one step, which evaluates the texts inside it in the same way.**
    -/
theorem evaluateText_eq (now : Moment) (t : Text) :
    (evaluateText now t : Gen σ Value) = evaluateStep now (evaluateText now) t :=
  evaluateStep_congr now fun _ hu =>
    evaluateToDepth_eq now _ _ hu.weight_lt (Nat.lt_succ_self _)

theorem evaluateText_of_dispatch? {now : Moment} {t : Text} {f : Function} {c : Call}
    (h : dispatch? t = some (f, c)) :
    (evaluateText now t : Gen σ Value) = invoke now (evaluateText now) f c t := by
  rw [evaluateText_eq, evaluateStep_eq, h]

/-- A text whose call is carried out is evaluated to what the call gives. The function is used once
    more, and there is no fallback. -/
theorem evaluateText_of_succeeds {now : Moment} {t : Text} {f : Function} {c : Call}
    (h : dispatch? t = some (f, c)) {l l' : Local σ} {s s' : Shared} {v : Value}
    (hv : (f.apply now (evaluateText now) c).Succeeds
      { l with report := l.report.recordUse c.name } s v l' s') :
    (evaluateText now t).Yields l s v l' s' := by
  rw [evaluateText_of_dispatch? h]
  refine Gen.yields_bind_iff.2 ⟨(), _, _, Gen.yields_note_iff.2 ⟨rfl, rfl⟩, ?_⟩
  refine Gen.yields_bind_iff.2 ⟨.ok v, _, _, hv, ?_⟩
  exact Gen.yields_pure_iff.2 ⟨rfl, rfl, rfl⟩

end Recordsmith
