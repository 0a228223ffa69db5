import Mathlib
import Recordsmith.Proofs.Unfolding

/-!
# How deep texts are nested

A text is evaluated by evaluating the texts inside it, and nothing in this recursion gets shorter:
a token is replaced by a longer time, an escape can stand for a bracket, and a template that cannot
be read is read again without its backslashes. The weight of the texts gets smaller nonetheless.

* `length_le_of_chain`: texts inside each other are no more than the weight of the outermost one;
* `iterate_evaluateStep`: what would happen to a text that is nested deeper is never asked for;
* `evaluateText_unique`: the recursion has one solution;
* `evaluation_ends`: evaluations and walks end, for every text, tree, worker and shared state.
-/

namespace Recordsmith

/-- A chain of texts, each inside the one before it. -/
theorem length_le_of_chain : ∀ {us : List Text} {t : Text}, List.IsChain Nests (t :: us) →
    us.length ≤ weight t
  | [], _, _ => Nat.zero_le _
  | u :: us, t, h => by
    obtain ⟨hu, hus⟩ := List.isChain_cons_cons.1 h
    have hlen := length_le_of_chain hus
    have hlt := hu.weight_lt
    simp only [List.length_cons]
    omega

variable {σ : Type}

section

variable [WordSource σ]

/-- **A depth above the weight of a text suffices**: `beyond` stands for what happens to the texts
    that are nested deeper. -/
theorem iterate_evaluateStep (now : Moment) (beyond : Text → Gen σ Value) :
    ∀ (depth : Nat) {t : Text},
    weight t < depth → (evaluateStep now)^[depth] beyond t = evaluateText now t
  | 0, _, h => absurd h (Nat.not_lt_zero _)
  | depth + 1, t, h => by
    rw [Function.iterate_succ_apply', evaluateText_eq]
    refine evaluateStep_congr now fun u hu => ?_
    have hlt := hu.weight_lt
    exact iterate_evaluateStep now beyond depth (by omega)

/-- **The recursion of texts has one solution.** -/
theorem evaluateText_unique (now : Moment) {self : Text → Gen σ Value}
    (h : ∀ t, self t = evaluateStep now self t) : self = evaluateText now := by
  have hfix : evaluateStep now self = self := funext fun t => (h t).symm
  funext t
  rw [← iterate_evaluateStep now self (weight t + 1) (Nat.lt_succ_self _),
    Function.iterate_fixed hfix]

end

/-! ## Templates -/

section

variable {self self' : Text → Gen σ Value}

theorem Walk.objects_congr {members : Json.Members}
    (h : ∀ t, Json.Shows t (.obj members) → self t = self' t) (count : Nat) :
    Walk.objects (evaluateLeafWith self) members count =
      Walk.objects (evaluateLeafWith self') members count := by
  have hmembers : Json.walkMembers (evaluateLeafWith self) members =
      Json.walkMembers (evaluateLeafWith self') members :=
    Json.walkMembers_congr members fun p hp t ht => h t (.member hp ht)
  simp only [Walk.objects, Json.walkObject, hmembers]

/-- **Records use only the texts of their template.** -/
theorem Walk.records_congr {template : Json}
    (h : ∀ t, Json.Shows t template → self t = self' t) (count : Nat) :
    Walk.records (evaluateLeafWith self) template count =
      Walk.records (evaluateLeafWith self') template count := by
  cases template with
  | obj members => exact Walk.objects_congr h count
  | arr items => simp only [Walk.records, Json.walk_congr (.arr items) h]
  | _ => rfl

end

/-! ## Ends -/

/-- The computation ends, from wherever it starts: with a result, or by breaking down. -/
def Gen.Ends {α : Type} (g : Gen σ α) : Prop :=
  ∀ l s, (∃ a l' s', g.Yields l s a l' s') ∨ ∃ s', g.BreaksDown l s s'

theorem Gen.ends {α : Type} (g : Gen σ α) : g.Ends := g.yields_or_breaksDown

variable [WordSource σ]

/-- **Evaluations and walks end.** A step evaluates no texts but those inside its text, and these
    are nested no deeper than the weight of the text. So there is exactly one way to evaluate texts
    by the texts inside them, and whatever a text that is nested deeper were taken to mean,
    `beyond`, would change no evaluation and no walk. What evaluates and walks is then a
    computation, and each of these ends. -/
theorem evaluation_ends (now : Moment) :
    (∀ t (self self' : Text → Gen σ Value), (∀ u, Nests t u → self u = self' u) →
      evaluateStep now self t = evaluateStep now self' t) ∧
    (∀ t us, List.IsChain Nests (t :: us) → us.length ≤ weight t) ∧
    (∃! self : Text → Gen σ Value, ∀ t, self t = evaluateStep now self t) ∧
    (∀ (beyond : Text → Gen σ Value) (t : Text) (depth : Nat), weight t < depth →
      (evaluateStep now)^[depth] beyond t = evaluateText now t) ∧
    (∀ (beyond : Text → Gen σ Value) (tree : Json) (depth : Nat),
      (∀ t, Json.Shows t tree → weight t < depth) →
        let leaf := evaluateLeafWith ((evaluateStep now)^[depth] beyond)
        Json.walk leaf tree = Json.walk (evaluateLeaf now) tree ∧
        ∀ count, Walk.records leaf tree count = Walk.records (evaluateLeaf now) tree count) ∧
    ∀ (α : Type) (g : Gen σ α), g.Ends := by
  refine ⟨fun t self self' => evaluateStep_congr now, fun t us => length_le_of_chain, ?_, ?_, ?_,
    fun α g => g.ends⟩
  · exact ⟨evaluateText now, evaluateText_eq now, fun self => evaluateText_unique now⟩
  · exact fun beyond t depth h => iterate_evaluateStep now beyond depth h
  · intro beyond tree depth h
    have hsame : ∀ t, Json.Shows t tree →
        (evaluateStep now)^[depth] beyond t = evaluateText now t :=
      fun t ht => iterate_evaluateStep now beyond depth (h t ht)
    exact ⟨Json.walk_congr tree hsame, fun count => Walk.records_congr hsame count⟩

/-- A template that is short as written, but not as read. -/
def stamped : Text := "json(\x7b\"a\":\"upper\\u0028DTM_RUNTIME)\"\x7d)".toList

theorem evaluation_ends_stamped :
    List.IsChain Nests
        [stamped, "upper(2021-09-30T17:53:33.838+0000)".toList,
          "2021-09-30T17:53:33.838+0000".toList] ∧
      2 ≤ weight stamped ∧
      ∀ beyond : Text → Gen Replay Value,
        (evaluateStep (.midnight .epoch))^[33] beyond stamped =
          evaluateText (.midnight .epoch) stamped := by
  obtain ⟨-, hchain, -, hdepth, -⟩ := evaluation_ends (σ := Replay) (.midnight .epoch)
  have hcall : dispatch? stamped = some (.inlineTemplate,
      ⟨"json".toList, "\x7b\"a\":\"upper\\u0028DTM_RUNTIME)\"\x7d".toList,
        ["\x7b\"a\":\"upper\\u0028DTM_RUNTIME)\"\x7d".toList]⟩) := by decide
  have hupper : dispatch? "upper(2021-09-30T17:53:33.838+0000)".toList = some (.upper,
      ⟨"upper".toList, "2021-09-30T17:53:33.838+0000".toList,
        ["2021-09-30T17:53:33.838+0000".toList]⟩) := by decide
  have hinline : Function.inlineArguments
      ⟨"json".toList, "\x7b\"a\":\"upper\\u0028DTM_RUNTIME)\"\x7d".toList,
        ["\x7b\"a\":\"upper\\u0028DTM_RUNTIME)\"\x7d".toList]⟩ =
      .ok ⟨[("a".toList, .str "upper(2021-09-30T17:53:33.838+0000)".toList)], 1, none⟩ := by
    cbv
  have hnested : List.IsChain Nests
      [stamped, "upper(2021-09-30T17:53:33.838+0000)".toList,
        "2021-09-30T17:53:33.838+0000".toList] :=
    .cons_cons (.call hcall (.leaf hinline (.member List.mem_cons_self .str)))
      (.cons_cons (.call hupper .upper) (.singleton _))
  exact ⟨hnested, hchain _ _ hnested, fun beyond => hdepth beyond stamped 33 (by decide)⟩

end Recordsmith
