import Recordsmith.Proofs.Unfolding
import Recordsmith.Proofs.Visits

/-!
# Accounting for leaves that are left out

A template inside a call has leaves of its own, so that the evaluation of a leaf can visit further
leaves.

* `visited` are the values of the visits that the evaluation of a text makes on its way, and
  `visitedByLeaves` those of a list of leaves, with their own;
* `Gen.Accounts`: a computation counts as left out exactly those of its visits whose values have no
  JSON form, and keeps the repetition of arrays;
* `Function.apply_quiet`: most functions visit nothing;
* `evaluateText_accounts`, `visitAll_accounts`: evaluations and visits account for what they visit.
-/

namespace Recordsmith

variable {σ α β : Type}

/-! ## Values of visits -/

/-- The values of visits that a computation makes from a state on. -/
abbrev Visited (σ : Type) := Local σ → Shared → List Value

namespace Visited

/-- No visits. -/
def none : Visited σ := fun _ _ => []

/-- The visits of a computation, and those that are made from where it ends. -/
def andThen (g : Gen σ α) (first : Visited σ) (later : α → Visited σ) : Visited σ := fun l s =>
  match (g l).run s with
  | (some (a, l'), s') => first l s ++ later a l' s'
  | (.none, _) => first l s

end Visited

/-- The values of the visits of leaves, each after the visits that its evaluation makes. -/
def visitedByLeaves (leaf : Json → Gen σ Value) (inside : Json → Visited σ) :
    List Json → Visited σ
  | [] => .none
  | node :: rest => .andThen (visit leaf node) (inside node) fun v l s =>
    v :: visitedByLeaves leaf inside rest l s

/-- The values of the visits that the evaluation of a leaf makes. -/
def visitedInLeaf (inside : Text → Visited σ) : Json → Visited σ
  | .str t => inside t
  | _ => .none

/-- The word for a blank or for a comma. -/
def Function.isBarePart (t : Text) : Bool := t = "SPACE".toList || t = "COMMA".toList

/-- The values of the visits that the parts of a concatenation make. -/
def visitedByParts (self : Text → Gen σ Value) (inside : Text → Visited σ) : List Text → Visited σ
  | [] => .none
  | t :: rest => .andThen (Function.part self t)
    (if Function.isBarePart t then .none else inside t) fun _ => visitedByParts self inside rest

/-- The values of the visits that a template inside a call makes. -/
def visitedByInline (self : Text → Gen σ Value) (inside : Text → Visited σ) (c : Call) :
    Visited σ :=
  match Function.inlineArguments c with
  | .error _ => .none
  | .ok ⟨members, count, nested⟩ => fun l =>
    let n := nested.getD l.nested
    visitedByLeaves (evaluateLeafWith self) (visitedInLeaf inside)
      (Walk.visits n (.obj members) count) { l with nested := n }

/-- The values of the visits that a call makes. -/
def visitedByCall (self : Text → Gen σ Value) (inside : Text → Visited σ) (f : Function)
    (c : Call) : Visited σ :=
  match f with
  | .inlineTemplate => visitedByInline self inside c
  | .concat => visitedByParts self inside c.arguments
  | .quoted | .upper | .lower => inside c.inner
  | _ => .none

/-- The values of the visits that the evaluation of a text makes, given those of the texts inside
    it. -/
def visitedStep (self : Text → Gen σ Value) (inside : Text → Visited σ) (t : Text) : Visited σ :=
  match dispatch? t with
  | none => .none
  | some (f, c) => fun l =>
    visitedByCall self inside f c { l with report := l.report.recordUse c.name }

/-! ## Accounts -/

/-- The computation keeps the repetition of arrays, and counts as left out exactly those of its visits
    whose values have no JSON form. -/
def Gen.Accounts (g : Gen σ α) (visits : Visited σ) : Prop :=
  ∀ l s a l' s', g.Yields l s a l' s' → l'.nested = l.nested ∧
    l'.report.unsupported = l.report.unsupported + (visits l s).countP Value.leftOut

namespace Gen.Accounts

theorem keepsNested {g : Gen σ α} {visits : Visited σ} (h : g.Accounts visits) : g.KeepsNested :=
  fun l s a l' s' hy => (h l s a l' s' hy).1

theorem pure (a : α) : (Pure.pure a : Gen σ α).Accounts .none := by
  intro l s b l' s' h
  obtain ⟨-, rfl, -⟩ := yields_pure_iff.1 h
  exact ⟨rfl, rfl⟩

/-- **A sequence accounts for the visits of its parts.** -/
theorem bind {g : Gen σ α} {f : α → Gen σ β} {first : Visited σ} {later : α → Visited σ}
    (hg : g.Accounts first) (hf : ∀ a, (f a).Accounts (later a)) :
    (g >>= f).Accounts (.andThen g first later) := by
  intro l s b l' s' h
  obtain ⟨a, l₁, s₁, ha, hb⟩ := yields_bind_iff.1 h
  obtain ⟨hn₁, hu₁⟩ := hg l s a l₁ s₁ ha
  obtain ⟨hn₂, hu₂⟩ := hf a l₁ s₁ b l' s' hb
  have hrun : (g l).run s = (some (a, l₁), s₁) := ha
  refine ⟨hn₂.trans hn₁, ?_⟩
  unfold Visited.andThen
  rw [hrun, List.countP_append, hu₂, hu₁, Nat.add_assoc]

theorem map {g : Gen σ α} {visits : Visited σ} (h : g.Accounts visits) (f : α → β) :
    (f <$> g).Accounts visits := by
  intro l s b l' s' hy
  obtain ⟨a, ha, -⟩ := yields_map_iff.1 hy
  exact h l s a l' s' ha

end Gen.Accounts

/-- The visit of a leaf adds its own value to the values of the visits on its way. -/
theorem visitAll_accounts {leaf : Json → Gen σ Value} {inside : Json → Visited σ}
    (hleaf : ∀ node, (leaf node).Accounts (inside node)) (nodes : List Json) :
    (visitAll leaf nodes).Accounts (visitedByLeaves leaf inside nodes) := by
  induction nodes with
  | nil => exact .pure []
  | cons node rest ih =>
    intro l s values l' s' h
    obtain ⟨v, l₁, s₁, hv, h⟩ := Gen.yields_bind_iff.1 h
    obtain ⟨us, l₂, s₂, hus, h⟩ := Gen.yields_bind_iff.1 h
    obtain ⟨-, rfl, rfl⟩ := Gen.yields_pure_iff.1 h
    obtain ⟨hn₂, hu₂⟩ := ih l₁ s₁ us _ _ hus
    have hrun : (visit leaf node l).run s = (some (v, l₁), s₁) := hv
    obtain ⟨l₀, hleaf₀, hl₁⟩ := yields_visit_iff.1 hv
    obtain ⟨hn₀, hu₀⟩ := hleaf node l s v l₀ s₁ hleaf₀
    have hown : l₁.nested = l₀.nested ∧
        l₁.report.unsupported = l₀.report.unsupported + if v.leftOut = true then 1 else 0 := by
      rw [hl₁]
      split <;> exact ⟨rfl, rfl⟩
    unfold visitedByLeaves Visited.andThen
    rw [hrun, List.countP_append, List.countP_cons]
    exact ⟨hn₂.trans (hown.1.trans hn₀), by omega⟩

theorem evaluateLeafWith_accounts {self : Text → Gen σ Value} {inside : Text → Visited σ}
    (hself : ∀ t, (self t).Accounts (inside t)) (node : Json) :
    (evaluateLeafWith self node).Accounts (visitedInLeaf inside node) := by
  cases node with
  | str t => exact hself t
  | _ => exact .pure _

/-! ## Calls that visit nothing -/

namespace Attempt

/-- The attempt keeps the report and the repetition of arrays. -/
def Quiet (x : Attempt σ α) : Prop :=
  ∀ l s r l' s', Gen.Yields x.run l s r l' s' → l'.nested = l.nested ∧ l'.report = l.report

namespace Quiet

/-- An attempt that leaves all as it was. -/
theorem of_still {x : Attempt σ α} (hx : ∀ l s, x.Still l s) : x.Quiet := by
  intro l s r l' s' h
  have hl : l' = l := by
    cases r with
    | ok a => exact ((hx l s).unchanged a l' s' h).1
    | error e => exact ((hx l s).atomic e l' s' h).1
  rw [hl]
  exact ⟨rfl, rfl⟩

theorem pure (a : α) : Quiet (Pure.pure a : Attempt σ α) := .of_still fun _ _ => .pure a

theorem throw (e : Failure) : Quiet (throw e : Attempt σ α) := .of_still fun _ _ => .throw e

theorem liftM (r : Except Failure α) : Quiet (liftM r : Attempt σ α) :=
  .of_still fun _ _ => .liftM r

theorem ofChecked {ε : Type} (failure? : ε → Option Failure) (r : Except ε α) :
    Quiet (Attempt.ofChecked failure? r : Attempt σ α) :=
  .of_still fun _ _ => .ofChecked failure? r

theorem bind {x : Attempt σ α} {f : α → Attempt σ β} (hx : x.Quiet) (hf : ∀ a, (f a).Quiet) :
    (x >>= f).Quiet := by
  intro l s r l' s' h
  rw [ExceptT.run_bind] at h
  obtain ⟨r₁, l₁, s₁, h₁, h₂⟩ := Gen.yields_bind_iff.1 h
  obtain ⟨hn, hr⟩ := hx l s r₁ l₁ s₁ h₁
  cases r₁ with
  | ok a =>
    obtain ⟨hn', hr'⟩ := hf a l₁ s₁ r l' s' h₂
    exact ⟨hn'.trans hn, hr'.trans hr⟩
  | error e =>
    rw [(Gen.yields_pure_iff.1 h₂).2.1]
    exact ⟨hn, hr⟩

theorem lift {g : Gen σ α} (hg : ∀ l s a l' s', g.Yields l s a l' s' →
    l'.nested = l.nested ∧ l'.report = l.report) : Quiet (ExceptT.lift g : Attempt σ α) := by
  intro l s r l' s' h
  rw [ExceptT.run_lift] at h
  obtain ⟨a, ha, -⟩ := Gen.yields_map_iff.1 h
  exact hg l s a l' s' ha

theorem draw (d : StateM σ α) : Quiet (Attempt.draw d) := by
  refine lift fun l s a l' s' h => ?_
  rw [(Gen.yields_draw_iff.1 h).2.1]
  exact ⟨rfl, rfl⟩

theorem drawChecked (d : StateM σ (Except Failure α)) : Quiet (Attempt.drawChecked d) := by
  intro l s r l' s' h
  rw [(Gen.yields_draw_iff.1 h).2.1]
  exact ⟨rfl, rfl⟩

theorem crash : Quiet (ExceptT.lift Gen.crash : Attempt σ α) := .of_still fun _ _ => .crash

theorem nextNumber (seed : Option Int) : Quiet (ExceptT.lift (Gen.nextNumber seed) : Attempt σ Int) := by
  refine lift fun l s a l' s' h => ?_
  rw [(Gen.yields_nextNumber_iff.1 h).2.1]
  exact ⟨rfl, rfl⟩

theorem nextDate (r : CursorRequest) :
    Quiet (ExceptT.lift (Gen.nextDate r) : Attempt σ (Except StepFault Zoned)) := by
  refine lift fun l s a l' s' h => ?_
  rw [(Gen.yields_nextDate_iff.1 h).2.1]
  exact ⟨rfl, rfl⟩

end Quiet
end Attempt

namespace Function

open Attempt

/-- The function evaluates texts inside its call. -/
def evaluatesInside : Function → Bool
  | inlineTemplate | quoted | concat | upper | lower => true
  | _ => false

theorem applyDateSequence_quiet (now : Moment) (c : Call) :
    (applyDateSequence now c : Attempt σ Value).Quiet := by
  refine .bind (.liftM _) fun start => ?_
  refine .bind (.liftM _) fun source => ?_
  refine .bind (.liftM _) fun p => ?_
  refine .bind (.liftM _) fun name => ?_
  refine .bind (.liftM _) fun zone => ?_
  refine .bind (.liftM _) fun unit => ?_
  refine .bind (.of_still fun _ _ => candidate_still ..) fun candidate => ?_
  refine .bind (.nextDate _) fun r => ?_
  exact .bind (.ofChecked _ _) fun z => .pure _

variable [WordSource σ]

theorem applyLetters_quiet (set : Text) (c : Call) :
    (applyLetters set c : Attempt σ Value).Quiet := by
  refine .bind (.liftM _) fun length => ?_
  dsimp only
  split
  · exact .crash
  · exact .bind (.draw _) fun t => .pure _

theorem applyDouble_quiet (c : Call) : (applyDouble c : Attempt σ Value).Quiet := by
  refine .bind (.liftM _) fun bounds => ?_
  refine .bind (.drawChecked _) fun x => ?_
  split
  · exact .pure _
  · exact .pure _

theorem applySample_quiet (now : Moment) (source : Text) (c : Call) :
    (applySample now source c : Attempt σ Value).Quiet := by
  refine .bind (.liftM _) fun p => ?_
  exact .bind (.drawChecked _) fun t => .pure _

/-- **A function that evaluates no texts visits nothing.** -/
theorem apply_quiet (now : Moment) (self : Text → Gen σ Value) {f : Function} (c : Call)
    (hf : f.evaluatesInside = false) : (f.apply now self c).Quiet := by
  cases f with
  | inlineTemplate | quoted | concat | upper | lower => exact absurd hf (by decide)
  | choice =>
    refine .bind (.draw _) fun v => ?_
    cases v with
    | some v => exact .pure _
    | none => exact .throw _
  | int => exact .bind (.liftM _) fun bounds => .bind (.drawChecked _) fun n => .pure _
  | long => exact .bind (.liftM _) fun bounds => .bind (.drawChecked _) fun n => .pure _
  | double => exact applyDouble_quiet c
  | dateSequence => exact applyDateSequence_quiet now c
  | dateOffset => exact .of_still fun _ _ => applyDateOffset_still now c
  | dateTime | date | isoDateTime => exact applySample_quiet now _ c
  | alpha | alphanumeric => exact applyLetters_quiet _ c
  | sequence => exact .bind (.liftM _) fun seed => .bind (.nextNumber _) fun n => .pure _
  | uuid | bool => exact .bind (.draw _) fun v => .pure _

end Function

/-! ## Calls that evaluate texts -/

section

variable {self : Text → Gen σ Value} {inside : Text → Visited σ}

/-- What comes after the visits of an attempt, and visits nothing. -/
theorem Attempt.accounts_bind {x : Attempt σ α} {f : α → Attempt σ β} {visits : Visited σ}
    (hx : Gen.Accounts x.run visits) (hf : ∀ a, (f a).Quiet) :
    Gen.Accounts (x >>= f).run visits := by
  intro l s r l' s' h
  rw [ExceptT.run_bind] at h
  obtain ⟨r₁, l₁, s₁, h₁, h₂⟩ := Gen.yields_bind_iff.1 h
  obtain ⟨hn, hu⟩ := hx l s r₁ l₁ s₁ h₁
  have hlater : l'.nested = l₁.nested ∧ l'.report = l₁.report := by
    cases r₁ with
    | ok a => exact hf a l₁ s₁ r l' s' h₂
    | error e =>
      rw [(Gen.yields_pure_iff.1 h₂).2.1]
      exact ⟨rfl, rfl⟩
  exact ⟨hlater.1.trans hn, hlater.2 ▸ hu⟩

theorem Attempt.accounts_lift {g : Gen σ α} {visits : Visited σ} (hg : g.Accounts visits) :
    Gen.Accounts (ExceptT.lift g : Attempt σ α).run visits := by
  rw [ExceptT.run_lift]
  exact hg.map _

theorem Attempt.accounts_get_bind {f : Local σ → Attempt σ β} {visits : Local σ → Visited σ}
    (hf : ∀ l, Gen.Accounts (f l).run (visits l)) :
    Gen.Accounts (ExceptT.lift get >>= f).run fun l s => visits l l s := by
  intro l s r l' s' h
  rw [ExceptT.run_bind] at h
  obtain ⟨r₁, l₁, s₁, h₁, h₂⟩ := Gen.yields_bind_iff.1 h
  rw [ExceptT.run_lift] at h₁
  obtain ⟨_, hget, rfl⟩ := Gen.yields_map_iff.1 h₁
  obtain ⟨rfl, rfl, rfl⟩ := Gen.yields_get_iff.1 hget
  exact hf _ _ _ _ _ _ h₂

namespace Function

theorem part_accounts (hself : ∀ t, (self t).Accounts (inside t)) (t : Text) :
    (part self t).Accounts (if isBarePart t then .none else inside t) := by
  unfold part isBarePart
  by_cases hspace : t = "SPACE".toList
  · rw [if_pos hspace, if_pos (by simp [hspace])]
    exact .pure _
  by_cases hcomma : t = "COMMA".toList
  · rw [if_neg hspace, if_pos hcomma, if_pos (by simp [hcomma])]
    exact .pure _
  · have hbare : ¬ (decide (t = "SPACE".toList) || decide (t = "COMMA".toList)) = true := by
      simp only [Bool.or_eq_true, decide_eq_true_eq, not_or]
      exact ⟨hspace, hcomma⟩
    rw [if_neg hspace, if_neg hcomma, if_neg hbare, bind_pure_comp]
    exact (hself t).map _

theorem parts_accounts (hself : ∀ t, (self t).Accounts (inside t)) (ts : List Text) :
    (parts self ts).Accounts (visitedByParts self inside ts) := by
  induction ts with
  | nil => exact .pure _
  | cons t rest ih =>
    unfold parts visitedByParts
    refine .bind (part_accounts hself t) fun head => ?_
    rw [bind_pure_comp]
    exact ih.map _

/-- The first record of a template inside a call. -/
theorem applyInline_accounts (hself : ∀ t, (self t).Accounts (inside t)) (c : Call) :
    Gen.Accounts (applyInline self c).run (visitedByInline self inside c) := by
  unfold applyInline visitedByInline
  rcases inlineArguments c with e | ⟨members, count, nested⟩
  · rw [Attempt.error_bind]
    exact .pure _
  · rw [Attempt.ok_bind]
    have hlines : ∀ outer : Local σ, Gen.Accounts
        (ExceptT.lift (Gen.withNested (nested.getD outer.nested)
          (Walk.events (evaluateLeafWith self) (.obj members) count)) : Attempt σ (List Text)).run
        fun l => visitedByLeaves (evaluateLeafWith self) (visitedInLeaf inside)
          (Walk.visits (nested.getD outer.nested) (.obj members) count)
          { l with nested := nested.getD outer.nested } := by
      intro outer
      refine Attempt.accounts_lift fun l s lines l' s' h => ?_
      obtain ⟨l₁, hevents, rfl⟩ := Gen.yields_withNested_iff.1 h
      obtain ⟨rows, l₂, s₂, hrows, hevents⟩ := Gen.yields_bind_iff.1 hevents
      obtain ⟨-, rfl, rfl⟩ := Gen.yields_pure_iff.1 hevents
      obtain ⟨values, hvalues, -⟩ := (Walk.objects_follow
        (fun t => (hself t).keepsNested) members count).yields rfl hrows
      exact ⟨rfl, (visitAll_accounts (evaluateLeafWith_accounts hself) _ _ _ _ _ _ hvalues).2⟩
    refine Attempt.accounts_get_bind fun outer => Attempt.accounts_bind (hlines outer) fun lines => ?_
    cases lines with
    | nil => exact .throw _
    | cons line rest => exact .pure _

/-- **A call accounts for the visits of the texts and templates inside it.** -/
theorem apply_accounts [WordSource σ] (hself : ∀ t, (self t).Accounts (inside t)) (now : Moment)
    (f : Function) (c : Call) :
    Gen.Accounts (f.apply now self c).run (visitedByCall self inside f c) := by
  have hquiet : f.evaluatesInside = false → visitedByCall self inside f c = .none →
      Gen.Accounts (f.apply now self c).run (visitedByCall self inside f c) := by
    intro hf hnone l s r l' s' h
    obtain ⟨hn, hr⟩ := apply_quiet now self c hf l s r l' s' h
    rw [hnone, hn, hr]
    exact ⟨rfl, rfl⟩
  cases f with
  | inlineTemplate => exact applyInline_accounts hself c
  | concat =>
    exact Attempt.accounts_bind (Attempt.accounts_lift (parts_accounts hself _)) fun t => .pure _
  | quoted | upper | lower =>
    exact Attempt.accounts_bind (Attempt.accounts_lift (hself _)) fun v => .pure _
  | _ => exact hquiet rfl rfl

end Function

end

/-! ## Visits inside texts -/

namespace Json

mutual

/-- The texts that are visited are texts of the template. -/
theorem shows_of_mem_visits {n : Nat} {t : Text} : ∀ tree : Json, .str t ∈ tree.visits n →
    Shows t tree
  | .null, h => by simp [visits] at h
  | .bool _, h => by simp [visits] at h
  | .int _, h => by simp [visits] at h
  | .float _, h => by simp [visits] at h
  | .str u, h => by
    simp only [visits, List.mem_singleton, str.injEq] at h
    rw [h]
    exact .str
  | .arr items, h => by
    simp only [visits] at h
    obtain ⟨pass, hpass, ht⟩ := List.mem_flatten.1 h
    rw [(List.mem_replicate.1 hpass).2] at ht
    obtain ⟨v, hv, hshows⟩ := shows_of_mem_visitsOfItems items ht
    exact .item hv hshows
  | .obj members, h => by
    simp only [visits] at h
    obtain ⟨p, hp, hshows⟩ := shows_of_mem_visitsOfMembers members h
    exact .member hp hshows

theorem shows_of_mem_visitsOfItems {n : Nat} {t : Text} : ∀ items : List Json,
    .str t ∈ visitsOfItems n items → ∃ v ∈ items, Shows t v
  | [], h => absurd h List.not_mem_nil
  | v :: rest, h => by
    simp only [visitsOfItems] at h
    rcases List.mem_append.1 h with h | h
    · exact ⟨v, List.mem_cons_self, shows_of_mem_visits v h⟩
    · obtain ⟨w, hw, hshows⟩ := shows_of_mem_visitsOfItems rest h
      exact ⟨w, List.mem_cons_of_mem v hw, hshows⟩

theorem shows_of_mem_visitsOfMembers {n : Nat} {t : Text} : ∀ members : Members,
    .str t ∈ visitsOfMembers n members → ∃ p ∈ members, Shows t p.2
  | [], h => absurd h List.not_mem_nil
  | (key, v) :: rest, h => by
    simp only [visitsOfMembers] at h
    rcases List.mem_append.1 h with h | h
    · exact ⟨(key, v), List.mem_cons_self, shows_of_mem_visits v h⟩
    · obtain ⟨p, hp, hshows⟩ := shows_of_mem_visitsOfMembers rest h
      exact ⟨p, List.mem_cons_of_mem _ hp, hshows⟩

end

end Json

section

variable {self self' : Text → Gen σ Value} {inside inside' : Text → Visited σ}

theorem visitedByLeaves_congr : ∀ {nodes : List Json},
    (∀ t, .str t ∈ nodes → self t = self' t ∧ inside t = inside' t) →
      visitedByLeaves (evaluateLeafWith self) (visitedInLeaf inside) nodes =
        visitedByLeaves (evaluateLeafWith self') (visitedInLeaf inside') nodes
  | [], _ => rfl
  | node :: rest, h => by
    have hrest := visitedByLeaves_congr fun t ht => h t (List.mem_cons_of_mem node ht)
    have hnode : evaluateLeafWith self node = evaluateLeafWith self' node ∧
        visitedInLeaf inside node = visitedInLeaf inside' node := by
      cases node with
      | str t => exact h t List.mem_cons_self
      | _ => exact ⟨rfl, rfl⟩
    simp only [visitedByLeaves, visit, hnode.1, hnode.2, hrest]

theorem visitedByParts_congr : ∀ {ts : List Text},
    (∀ t ∈ ts, self t = self' t ∧ inside t = inside' t) →
      visitedByParts self inside ts = visitedByParts self' inside' ts
  | [], _ => rfl
  | t :: rest, h => by
    obtain ⟨ht, hrest⟩ := List.forall_mem_cons.1 h
    simp only [visitedByParts, Function.part, ht.1, ht.2, visitedByParts_congr hrest]

/-- The visits on the way of a text depend on the lighter texts only. -/
theorem visitedStep_congr {t : Text}
    (h : ∀ u, weight u < weight t → self u = self' u ∧ inside u = inside' u) :
    visitedStep self inside t = visitedStep self' inside' t := by
  unfold visitedStep
  rcases hd : dispatch? t with _ | ⟨f, c⟩
  · rfl
  · obtain ⟨hi, ha⟩ := weight_of_dispatch? hd
    have hcall : visitedByCall self inside f c = visitedByCall self' inside' f c := by
      cases f with
      | inlineTemplate =>
        simp only [visitedByCall, visitedByInline]
        rcases hargs : Function.inlineArguments c with e | i
        · rfl
        · obtain ⟨body, hbody, hread⟩ := Function.inlineArguments_eq_ok hargs
          funext l
          dsimp only
          rw [visitedByLeaves_congr fun u hu => h u ?_]
          obtain ⟨members, hmembers, hu⟩ := List.mem_flatten.1 hu
          rw [(List.mem_replicate.1 hmembers).2] at hu
          obtain ⟨p, hp, hshows⟩ := Json.shows_of_mem_visitsOfMembers _ hu
          exact (Function.weight_of_readInline hread (.member hp hshows)).trans_lt
            (ha body (List.mem_of_getElem? hbody))
      | concat => exact visitedByParts_congr fun a hmem => h a (ha a hmem)
      | quoted | upper | lower => exact (h c.inner hi).2
      | _ => rfl
    simp only [hcall]

end

/-! ## Texts -/

variable [WordSource σ]

theorem invoke_accounts {self : Text → Gen σ Value} {inside : Text → Visited σ}
    (hself : ∀ t, (self t).Accounts (inside t)) (now : Moment) (f : Function) (c : Call)
    (t : Text) : (invoke now self f c t).Accounts fun l =>
      visitedByCall self inside f c { l with report := l.report.recordUse c.name } := by
  intro l s v l' s' h
  obtain ⟨_, _, _, huse, hcall⟩ := Gen.yields_bind_iff.1 h
  obtain ⟨rfl, rfl⟩ := Gen.yields_note_iff.1 huse
  obtain ⟨r, l₁, s₁, hr, hend⟩ := Gen.yields_bind_iff.1 hcall
  obtain ⟨hn, hu⟩ := Function.apply_accounts hself now f c _ _ _ _ _ hr
  cases r with
  | ok w =>
    obtain ⟨-, rfl, rfl⟩ := Gen.yields_pure_iff.1 hend
    exact ⟨hn, hu⟩
  | error e =>
    obtain ⟨_, _, _, hfallback, hliteral⟩ := Gen.yields_bind_iff.1 hend
    obtain ⟨rfl, rfl⟩ := Gen.yields_note_iff.1 hfallback
    obtain ⟨-, rfl, rfl⟩ := Gen.yields_pure_iff.1 hliteral
    exact ⟨hn, hu⟩

theorem evaluateStep_accounts {self : Text → Gen σ Value} {inside : Text → Visited σ}
    (hself : ∀ t, (self t).Accounts (inside t)) (now : Moment) (t : Text) :
    (evaluateStep now self t).Accounts (visitedStep self inside t) := by
  rw [evaluateStep_eq]
  unfold visitedStep
  rcases dispatch? t with _ | ⟨f, c⟩
  · exact .pure _
  · exact invoke_accounts hself now f c t

/-- The values of the visits that the evaluation of a text to a depth makes. -/
def visitedToDepth (now : Moment) : (depth : Nat) → Text → Visited σ
  | 0, _ => .none
  | depth + 1, t => visitedStep (evaluateToDepth now depth) (visitedToDepth now depth) t

theorem evaluateToDepth_accounts (now : Moment) (depth : Nat) : ∀ t : Text,
    (evaluateToDepth now depth t : Gen σ Value).Accounts (visitedToDepth now depth t) := by
  induction depth with
  | zero => exact fun t => .pure _
  | succ depth ih => exact fun t => evaluateStep_accounts ih now t

/-- The values of the visits that the evaluation of a text makes. -/
def visited (now : Moment) (t : Text) : Visited σ := visitedToDepth now (weight t + 1) t

theorem visitedToDepth_eq (now : Moment) : ∀ (depth depth' : Nat) {t : Text},
    weight t < depth → weight t < depth' →
      (visitedToDepth now depth t : Visited σ) = visitedToDepth now depth' t
  | 0, _, _, h, _ => absurd h (Nat.not_lt_zero _)
  | _, 0, _, _, h => absurd h (Nat.not_lt_zero _)
  | depth + 1, depth' + 1, t, h, h' => visitedStep_congr fun u hu =>
    ⟨evaluateToDepth_eq now depth depth' (by omega) (by omega),
      visitedToDepth_eq now depth depth' (by omega) (by omega)⟩

/-- **The visits of a text are those of one step**, and those of the texts inside it. -/
theorem visited_eq (now : Moment) (t : Text) :
    (visited now t : Visited σ) = visitedStep (evaluateText now) (visited now) t :=
  visitedStep_congr fun _ hu => ⟨evaluateToDepth_eq now _ _ hu (Nat.lt_succ_self _),
    visitedToDepth_eq now _ _ hu (Nat.lt_succ_self _)⟩

/-- **The evaluation of a text accounts for its visits.** -/
theorem evaluateText_accounts (now : Moment) (t : Text) :
    (evaluateText now t : Gen σ Value).Accounts (visited now t) :=
  evaluateToDepth_accounts now _ t

end Recordsmith
