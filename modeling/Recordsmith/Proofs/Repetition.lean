import Recordsmith.Proofs.InlineTemplates
import Recordsmith.Proofs.Stateless

/-!
# The repetition of arrays

A template inside a call can have a repetition of its own. It is set for a walk of that template,
and set back after it.

* `Gen.KeepsRepetition`: a computation leaves the repetition as it was, and
  `evaluateText_keepsRepetition`: every text does, with all that is nested in it;
* `Json.walkTimes`, `Walk.recordsTimes`, `Walk.eventsTimes` walk with a repetition that is fixed
  beforehand;
* `Json.walk_sameAt`: a walk whose leaves keep the repetition is the walk with a fixed one;
* `repetition_fixed`: hence no array of a template is repeated as a call says.
-/

namespace Recordsmith

variable {σ α β : Type}

namespace Gen

/-- Whatever the answers to its uses of what is shared, the computation leaves the repetition of
    arrays as it was. -/
def KeepsRepetition (g : Gen σ α) : Prop := g.Moves fun l l' => l'.nested = l.nested

namespace KeepsRepetition

theorem followed : Followed (σ := σ) fun l l' => l'.nested = l.nested where
  refl _ := rfl
  trans h₁ h₂ := h₂.trans h₁
  source _ _ := rfl
  leftOut _ := rfl
  fallback _ := rfl

theorem note (f : Report → Report) : (Gen.note f : Gen σ Unit).KeepsRepetition :=
  Moves.of_done fun l => ⟨(), { l with report := f l.report }, rfl, rfl⟩

theorem nextNumber (seed : Option Int) : (Gen.nextNumber seed : Gen σ Int).KeepsRepetition :=
  Moves.nextNumber followed.refl seed

theorem nextDate (request : CursorRequest) :
    (Gen.nextDate request : Gen σ (Except StepFault Zoned)).KeepsRepetition :=
  Moves.nextDate followed.refl request

/-- **A run with another repetition sets it back**, whatever the run itself does to it. -/
theorem withNested (n : Nat) (g : Gen σ α) : (Gen.withNested n g).KeepsRepetition := by
  intro l a l' hr
  change ((modify fun l => { l with nested := n }) >>= fun _ => g >>= fun a =>
    (modify fun l' => { l' with nested := l.nested }) >>= fun _ => pure a).Reaches l a l' at hr
  obtain ⟨_, _, _, hr⟩ := hr.of_bind
  obtain ⟨b, l₁, _, hr⟩ := hr.of_bind
  obtain ⟨-, rfl⟩ := hr.of_done rfl
  rfl

/-- **What uses nothing shared keeps the repetition**, together with what it is made of. -/
theorem closed : Gen.Closed (σ := σ) Gen.KeepsRepetition where
  toStepwise := Moves.stepwise followed
  withNested n _ := withNested n _

end KeepsRepetition

/-! ## Computations that are the same -/

/-- Where arrays are repeated `n` times, the computations do the same. -/
def SameAt (n : Nat) (g g' : Gen σ α) : Prop := ∀ l : Local σ, l.nested = n → g l = g' l

end Gen

theorem Work.bind_congr_ends {w : Work α} {f f' : α → Work β}
    (h : ∀ a, w.EndsAs (some a) → f a = f' a) : w.bind f = w.bind f' := by
  induction w with
  | done a => exact h a (.done a)
  | crash => rfl
  | next seed resume ih =>
    exact congrArg (Work.next seed) (funext fun n => ih n fun a ha => h a (.next n ha))
  | advance request resume ih =>
    exact congrArg (Work.advance request) (funext fun r => ih r fun a ha => h a (.advance r ha))

namespace Gen.SameAt

variable {n : Nat} {g g' : Gen σ α} {f f' : α → Gen σ β}

theorem refl (g : Gen σ α) : SameAt n g g := fun _ _ => rfl

/-- **Sequences do the same**, if what comes first keeps the repetition. -/
theorem bind (hg : SameAt n g g') (hkeeps : g.KeepsRepetition) (hf : ∀ a, SameAt n (f a) (f' a)) :
    SameAt n (g >>= f) (g' >>= f') := by
  intro l hl
  change (g l).bind (fun p => f p.1 p.2) = (g' l).bind (fun p => f' p.1 p.2)
  rw [← hg l hl]
  exact Work.bind_congr_ends fun p hp => hf p.1 p.2 ((hkeeps hp).trans hl)

theorem repeatFrom (hg : SameAt n g g') (hkeeps : g.KeepsRepetition) :
    ∀ (times : Nat) (before : List α),
      SameAt n (Gen.repeatFrom g times before) (Gen.repeatFrom g' times before)
  | 0, _ => refl _
  | times + 1, before => hg.bind hkeeps fun a => repeatFrom hg hkeeps times (a :: before)

theorem replicate (hg : SameAt n g g') (hkeeps : g.KeepsRepetition) (times : Nat) :
    SameAt n (Gen.replicate times g) (Gen.replicate times g') := hg.repeatFrom hkeeps times []

end Gen.SameAt

/-! ## Walks with a fixed repetition -/

namespace Json

variable (times : Nat) (leaf : Json → Gen σ Value)

mutual

/-- Walks a template once, and repeats its arrays as often as told, whatever its leaves do. -/
def walkTimes : Json → Gen σ (Option Json)
  | obj members => do pure (some (.obj (← walkMembersTimes members)))
  | arr items => do
    Gen.reserve (items.length * times)
    let passes ← if items.isEmpty then pure [] else Gen.replicate times (walkItemsTimes items)
    pure (some (.arr passes.flatten))
  | null => pure (some .null)
  | bool b => walkLeaf leaf (.bool b)
  | int n => walkLeaf leaf (.int n)
  | float x => walkLeaf leaf (.float x)
  | str t => walkLeaf leaf (.str t)

/-- Walks the members of an object once. -/
def walkMembersTimes : Members → Gen σ Members
  | [] => pure []
  | (key, node) :: rest => do
    let v ← walkTimes node
    let others ← walkMembersTimes rest
    pure (match v with | some v => (key, v) :: others | none => others)

/-- Walks the items of an array once. -/
def walkItemsTimes : List Json → Gen σ (List Json)
  | [] => pure []
  | node :: rest => do
    let v ← walkTimes node
    let others ← walkItemsTimes rest
    pure (match v with | some v => v :: others | none => others)

end

variable {times leaf}

mutual

/-- **A walk is the walk with a fixed repetition**, if its leaves keep the repetition. -/
theorem walk_sameAt (hleaf : ∀ node, (leaf node).KeepsRepetition) :
    ∀ tree : Json, Gen.SameAt times (walk leaf tree) (walkTimes times leaf tree)
  | .null | .bool b | .int m | .float x | .str t => by
    simp only [walk, walkTimes]
    exact .refl _
  | .obj members => by
    simp only [walk, walkTimes]
    exact (walkMembers_sameAt hleaf members).bind
      (walkMembers_closed Gen.KeepsRepetition.closed hleaf members) fun _ => .refl _
  | .arr items => by
    intro l hl
    -- the repetition is read where the walk comes to the array
    have hread : walk leaf (.arr items) l = (do
        Gen.reserve (items.length * l.nested)
        let passes ← if items.isEmpty then pure []
          else Gen.replicate l.nested (walkItems leaf items)
        pure (some (.arr passes.flatten)) : Gen σ (Option Json)) l := by
      simp only [walk]
      rfl
    rw [hread, hl]
    simp only [walkTimes]
    have hkeeps := walkItems_closed Gen.KeepsRepetition.closed hleaf items
    refine Gen.SameAt.bind (.refl _) (Gen.KeepsRepetition.closed.reserve _) (fun _ => ?_) l hl
    split
    · exact .refl _
    · exact ((walkItems_sameAt hleaf items).replicate hkeeps times).bind
        (Gen.KeepsRepetition.closed.replicate hkeeps times) fun _ => .refl _

theorem walkMembers_sameAt (hleaf : ∀ node, (leaf node).KeepsRepetition) :
    ∀ members : Members,
      Gen.SameAt times (walkMembers leaf members) (walkMembersTimes times leaf members)
  | [] => by
    simp only [walkMembers, walkMembersTimes]
    exact .refl _
  | (key, node) :: rest => by
    simp only [walkMembers, walkMembersTimes]
    exact (walk_sameAt hleaf node).bind (walk_closed Gen.KeepsRepetition.closed hleaf node) fun _ =>
      (walkMembers_sameAt hleaf rest).bind
        (walkMembers_closed Gen.KeepsRepetition.closed hleaf rest) fun _ => .refl _

theorem walkItems_sameAt (hleaf : ∀ node, (leaf node).KeepsRepetition) :
    ∀ items : List Json,
      Gen.SameAt times (walkItems leaf items) (walkItemsTimes times leaf items)
  | [] => by
    simp only [walkItems, walkItemsTimes]
    exact .refl _
  | node :: rest => by
    simp only [walkItems, walkItemsTimes]
    exact (walk_sameAt hleaf node).bind (walk_closed Gen.KeepsRepetition.closed hleaf node) fun _ =>
      (walkItems_sameAt hleaf rest).bind
        (walkItems_closed Gen.KeepsRepetition.closed hleaf rest) fun _ => .refl _

end

end Json

namespace Walk

variable (times : Nat) (leaf : Json → Gen σ Value)

/-- The objects of an object template, with a fixed repetition. -/
def objectsTimes (members : Json.Members) (count : Nat) : Gen σ (List Json) := do
  Gen.reserve count
  Gen.replicate count do pure (.obj (← Json.walkMembersTimes times leaf members))

/-- The records of a template, with a fixed repetition. -/
def recordsTimes (template : Json) (count : Nat) : Gen σ (List Json) :=
  match template with
  | .obj members => objectsTimes times leaf members count
  | .arr items => do pure (← Json.walkTimes times leaf (.arr items)).toList
  | _ => pure []

/-- The lines of an object template, with a fixed repetition. -/
def eventsTimes (template : Json) (count : Nat) : Gen σ (List Text) :=
  match template with
  | .obj members => do pure ((← objectsTimes times leaf members count).map Json.render)
  | _ => pure []

variable {times leaf}

theorem objects_sameAt (hleaf : ∀ node, (leaf node).KeepsRepetition) (members : Json.Members)
    (count : Nat) :
    Gen.SameAt times (objects leaf members count) (objectsTimes times leaf members count) := by
  have hrecord : Gen.SameAt times (Json.walkObject leaf members)
      (do pure (.obj (← Json.walkMembersTimes times leaf members))) :=
    (Json.walkMembers_sameAt hleaf members).bind
      (Json.walkMembers_closed Gen.KeepsRepetition.closed hleaf members) fun _ => .refl _
  refine Gen.SameAt.bind (.refl _) (Gen.KeepsRepetition.closed.reserve count) fun _ => ?_
  exact hrecord.replicate (Json.walkObject_closed Gen.KeepsRepetition.closed hleaf members) count

theorem records_sameAt (hleaf : ∀ node, (leaf node).KeepsRepetition) (template : Json)
    (count : Nat) :
    Gen.SameAt times (records leaf template count) (recordsTimes times leaf template count) := by
  cases template with
  | obj members => exact objects_sameAt hleaf members count
  | arr items =>
    exact (Json.walk_sameAt hleaf (.arr items)).bind
      (Json.walk_closed Gen.KeepsRepetition.closed hleaf (.arr items)) fun _ => .refl _
  | _ => exact .refl _

theorem events_sameAt (hleaf : ∀ node, (leaf node).KeepsRepetition) (template : Json)
    (count : Nat) :
    Gen.SameAt times (events leaf template count) (eventsTimes times leaf template count) := by
  cases template with
  | obj members =>
    exact (objects_sameAt hleaf members count).bind
      (objects_closed Gen.KeepsRepetition.closed hleaf members count) fun _ => .refl _
  | _ => exact .refl _

end Walk

/-! ## Evaluations -/

variable [WordSource σ]

/-- **A text keeps the repetition of arrays**, whatever the calls nested in it set it to, and whether
    they are carried out or not. -/
theorem evaluateText_keepsRepetition (now : Moment) (t : Text) :
    (evaluateText now t : Gen σ Value).KeepsRepetition := by
  have hclosed := Gen.KeepsRepetition.closed (σ := σ)
  refine evaluateText_closed hclosed now (fun self hself f c t _ => ?_) t
  rw [invoke_eq]
  exact hclosed.bind (Gen.KeepsRepetition.note _) fun _ => carryOut_closed hclosed hself now
    (fun _ => ⟨Gen.KeepsRepetition.nextNumber, Gen.KeepsRepetition.nextDate⟩) c t

/-- A computation keeps the repetition of arrays, and does what `fixed` does with the repetition that
    it starts with. -/
structure Gen.Repeats (g : Gen σ α) (fixed : Nat → Gen σ α) : Prop where
  keeps : g.KeepsRepetition
  same : ∀ l : Local σ, g l = fixed l.nested l

/-- **The repetition of a template inside a call never leaks out of it.** Texts keep the repetition
    of arrays. So do walks, records and lines, and each does the same as with a repetition that is
    fixed at its start, whatever calls stand before an array. -/
theorem repetition_fixed (now : Moment) :
    (∀ t, (evaluateText now t : Gen σ Value).KeepsRepetition) ∧
    (∀ tree, (Json.walk (evaluateLeaf now) tree : Gen σ _).Repeats
      fun times => Json.walkTimes times (evaluateLeaf now) tree) ∧
    ∀ template count,
      (Walk.records (evaluateLeaf now) template count : Gen σ _).Repeats
          (fun times => Walk.recordsTimes times (evaluateLeaf now) template count) ∧
        (Walk.events (evaluateLeaf now) template count : Gen σ _).Repeats
          fun times => Walk.eventsTimes times (evaluateLeaf now) template count := by
  have hclosed := Gen.KeepsRepetition.closed (σ := σ)
  have hself := evaluateText_keepsRepetition (σ := σ) now
  have hleaf : ∀ node, (evaluateLeaf now node : Gen σ Value).KeepsRepetition :=
    evaluateLeafWith_closed hclosed hself
  refine ⟨hself, fun tree => ⟨?_, ?_⟩, fun template count => ⟨⟨?_, ?_⟩, ⟨?_, ?_⟩⟩⟩
  · exact Json.walk_closed hclosed hleaf tree
  · exact fun l => Json.walk_sameAt hleaf tree l rfl
  · exact Walk.records_closed hclosed hleaf template count
  · exact fun l => Walk.records_sameAt hleaf template count l rfl
  · exact Walk.events_closed hclosed hleaf template count
  · exact fun l => Walk.events_sameAt hleaf template count l rfl

/-- A template whose array is repeated as often as its call says, before one that is not. -/
def unevenPair : Json.Members :=
  [("a".toList, .str (Call.inline (.obj [("b".toList, .arr [.bool true])]) 3)),
    ("c".toList, .arr [.str "x".toList])]

/-- What a walk of it makes, if arrays are repeated twice. -/
def unevenRecord : Json.Members :=
  [("a".toList, .str "\x7b\"b\":[true,true,true]\x7d".toList),
    ("c".toList, .arr [.str "x".toList, .str "x".toList])]

theorem evaluateText_unevenPair : (evaluateText (.midnight .epoch)
    (Call.inline (.obj [("b".toList, .arr [.bool true])]) 3)).Yields
      (⟨⟨[], 0⟩, 2, {}⟩ : Local Replay) .fresh (.text "\x7b\"b\":[true,true,true]\x7d".toList)
      ⟨⟨[], 0⟩, 2, { usage := [("json".toList, 1)] }⟩ .fresh := by
  have hcall : Function.inlineArguments ⟨"json".toList,
      Call.inlineText (.obj [("b".toList, .arr [.bool true])]) 3,
      splitArguments (Call.inlineText (.obj [("b".toList, .arr [.bool true])]) 3)⟩ =
        .ok ⟨[("b".toList, .arr [.bool true])], 1, some 3⟩ := by
    cbv
  unfold Call.inline
  rw [evaluateText_inlineTemplate _ hcall]
  rfl

theorem repetition_fixed_unevenPair : ∃ l',
    (Json.walk (evaluateLeaf (.midnight .epoch)) (.obj unevenPair)).Reaches
      (⟨⟨[], 0⟩, 2, {}⟩ : Local Replay) (some (.obj unevenRecord)) l' ∧ l'.nested = 2 := by
  obtain ⟨-, hwalk, -⟩ := repetition_fixed (σ := Replay) (.midnight .epoch)
  have hmembers : (Json.walkMembersTimes 2 (evaluateLeaf (.midnight .epoch)) unevenPair).Yields
      (⟨⟨[], 0⟩, 2, {}⟩ : Local Replay) .fresh unevenRecord
      ⟨⟨[], 0⟩, 2, { usage := [("json".toList, 1)] }⟩ .fresh :=
    Gen.yields_bind_iff.2 ⟨_, _, _,
      Gen.yields_bind_iff.2 ⟨_, _, _, evaluateText_unevenPair, rfl⟩, rfl⟩
  have hfixed : (Json.walkTimes 2 (evaluateLeaf (.midnight .epoch)) (.obj unevenPair)).Yields
      (⟨⟨[], 0⟩, 2, {}⟩ : Local Replay) .fresh (some (.obj unevenRecord))
      ⟨⟨[], 0⟩, 2, { usage := [("json".toList, 1)] }⟩ .fresh :=
    Gen.yields_bind_iff.2 ⟨_, _, _, hmembers, rfl⟩
  have h : (Json.walk (evaluateLeaf (.midnight .epoch)) (.obj unevenPair)).Reaches
      (⟨⟨[], 0⟩, 2, {}⟩ : Local Replay) (some (.obj unevenRecord))
      ⟨⟨[], 0⟩, 2, { usage := [("json".toList, 1)] }⟩ := by
    unfold Gen.Reaches
    rw [(hwalk _).same]
    exact hfixed.reaches
  exact ⟨_, h, (hwalk _).keeps h⟩

end Recordsmith
