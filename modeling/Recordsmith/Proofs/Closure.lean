import Recordsmith.Proofs.Unfolding

/-!
# Properties of all evaluations

Evaluations and walks are put together from a few steps: draws, breakdowns, looks at the repetition
of arrays and changes of it, counts in the report, and uses of what is shared. A property that these
steps have, and that passes to sequences, is a property of every evaluation.

* `Gen.Closed`: the property belongs to the steps that use nothing shared, and passes to sequences
  and into another repetition of arrays; `Gen.Stepwise.closed`: it does the latter if it also
  belongs to a change of the repetition;
* `Json.walk_closed`, `Walk.records_closed`, `Walk.events_closed`: walks have it if their leaves
  have it;
* `Function.apply_closed`: so do calls, and `Function.usesShared` are those that also use what is
  shared;
* `evaluateText_closed`: so do texts, if the calls in them have it together with the count of their
  use.
-/

namespace Recordsmith

variable {σ α β : Type}

/-- A property of computations that belongs to each step that uses nothing shared and changes no
    repetition, and that passes to sequences. What is read of a worker is the repetition of
    arrays. -/
structure Gen.Stepwise (P : {α : Type} → Gen σ α → Prop) : Prop where
  pure : ∀ {α : Type} (a : α), P (Pure.pure a : Gen σ α)
  bind : ∀ {α β : Type} {g : Gen σ α} {f : α → Gen σ β}, P g → (∀ a, P (f a)) → P (g >>= f)
  draw : ∀ {α : Type} (d : StateM σ α), P (Gen.draw d)
  crash : ∀ {α : Type}, P (Gen.crash : Gen σ α)
  leftOut : P (Gen.note Report.recordUnsupported : Gen σ Unit)
  fallback : P (Gen.note Report.recordFallback : Gen σ Unit)
  get : ∀ {α : Type} {f : Local σ → Gen σ α}, (∀ l, P (f l)) →
    (∀ l l', l.nested = l'.nested → f l = f l') → P (MonadState.get >>= f)

/-- Such a property that also passes to a run with another repetition of arrays. -/
structure Gen.Closed (P : {α : Type} → Gen σ α → Prop) : Prop extends Gen.Stepwise P where
  withNested : ∀ {α : Type} {g : Gen σ α} (n : Nat), P g → P (Gen.withNested n g)

variable {P : {α : Type} → Gen σ α → Prop}

/-- A run with another repetition changes the repetition, and changes it back. -/
theorem Gen.Stepwise.closed (h : Stepwise P)
    (hset : ∀ n : Nat, P (modify fun l => { l with nested := n } : Gen σ Unit)) : Closed P where
  toStepwise := h
  withNested n hg := h.get
    (fun l => h.bind (hset n) fun _ => h.bind hg fun a => h.bind (hset l.nested) fun _ => h.pure a)
    fun l l' hn => by simp only [hn]

namespace Gen.Closed

theorem map {g : Gen σ α} (h : Closed P) (hg : P g) (f : α → β) : P (f <$> g) := by
  rw [map_eq_pure_bind]
  exact h.bind hg fun a => h.pure (f a)

/-! ## Attempts -/

theorem attemptPure (h : Closed P) (a : α) : P (Pure.pure a : Attempt σ α).run :=
  h.pure (Except.ok a)

theorem attemptThrow (h : Closed P) (e : Failure) : P (throw e : Attempt σ α).run :=
  h.pure (Except.error e)

theorem attemptBind {x : Attempt σ α} {f : α → Attempt σ β} (h : Closed P) (hx : P x.run)
    (hf : ∀ a, P (f a).run) : P (x >>= f).run := by
  rw [ExceptT.run_bind]
  refine h.bind hx fun r => ?_
  cases r with
  | ok a => exact hf a
  | error e => exact h.pure (Except.error e)

theorem attemptLift {g : Gen σ α} (h : Closed P) (hg : P g) :
    P (ExceptT.lift g : Attempt σ α).run := by
  rw [ExceptT.run_lift]
  exact h.map hg _

theorem attemptLiftM (h : Closed P) (r : Except Failure α) : P (liftM r : Attempt σ α).run := by
  cases r with
  | ok a => exact h.pure (Except.ok a)
  | error e => exact h.pure (Except.error e)

theorem attemptDraw (h : Closed P) (d : StateM σ α) : P (Attempt.draw d).run :=
  h.attemptLift (h.draw d)

theorem attemptDrawChecked (h : Closed P) (d : StateM σ (Except Failure α)) :
    P (Attempt.drawChecked d).run := h.draw d

theorem attemptOfChecked {ε : Type} (h : Closed P) (failure? : ε → Option Failure)
    (r : Except ε α) : P (Attempt.ofChecked failure? r : Attempt σ α).run := by
  cases r with
  | ok a => exact h.attemptPure a
  | error fault =>
    unfold Attempt.ofChecked
    dsimp only
    split
    · exact h.attemptThrow _
    · exact h.attemptLift h.crash

/-! ## Repetitions -/

theorem reserve (h : Closed P) (count : Nat) : P (Gen.reserve count : Gen σ Unit) := by
  unfold Gen.reserve
  split
  · exact h.pure ()
  · exact h.crash

theorem repeatFrom {g : Gen σ α} (h : Closed P) (hg : P g) : ∀ (n : Nat) (before : List α),
    P (Gen.repeatFrom g n before)
  | 0, before => h.pure before.reverse
  | n + 1, before => h.bind hg fun a => h.repeatFrom hg n (a :: before)

theorem replicate {g : Gen σ α} (h : Closed P) (hg : P g) (n : Nat) : P (Gen.replicate n g) :=
  h.repeatFrom hg n []

end Gen.Closed

/-! ## Walks -/

section

variable {leaf : Json → Gen σ Value}

namespace Json

theorem walkLeaf_closed (h : Gen.Closed P) (hleaf : ∀ node, P (leaf node)) (node : Json) :
    P (walkLeaf leaf node) := by
  unfold walkLeaf
  refine h.bind (hleaf node) fun v => ?_
  split
  · exact h.pure _
  · exact h.bind h.leftOut fun _ => h.pure none

mutual

/-- **A walk has a property that its leaves have.** -/
theorem walk_closed (h : Gen.Closed P) (hleaf : ∀ node, P (leaf node)) : ∀ tree : Json,
    P (walk leaf tree)
  | .null => by
    simp only [walk]
    exact h.pure _
  | .bool b => by
    simp only [walk]
    exact walkLeaf_closed h hleaf (.bool b)
  | .int n => by
    simp only [walk]
    exact walkLeaf_closed h hleaf (.int n)
  | .float x => by
    simp only [walk]
    exact walkLeaf_closed h hleaf (.float x)
  | .str t => by
    simp only [walk]
    exact walkLeaf_closed h hleaf (.str t)
  | .obj members => by
    simp only [walk]
    exact h.bind (walkMembers_closed h hleaf members) fun out => h.pure _
  | .arr items => by
    simp only [walk]
    refine h.get (fun l => ?_) fun l l' hn => by simp only [hn]
    refine h.bind (h.reserve _) fun _ => ?_
    split
    · exact h.bind (h.pure []) fun passes => h.pure _
    · exact h.bind (h.replicate (walkItems_closed h hleaf items) _) fun passes => h.pure _

theorem walkMembers_closed (h : Gen.Closed P) (hleaf : ∀ node, P (leaf node)) :
    ∀ members : Members, P (walkMembers leaf members)
  | [] => by
    simp only [walkMembers]
    exact h.pure []
  | (key, node) :: rest => by
    simp only [walkMembers]
    exact h.bind (walk_closed h hleaf node) fun v =>
      h.bind (walkMembers_closed h hleaf rest) fun others => h.pure _

theorem walkItems_closed (h : Gen.Closed P) (hleaf : ∀ node, P (leaf node)) :
    ∀ items : List Json, P (walkItems leaf items)
  | [] => by
    simp only [walkItems]
    exact h.pure []
  | node :: rest => by
    simp only [walkItems]
    exact h.bind (walk_closed h hleaf node) fun v =>
      h.bind (walkItems_closed h hleaf rest) fun others => h.pure _

end

theorem walkObject_closed (h : Gen.Closed P) (hleaf : ∀ node, P (leaf node)) (members : Members) :
    P (walkObject leaf members) :=
  h.bind (walkMembers_closed h hleaf members) fun _ => h.pure _

end Json

namespace Walk

theorem objects_closed (h : Gen.Closed P) (hleaf : ∀ node, P (leaf node)) (members : Json.Members)
    (count : Nat) : P (objects leaf members count) :=
  h.bind (h.reserve count) fun _ => h.replicate (Json.walkObject_closed h hleaf members) count

theorem records_closed (h : Gen.Closed P) (hleaf : ∀ node, P (leaf node)) (template : Json)
    (count : Nat) : P (records leaf template count) := by
  cases template with
  | obj members => exact objects_closed h hleaf members count
  | arr items => exact h.bind (Json.walk_closed h hleaf (.arr items)) fun v => h.pure _
  | _ => exact h.pure []

theorem events_closed (h : Gen.Closed P) (hleaf : ∀ node, P (leaf node)) (template : Json)
    (count : Nat) : P (events leaf template count) := by
  cases template with
  | obj members => exact h.bind (objects_closed h hleaf members count) fun rows => h.pure _
  | _ => exact h.pure []

end Walk

end

/-! ## Calls -/

section

variable {self : Text → Gen σ Value}

theorem evaluateLeafWith_closed (h : Gen.Closed P) (hself : ∀ t, P (self t)) (node : Json) :
    P (evaluateLeafWith self node) := by
  cases node with
  | str t => exact hself t
  | _ => exact h.pure _

namespace Function

/-- The function uses the sequence or the cursor that workers share. -/
def usesShared : Function → Bool
  | sequence | dateSequence => true
  | _ => false

theorem part_closed (h : Gen.Closed P) (hself : ∀ t, P (self t)) (t : Text) : P (part self t) := by
  unfold part
  split
  · exact h.pure _
  · split
    · exact h.pure _
    · exact h.bind (hself t) fun v => h.pure _

theorem parts_closed (h : Gen.Closed P) (hself : ∀ t, P (self t)) : ∀ ts : List Text,
    P (parts self ts)
  | [] => h.pure []
  | t :: rest => h.bind (part_closed h hself t) fun _ =>
    h.bind (parts_closed h hself rest) fun _ => h.pure _

theorem applyInline_closed (h : Gen.Closed P) (hself : ∀ t, P (self t)) (c : Call) :
    P (applyInline self c).run := by
  unfold applyInline
  refine h.attemptBind (h.attemptLiftM _) fun i => ?_
  dsimp only
  rw [ExceptT.run_bind_lift]
  refine h.get (fun l => ?_) fun l l' hn => by simp only [hn]
  refine h.attemptBind (h.attemptLift (h.withNested _ ?_)) fun lines => ?_
  · exact Walk.events_closed h (evaluateLeafWith_closed h hself) _ _
  · cases lines with
    | nil => exact h.attemptThrow _
    | cons line rest => exact h.attemptPure _

theorem candidate_closed (h : Gen.Closed P) (c : Call) (p : Pattern) (unit : TimeUnit)
    (now : Zoned) (start : Text) : P (candidate c p unit now start : Attempt σ _).run := by
  unfold candidate
  refine h.attemptBind (h.attemptOfChecked _ _) fun offset => ?_
  cases offset with
  | some n =>
    dsimp only
    split
    · exact h.attemptPure none
    · rw [map_eq_pure_bind]
      exact h.attemptBind (h.attemptOfChecked _ _) fun z => h.attemptPure _
  | none =>
    refine h.attemptBind (h.attemptLiftM _) fun reading => ?_
    split
    · exact h.attemptPure _
    · exact h.attemptThrow _

theorem applyDateSequence_closed (h : Gen.Closed P) (hdate : ∀ r, P (Gen.nextDate r : Gen σ _))
    (now : Moment) (c : Call) : P (applyDateSequence now c : Attempt σ Value).run := by
  refine h.attemptBind (h.attemptLiftM _) fun start => ?_
  refine h.attemptBind (h.attemptLiftM _) fun source => ?_
  refine h.attemptBind (h.attemptLiftM _) fun p => ?_
  refine h.attemptBind (h.attemptLiftM _) fun name => ?_
  refine h.attemptBind (h.attemptLiftM _) fun zone => ?_
  refine h.attemptBind (h.attemptLiftM _) fun unit => ?_
  refine h.attemptBind (candidate_closed h ..) fun candidate => ?_
  refine h.attemptBind (h.attemptLift (hdate _)) fun r => ?_
  exact h.attemptBind (h.attemptOfChecked _ _) fun z => h.attemptPure _

theorem applyDateOffset_closed (h : Gen.Closed P) (now : Moment) (c : Call) :
    P (applyDateOffset now c : Attempt σ Value).run := by
  refine h.attemptBind (h.attemptLiftM _) fun offset => ?_
  refine h.attemptBind (h.attemptLiftM _) fun source => ?_
  refine h.attemptBind (h.attemptLiftM _) fun p => ?_
  refine h.attemptBind (h.attemptLiftM _) fun name => ?_
  refine h.attemptBind (h.attemptLiftM _) fun zone => ?_
  refine h.attemptBind (h.attemptLiftM _) fun unit => ?_
  refine h.attemptBind (h.attemptOfChecked _ _) fun amount => ?_
  exact h.attemptBind (h.attemptOfChecked _ _) fun z => h.attemptPure _

variable [WordSource σ]

theorem applyLetters_closed (h : Gen.Closed P) (set : Text) (c : Call) :
    P (applyLetters set c : Attempt σ Value).run := by
  refine h.attemptBind (h.attemptLiftM _) fun length => ?_
  dsimp only
  split
  · exact h.attemptLift h.crash
  · exact h.attemptBind (h.attemptDraw _) fun t => h.attemptPure _

theorem applyDouble_closed (h : Gen.Closed P) (c : Call) :
    P (applyDouble c : Attempt σ Value).run := by
  refine h.attemptBind (h.attemptLiftM _) fun bounds => ?_
  refine h.attemptBind (h.attemptDrawChecked _) fun x => ?_
  split
  · exact h.attemptPure _
  · exact h.attemptPure _

theorem applySample_closed (h : Gen.Closed P) (now : Moment) (source : Text) (c : Call) :
    P (applySample now source c : Attempt σ Value).run :=
  h.attemptBind (h.attemptLiftM _) fun _ =>
    h.attemptBind (h.attemptDrawChecked _) fun _ => h.attemptPure _

/-- **A call has a property that the texts inside it have**, and that the uses of what is shared
    have, if it makes any. -/
theorem apply_closed (h : Gen.Closed P) (hself : ∀ t, P (self t)) (now : Moment) {f : Function}
    (hshared : f.usesShared = true →
      (∀ seed, P (Gen.nextNumber seed : Gen σ Int)) ∧ ∀ r, P (Gen.nextDate r : Gen σ _))
    (c : Call) : P (f.apply now self c).run := by
  cases f with
  | choice =>
    refine h.attemptBind (h.attemptDraw _) fun v => ?_
    cases v with
    | some v => exact h.attemptPure v
    | none => exact h.attemptThrow _
  | inlineTemplate => exact applyInline_closed h hself c
  | int | long =>
    exact h.attemptBind (h.attemptLiftM _) fun bounds =>
      h.attemptBind (h.attemptDrawChecked _) fun n => h.attemptPure _
  | double => exact applyDouble_closed h c
  | dateSequence => exact applyDateSequence_closed h (hshared rfl).2 now c
  | dateOffset => exact applyDateOffset_closed h now c
  | dateTime | date | isoDateTime => exact applySample_closed h now _ c
  | alpha | alphanumeric => exact applyLetters_closed h _ c
  | quoted | upper | lower =>
    exact h.attemptBind (h.attemptLift (hself c.inner)) fun v => h.attemptPure _
  | concat =>
    exact h.attemptBind (h.attemptLift (parts_closed h hself c.arguments)) fun t =>
      h.attemptPure _
  | sequence =>
    exact h.attemptBind (h.attemptLiftM _) fun seed =>
      h.attemptBind (h.attemptLift ((hshared rfl).1 seed)) fun n => h.attemptPure _
  | uuid | bool => exact h.attemptBind (h.attemptDraw _) fun v => h.attemptPure _

end Function

end

/-! ## Texts -/

variable [WordSource σ]

/-- What follows the count of a use: the call, and another count if it fails. -/
def carryOut (now : Moment) (self : Text → Gen σ Value) (f : Function) (c : Call) (t : Text) :
    Gen σ Value := do
  match ← (f.apply now self c).run with
  | .ok v => pure v
  | .error _ => do
    Gen.note Report.recordFallback
    pure (literalValue t)

theorem invoke_eq (now : Moment) (self : Text → Gen σ Value) (f : Function) (c : Call) (t : Text) :
    invoke now self f c t = Gen.note (Report.recordUse c.name) >>= fun _ =>
      carryOut now self f c t := rfl

/-- What follows a call has a property that the call has. -/
theorem carryOut_of_apply (h : Gen.Closed P) {now : Moment} {self : Text → Gen σ Value}
    {f : Function} {c : Call} (happly : P (f.apply now self c).run) (t : Text) :
    P (carryOut now self f c t) := by
  refine h.bind happly fun r => ?_
  cases r with
  | ok v => exact h.pure v
  | error e => exact h.bind h.fallback fun _ => h.pure _

theorem carryOut_closed (h : Gen.Closed P) {self : Text → Gen σ Value} (hself : ∀ t, P (self t))
    (now : Moment) {f : Function} (hshared : f.usesShared = true →
      (∀ seed, P (Gen.nextNumber seed : Gen σ Int)) ∧ ∀ r, P (Gen.nextDate r : Gen σ _))
    (c : Call) (t : Text) : P (carryOut now self f c t) :=
  carryOut_of_apply h (Function.apply_closed h hself now hshared c) t

/-- **A text has a property that calls have together with the count of their use.** -/
theorem evaluateText_closed (h : Gen.Closed P) (now : Moment)
    (hinvoke : ∀ self : Text → Gen σ Value, (∀ t, P (self t)) → ∀ f c t,
      dispatch? t = some (f, c) → P (invoke now self f c t)) (t : Text) :
    P (evaluateText now t : Gen σ Value) := by
  have hdepth : ∀ (depth : Nat) (t : Text), P (evaluateToDepth now depth t : Gen σ Value) := by
    intro depth
    induction depth with
    | zero => exact fun t => h.pure _
    | succ depth ih =>
      intro t
      unfold evaluateToDepth
      rw [evaluateStep_eq]
      rcases hd : dispatch? t with _ | ⟨f, c⟩
      · exact h.pure _
      · exact hinvoke _ ih f c t hd
  exact hdepth _ t

end Recordsmith
