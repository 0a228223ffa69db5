import Recordsmith.Proofs.Arguments
import Recordsmith.Proofs.Unfolding

/-!
# Composition

Calls inside calls are written as one text, which is scanned again at each level. Nonetheless the
value of the text is made of the values of the expressions in it.

* `Expression` are concatenations, changes of case and quotations of leaves;
* `Expression.evaluate` is what they mean, by recursion on their structure;
* `Written` says which texts an expression can be written as: `name(part, part, …)`, with any white
  space around the parts;
* `evaluateText_written`: the text of an expression is evaluated to what the expression means.
-/

namespace Recordsmith

/-! ## Expressions -/

/-- A text that can stand as an argument: trimmed, with balanced brackets, closed quotes, and no
    comma outside them. -/
structure Leaf where
  text : Text
  ne_nil : text ≠ []
  trim_eq : Text.trim text = text
  isClosed : Text.isClosed text = true

/-- A function of one text. -/
inductive Wrapper where
  | quoted
  | upper
  | lower
deriving DecidableEq

namespace Wrapper

/-- The name that calls use. -/
def name : Wrapper → Text
  | quoted => "qs".toList
  | upper => "upper".toList
  | lower => "lower".toList

/-- The text in quotes, in capital or in small letters. -/
def wrap : Wrapper → Text → Text
  | quoted, t => '"' :: (t ++ ['"'])
  | upper, t => Text.upper t
  | lower, t => Text.lower t

end Wrapper

/-- Leaves, and functions of them, inside each other to any depth. -/
inductive Expression where
  | leaf (l : Leaf)
  | wrap (w : Wrapper) (e : Expression)
  | concat (parts : List Expression)

/-! ## What expressions mean -/

namespace Expression

variable {σ : Type} [WordSource σ]

/-- The text that a bare word stands for as a part of a concatenation. -/
def word? : Expression → Option Text
  | leaf l =>
    if l.text = "SPACE".toList then some [' ']
    else if l.text = "COMMA".toList then some [',', ' ']
    else none
  | wrap _ _ => none
  | concat _ => none

mutual

/-- The value of an expression. Each function counts one use, then evaluates its parts. -/
def evaluate (now : Moment) : Expression → Gen σ Value
  | leaf l => evaluateText now l.text
  | wrap w e => do
    Gen.note (Report.recordUse w.name)
    let v ← evaluate now e
    pure (.text (w.wrap v.display))
  | concat parts => do
    Gen.note (Report.recordUse "cat".toList)
    let t ← evaluateParts now parts
    pure (.text t)

/-- The texts of the parts, one after the other. The parts are evaluated from left to right. -/
def evaluateParts (now : Moment) : List Expression → Gen σ Text
  | [] => pure []
  | e :: rest => do
    let head ←
      match e.word? with
      | some word => pure word
      | none => do
        let v ← evaluate now e
        pure v.display
    let tail ← evaluateParts now rest
    pure (head ++ tail)

end

end Expression

/-! ## How expressions are written -/

mutual

/-- The expression can be written as the text. -/
inductive Written : Expression → Text → Prop
  | leaf (l : Leaf) : Written (.leaf l) l.text
  | wrap (w : Wrapper) {e : Expression} {t : Text} :
      WrittenPart e t → Written (.wrap w e) (Call.write w.name t)
  | concat {parts : List Expression} {t : Text} :
      WrittenParts parts t → Written (.concat parts) (Call.write "cat".toList t)

/-- The expression can be written as the text, with or without white space around it. -/
inductive WrittenPart : Expression → Text → Prop
  | pad {e : Expression} {before t after : Text} : Text.Blank before → Written e t →
      Text.Blank after → WrittenPart e (before ++ t ++ after)

/-- The expressions can be written as the text, with commas between them. -/
inductive WrittenParts : List Expression → Text → Prop
  | none {t : Text} : Text.Blank t → WrittenParts [] t
  | one {e : Expression} {t : Text} : WrittenPart e t → WrittenParts [e] t
  | cons {e e' : Expression} {rest : List Expression} {t u : Text} : WrittenPart e t →
      WrittenParts (e' :: rest) u → WrittenParts (e :: e' :: rest) (t ++ ',' :: u)

end

namespace Wrapper

theorem isName_name (w : Wrapper) : Call.isName w.name = true := by
  cases w <;> decide

end Wrapper

theorem isName_cat : Call.isName "cat".toList = true := by decide

theorem Written.part {e : Expression} {t : Text} (h : Written e t) : WrittenPart e t := by
  have hpad := WrittenPart.pad Text.blank_nil h Text.blank_nil
  rwa [List.nil_append, List.append_nil] at hpad

/-! ### Written expressions can stand as arguments -/

theorem Written.trim_eq {e : Expression} {t : Text} (h : Written e t) : Text.trim t = t := by
  cases h with
  | leaf l => exact l.trim_eq
  | wrap w _ => exact Call.trim_write w.isName_name _
  | concat _ => exact Call.trim_write isName_cat _

theorem Written.not_blank {e : Expression} {t : Text} (h : Written e t) : ¬ Text.Blank t := by
  intro hb
  have hnil : t = [] := h.trim_eq.symm.trans (Text.trim_eq_nil_iff.2 hb)
  cases h with
  | leaf l => exact l.ne_nil hnil
  | wrap w _ => simp [Call.write] at hnil
  | concat _ => simp [Call.write] at hnil

mutual

/-- **A written expression can stand within any brackets**, as a leaf can. -/
theorem Written.passes : ∀ {e : Expression} {t : Text}, Written e t → t.Passes 0
  | _, _, .leaf l => Text.passes_of_isClosed l.isClosed
  | _, _, .wrap w h => Call.passes_write w.isName_name (h.passes.mono (Nat.zero_le 1))
  | _, _, .concat h => Call.passes_write isName_cat h.passes

theorem WrittenPart.passes : ∀ {e : Expression} {t : Text}, WrittenPart e t → t.Passes 0
  | _, _, .pad hb h ha => h.passes.pad hb ha

theorem WrittenParts.passes : ∀ {parts : List Expression} {t : Text},
    WrittenParts parts t → t.Passes 1
  | _, _, .none h => h.passes 1
  | _, _, .one h => h.passes.mono (Nat.zero_le 1)
  | _, _, .cons h hs => (h.passes.mono (Nat.zero_le 1)).comma hs.passes

end

/-! ### Arguments are cut as they were written -/

/-- The parts of a concatenation are a list of arguments. -/
theorem WrittenParts.writtenArguments {parts : List Expression} {t : Text}
    (h : WrittenParts parts t) :
    ∃ arguments, List.Forall₂ Written parts arguments ∧ WrittenArguments arguments t := by
  induction parts generalizing t with
  | nil =>
    obtain ⟨hb⟩ := h
    exact ⟨[], .nil, .none hb⟩
  | cons e rest ih =>
    cases h with
    | one h =>
      obtain ⟨hb, h, ha⟩ := h
      exact ⟨[_], .cons h .nil, .one hb ha⟩
    | cons h hrest =>
      obtain ⟨hb, h, ha⟩ := h
      obtain ⟨arguments, hwritten, harguments⟩ := ih hrest
      cases hwritten with
      | cons h' hwritten => exact ⟨_, .cons h (.cons h' hwritten), .cons hb ha harguments⟩

/-- **The arguments of a call are its parts, each as it was written.** -/
theorem WrittenParts.splitArguments {parts : List Expression} {t : Text}
    (h : WrittenParts parts t) : List.Forall₂ Written parts (splitArguments t) := by
  obtain ⟨arguments, hwritten, harguments⟩ := h.writtenArguments
  have hmem : ∀ a ∈ arguments, ∃ e, Written e a :=
    ((List.forall₂_and_left _ _).1 (hwritten.flip.imp fun _ e he => ⟨⟨e, he⟩, he⟩)).1
  have hpasses : ∀ a ∈ arguments, a.Passes 0 := fun a ha =>
    let ⟨_, he⟩ := hmem a ha
    he.passes
  have htrim : ∀ a ∈ arguments, Text.trim a = a := fun a ha =>
    let ⟨_, he⟩ := hmem a ha
    he.trim_eq
  have hne : arguments ≠ [[]] := by
    rintro rfl
    obtain ⟨_, he⟩ := hmem [] List.mem_cons_self
    exact he.not_blank Text.blank_nil
  rw [harguments.splitArguments_eq hpasses htrim hne]
  exact hwritten

/-! ### Words -/

/-- The words of a concatenation are leaves, since they have no brackets. -/
theorem Written.part_eq {σ : Type} {self : Text → Gen σ Value} {e : Expression} {t : Text}
    (h : Written e t) :
    Function.part self t = (match e.word? with
      | some word => pure word
      | none => do
        let v ← self t
        pure v.display) := by
  have hcall : ∀ name inner : Text, Function.part self (Call.write name inner) = (do
      let v ← self (Call.write name inner)
      pure v.display) := by
    intro name inner
    have hopen : '(' ∈ Call.write name inner := List.mem_append_right _ List.mem_cons_self
    have hne : ∀ word : Text, '(' ∉ word → Call.write name inner ≠ word :=
      fun word hword heq => hword (heq ▸ hopen)
    unfold Function.part
    rw [if_neg (hne _ (by decide)), if_neg (hne _ (by decide))]
  cases h with
  | leaf l =>
    unfold Function.part Expression.word?
    dsimp only
    by_cases hspace : l.text = "SPACE".toList
    · rw [if_pos hspace, if_pos hspace]
    · rw [if_neg hspace, if_neg hspace]
      by_cases hcomma : l.text = "COMMA".toList
      · rw [if_pos hcomma, if_pos hcomma]
      · rw [if_neg hcomma, if_neg hcomma]
  | wrap w _ => exact hcall _ _
  | concat _ => exact hcall _ _

/-! ## One level of evaluation -/

section

variable {σ : Type} [WordSource σ] {self : Text → Gen σ Value}

theorem literalValue_congr {t u : Text} (h : Text.trim t = Text.trim u) :
    literalValue t = literalValue u := by
  simp only [literalValue, Text.stripQuotes, h]

theorem evaluateText_congr (now : Moment) {t u : Text} (h : Text.trim t = Text.trim u)
    (hopen : t.contains '(' = u.contains '(') :
    (evaluateText now t : Gen σ Value) = evaluateText now u := by
  have hdispatch : dispatch? t = dispatch? u := by
    simp only [dispatch?, Call.parse?, Text.stripQuotes, h, hopen]
  rw [evaluateText_eq, evaluateText_eq now u, evaluateStep_eq, evaluateStep_eq, hdispatch]
  rcases dispatch? u with _ | ⟨f, c⟩
  · simp only [literalValue_congr h]
  · simp only [invoke, literalValue_congr h]

/-- **White space around a text changes nothing of its evaluation.** -/
theorem evaluateText_pad (now : Moment) {before after : Text} (hb : Text.Blank before)
    (ha : Text.Blank after) (t : Text) :
    (evaluateText now (before ++ t ++ after) : Gen σ Value) = evaluateText now t := by
  have hopen : ∀ {u : Text}, Text.Blank u → u.contains '(' = false := by
    intro u hu
    rw [List.contains_eq_mem, decide_eq_false_iff_not]
    exact fun hmem => absurd (hu '(' hmem) (by decide)
  refine evaluateText_congr now (Text.trim_pad hb ha t) ?_
  rw [List.contains_append, List.contains_append, hopen hb, hopen ha, Bool.false_or,
    Bool.or_false]

theorem dispatch?_write {name : Text} {f : Function} (hn : Call.isName name = true)
    (hf : Function.named? name = some f) (inner : Text) :
    dispatch? (Call.write name inner) = some (f, ⟨name, inner, splitArguments inner⟩) := by
  have hopen : (Call.write name inner).contains '(' = true := by
    simp [Call.write]
  unfold dispatch?
  rw [hopen, if_pos rfl, Call.parse?_write hn, Option.bind_some, hf, Option.map_some]

/-- **A call that is written is carried out.** -/
theorem evaluateText_write (now : Moment) {name : Text} {f : Function}
    (hn : Call.isName name = true) (hf : Function.named? name = some f) (inner : Text) :
    (evaluateText now (Call.write name inner) : Gen σ Value) =
      invoke now (evaluateText now) f ⟨name, inner, splitArguments inner⟩
        (Call.write name inner) :=
  evaluateText_of_dispatch? (dispatch?_write hn hf inner)

/-- A function that evaluates its text and cannot fail counts one use and no fallback. -/
theorem invoke_of_lift (now : Moment) {f : Function} {c : Call} {α : Type} {g : Gen σ α}
    {value : α → Value}
    (h : f.apply now self c = (do
      let a ← ExceptT.lift g
      pure (value a))) (t : Text) :
    invoke now self f c t = (do
      Gen.note (Report.recordUse c.name)
      let a ← g
      pure (value a)) := by
  unfold invoke
  rw [h]
  simp only [ExceptT.run_bind_lift, ExceptT.run_pure, bind_assoc, pure_bind]

theorem evaluateText_wrapper (now : Moment) (w : Wrapper) (inner : Text) :
    (evaluateText now (Call.write w.name inner) : Gen σ Value) = (do
      Gen.note (Report.recordUse w.name)
      let v ← evaluateText now inner
      pure (.text (w.wrap v.display))) := by
  cases w with
  | quoted =>
    rw [evaluateText_write now (f := .quoted) (by decide) (by decide)]
    exact invoke_of_lift now rfl _
  | upper =>
    rw [evaluateText_write now (f := .upper) (by decide) (by decide)]
    exact invoke_of_lift now rfl _
  | lower =>
    rw [evaluateText_write now (f := .lower) (by decide) (by decide)]
    exact invoke_of_lift now rfl _

theorem evaluateText_concat (now : Moment) (inner : Text) :
    (evaluateText now (Call.write "cat".toList inner) : Gen σ Value) = (do
      Gen.note (Report.recordUse "cat".toList)
      let t ← Function.parts (evaluateText now) (splitArguments inner)
      pure (.text t)) := by
  rw [evaluateText_write now (f := .concat) isName_cat (by decide)]
  exact invoke_of_lift now rfl _

end

/-! ## All levels -/

section

variable {σ : Type} [WordSource σ]

mutual

/-- One level of the text is one level of the expression, since the arguments are cut as they were
    written. -/
theorem evaluateText_eq_evaluate (now : Moment) : ∀ (e : Expression) {t : Text}, Written e t →
    (evaluateText now t : Gen σ Value) = e.evaluate now
  | .leaf l, _, .leaf _ => by simp only [Expression.evaluate]
  | .wrap w e, _, .wrap _ (.pad hb h ha) => by
    rw [evaluateText_wrapper, evaluateText_pad now hb ha, evaluateText_eq_evaluate now e h]
    simp only [Expression.evaluate]
  | .concat parts, _, .concat h => by
    rw [evaluateText_concat, parts_eq_evaluateParts now parts h.splitArguments]
    simp only [Expression.evaluate]

theorem parts_eq_evaluateParts (now : Moment) : ∀ (parts : List Expression) {ts : List Text},
    List.Forall₂ Written parts ts →
    (Function.parts (evaluateText now) ts : Gen σ Text) = Expression.evaluateParts now parts
  | [], _, .nil => by simp only [Function.parts, Expression.evaluateParts]
  | e :: rest, _, .cons h hrest => by
    simp only [Function.parts, Expression.evaluateParts, h.part_eq,
      evaluateText_eq_evaluate now e h, parts_eq_evaluateParts now rest hrest]
    cases e.word? <;> simp only [bind_assoc, pure_bind]

end

/-- **The text of an expression is evaluated to what the expression means.** The worker and what it
    shares are left as the parts leave them, from left to right, with one more use for each
    function. -/
theorem evaluateText_written (now : Moment) {e : Expression} {t : Text} (h : WrittenPart e t) :
    (evaluateText now t : Gen σ Value) = e.evaluate now := by
  obtain ⟨hb, h, ha⟩ := h
  rw [evaluateText_pad now hb ha]
  exact evaluateText_eq_evaluate now e h

end

/-- A word with an apostrophe, a blank and a quoted number. -/
def Expression.greeting : Expression :=
  .concat
    [.wrap .upper (.leaf ⟨"it's".toList, by decide, by decide, by decide⟩),
     .leaf ⟨"SPACE".toList, by decide, by decide, by decide⟩,
     .wrap .quoted (.leaf ⟨"seq(4)".toList, by decide, by decide, by decide⟩)]

theorem evaluateText_written_greeting :
    (evaluateText (.midnight .epoch) "cat( upper(it's), SPACE,qs(seq(4) ))".toList).Yields
      (⟨⟨[], 0⟩, 2, {}⟩ : Local Replay) .fresh (.text "IT'S \"4\"".toList)
      ⟨⟨[], 0⟩, 2, { usage := [("cat".toList, 1), ("qs".toList, 1), ("seq".toList, 1),
        ("upper".toList, 1)] }⟩ ⟨⟨5, true⟩, none⟩ := by
  have hone : Text.Blank [' '] := by decide
  have hupper : WrittenPart _ " upper(it's)".toList :=
    .pad hone (.wrap .upper (Written.leaf ⟨"it's".toList, by decide, by decide, by decide⟩).part)
      Text.blank_nil
  have hspace : WrittenPart _ " SPACE".toList :=
    .pad hone (.leaf ⟨"SPACE".toList, by decide, by decide, by decide⟩) Text.blank_nil
  have hquoted : Written _ "qs(seq(4) )".toList :=
    .wrap .quoted
      (.pad Text.blank_nil (.leaf ⟨"seq(4)".toList, by decide, by decide, by decide⟩) hone)
  have h : Written .greeting "cat( upper(it's), SPACE,qs(seq(4) ))".toList :=
    .concat (.cons hupper (.cons hspace (.one hquoted.part)))
  rw [evaluateText_written (.midnight .epoch) h.part]
  rfl

end Recordsmith
