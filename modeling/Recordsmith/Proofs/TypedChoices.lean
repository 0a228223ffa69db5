import Recordsmith.Proofs.Arguments
import Recordsmith.Proofs.BoundedDraws
import Recordsmith.Proofs.Composition
import Recordsmith.Proofs.Digits

/-!
# Typed choices

A call of `random` has one list for choices of all types, and the type of each has to be found in
its text.

* `Choice` are integers, Booleans and quoted texts, whatever else the texts look like;
* `choiceValue_write`: a choice is read with its own type and content;
* `Choice.passes_write`: it stands as one argument between others;
* `evaluateText_choice`: a call gives one of its choices, and can give each.
-/

namespace Recordsmith

/-- A choice with a type. The text has no white space around it, and its quotes do not occur in
    it. -/
inductive Choice where
  | integer (n : Int) (min_le : IntegerRange.int64.min ≤ n) (le_max : n ≤ IntegerRange.int64.max)
  | boolean (b : Bool)
  | text (quote : Char) (t : Text) (isQuote : Call.isQuote quote = true)
      (trim_eq : Text.trim t = t) (not_mem : quote ∉ t)

namespace Choice

/-- The choice as it is written in a call. -/
def write : Choice → Text
  | integer n _ _ => Text.ofInt n
  | boolean true => "true".toList
  | boolean false => "false".toList
  | text quote t _ _ _ => quote :: (t ++ [quote])

/-- The value that the choice stands for. -/
def value : Choice → Value
  | integer n _ _ => .long n
  | boolean b => .bool b
  | text _ t _ _ _ => .text t

end Choice

/-! ## Reading a choice -/

namespace Text

theorem asciiLower_of_isDigit {c : Char} (h : c.isDigit = true) : asciiLower c = c := by
  refine if_neg fun hcapital => ?_
  have hle := Char.le_def.1 hcapital.1
  rw [UInt32.le_iff_toNat_le] at hle
  exact absurd (le_trans hle (toNat_of_isDigit h).2) (by decide)

/-- A number is no word, since neither digits nor signs are letters. -/
theorem eqIgnoringCase_ofInt (n : Int) {word : Text}
    (hword : word.all ('a' ≤ asciiLower ·) = true) : eqIgnoringCase (ofInt n) word = false := by
  refine beq_eq_false_iff_ne.2 fun heq => ?_
  obtain ⟨d, hd⟩ := List.exists_mem_of_ne_nil _ (ofInt_ne_nil n)
  have hlower : asciiLower d ∈ word.map asciiLower := heq ▸ List.mem_map_of_mem hd
  obtain ⟨c, hc, hcd⟩ := List.mem_map.1 hlower
  have hle := of_decide_eq_true (List.all_eq_true.1 hword c hc)
  rw [hcd] at hle
  rcases numeral_of_mem_ofInt hd with hdigit | rfl
  · rw [asciiLower_of_isDigit hdigit, Char.le_def, UInt32.le_iff_toNat_le] at hle
    exact absurd (le_trans hle (toNat_of_isDigit hdigit).2) (by decide)
  · exact absurd hle (by decide)

end Text

theorem choiceValue_ofInt {n : Int} (hmin : IntegerRange.int64.min ≤ n)
    (hmax : n ≤ IntegerRange.int64.max) : choiceValue (Text.ofInt n) = .long n := by
  have hpoint : (Text.ofInt n).contains '.' = false := by
    rw [List.contains_eq_mem, decide_eq_false_iff_not]
    intro hmem
    rcases Text.numeral_of_mem_ofInt hmem with h | h <;> exact absurd h (by decide)
  have htrue : Text.eqIgnoringCase (Text.ofInt n) "true".toList = false :=
    Text.eqIgnoringCase_ofInt n (by decide)
  have hfalse : Text.eqIgnoringCase (Text.ofInt n) "false".toList = false :=
    Text.eqIgnoringCase_ofInt n (by decide)
  have hsimple := Text.simple_ofInt n
  simp only [choiceValue, hsimple.trim_eq, hsimple.isQuoted_eq, htrue, hfalse, hpoint,
    readInteger_ofInt hmin hmax]
  rfl

/-- **A choice is read with its own type and content**, though a text may look like a number, a
    Boolean or a call. -/
theorem choiceValue_write (c : Choice) : choiceValue c.write = c.value := by
  cases c with
  | integer n hmin hmax => exact choiceValue_ofInt hmin hmax
  | boolean b => cases b <;> rfl
  | text q t hq htrim _ =>
    have h : Text.InQuotes q t (q :: (t ++ [q])) := ⟨hq, Text.trim_quoted hq t⟩
    have hquoted := Text.isQuoted_iff.2 ⟨q, t, h⟩
    have hstrip := h.stripQuotes_eq.trans htrim
    simp only [Choice.write, Choice.value, choiceValue, h.trim_eq, hquoted, if_true, literalValue,
      hstrip]

/-! ## Choices as arguments -/

namespace Choice

theorem trim_write (c : Choice) : Text.trim c.write = c.write := by
  cases c with
  | integer n _ _ => exact (Text.simple_ofInt n).trim_eq
  | boolean b => cases b <;> decide
  | text q t hq _ _ => exact Text.trim_quoted hq t

/-- **A choice stands as one argument**, with all commas and brackets that its text has. -/
theorem passes_write (c : Choice) : c.write.Passes 0 := by
  cases c with
  | integer n _ _ => exact Text.passes_of_plain (Text.simple_ofInt n).plain
  | boolean b => cases b <;> exact Text.passes_of_isClosed (by decide)
  | text q t hq _ hmem => exact Text.passes_quoted hq hmem

theorem write_ne_nil (c : Choice) : c.write ≠ [] := by
  cases c with
  | integer n _ _ => exact Text.ofInt_ne_nil n
  | boolean b => cases b <;> exact List.cons_ne_nil _ _
  | text q t _ _ _ => exact List.cons_ne_nil _ _

/-- The values of a list of arguments are those of the choices that it was written with. -/
theorem map_choiceValue {choices : List Choice} {t : Text}
    (h : WrittenArguments (choices.map write) t) :
    (splitArguments t).map choiceValue = choices.map value := by
  have hpasses : ∀ a ∈ choices.map write, a.Passes 0 :=
    List.forall_mem_map.2 fun c _ => c.passes_write
  have htrim : ∀ a ∈ choices.map write, Text.trim a = a :=
    List.forall_mem_map.2 fun c _ => c.trim_write
  -- an empty text has its quotes, so that the list is never read as one without arguments
  have hne : choices.map write ≠ [[]] := by
    intro hempty
    have hmem : [] ∈ choices.map write := hempty ▸ List.mem_cons_self
    obtain ⟨c, -, hc⟩ := List.mem_map.1 hmem
    exact c.write_ne_nil hc
  rw [h.splitArguments_eq hpasses htrim hne, List.map_map]
  exact List.map_congr_left fun c _ => choiceValue_write c

end Choice

/-! ## Calls of `random` -/

section

variable {σ : Type} [WordSource σ]

/-- A call of `random` draws a place of the list and does nothing else: it counts its use, and there
    is no fallback. -/
theorem evaluateText_random (now : Moment) {inner : Text} {v : Value} {l : Local σ} {s : Shared}
    (hv : (Draw.choose ((splitArguments inner).map choiceValue) l.source).1 = some v) :
    ∃ drawn, (evaluateText now (Call.write "random".toList inner)).Yields l s v
      { l with source := drawn, report := l.report.recordUse "random".toList } s := by
  have hname : Call.isName "random".toList = true := by decide
  have hnamed : Function.named? "random".toList = some .choice := by decide
  refine ⟨(Draw.choose ((splitArguments inner).map choiceValue) l.source).2, ?_⟩
  refine evaluateText_of_succeeds (dispatch?_write hname hnamed inner) ?_
  refine Attempt.succeeds_bind_iff.2 ⟨some v, _, _,
    Attempt.succeeds_lift_iff.2 (Gen.yields_draw_iff.2 ⟨hv.symm, rfl, rfl⟩), ?_⟩
  exact Gen.yields_pure_iff.2 ⟨rfl, rfl, rfl⟩

end

/-- **A random choice keeps its type.** Whatever the context, a call of `random` with one choice or
    more gives one of them, with its own type and content; it counts one use and no fallback, and
    leaves all else as it was. And as long as the choices can be numbered by words, there is for
    each place of the list a row of words that makes the choice there the result. -/
theorem evaluateText_choice {choices : List Choice} {t : Text} (hne : choices ≠ [])
    (h : WrittenArguments (choices.map Choice.write) t) :
    (∀ {σ : Type} [WordSource σ] (now : Moment) (l : Local σ) (s : Shared),
      ∃ c ∈ choices, ∃ drawn, (evaluateText now (Call.write "random".toList t)).Yields l s c.value
        { l with source := drawn, report := l.report.recordUse "random".toList } s) ∧
    (choices.length ≤ twoTo 64 → ∀ (index : Nat) (hindex : index < choices.length),
      ∃ r : Replay, ∀ (now : Moment) (nested : Nat) (report : Report) (s : Shared), ∃ drawn,
        (evaluateText now (Call.write "random".toList t)).Yields ⟨r, nested, report⟩ s
          choices[index].value ⟨drawn, nested, report.recordUse "random".toList⟩ s) := by
  have hvalues := Choice.map_choiceValue h
  refine ⟨fun {σ} _ now l s => ?_, fun hlength index hindex => ?_⟩
  · have hsome : choices.map Choice.value ≠ [] := by simpa using hne
    obtain ⟨v, hmem, hv⟩ := Draw.choose_mem hsome l.source
    obtain ⟨c, hc, rfl⟩ := List.mem_map.1 hmem
    rw [← hvalues] at hv
    exact ⟨c, hc, evaluateText_random now hv⟩
  · -- the words depend on the number of choices alone, so that equal choices make no difference
    obtain ⟨words, hwords⟩ := Draw.reaches_every_index hindex hlength
    have hdrawn := hwords (List.length_map Choice.value) [] []
    refine ⟨⟨[] ++ (words ++ []), 0⟩, fun now nested report s => ?_⟩
    refine evaluateText_random now (l := ⟨_, nested, report⟩) ?_
    rw [hvalues]
    refine (congrArg Prod.fst hdrawn).trans ?_
    rw [List.getElem?_map, List.getElem?_eq_getElem hindex, Option.map_some]

/-- A closing bracket, a quoted Boolean, the least number, a Boolean, an apostrophe, and no
    characters at all. -/
def Choice.mixed : List Choice :=
  [.text '\'' "a, b)".toList (by decide) (by decide) (by decide),
   .text '"' "true".toList (by decide) (by decide) (by decide),
   .integer (-9223372036854775808) (by decide) (by decide),
   .boolean true,
   .text '"' "5 o'clock".toList (by decide) (by decide) (by decide),
   .text '\'' [] (by decide) (by decide) (by decide)]

theorem evaluateText_choice_mixed :
    (Choice.mixed ≠ [] ∧ Choice.mixed.length ≤ twoTo 64 ∧
      WrittenArguments (Choice.mixed.map Choice.write)
        "'a, b)', \"true\" ,-9223372036854775808,true, \"5 o'clock\",''".toList) ∧
    ∃ r drawn : Replay, (evaluateText (.midnight .epoch)
      "random('a, b)', \"true\" ,-9223372036854775808,true, \"5 o'clock\",'')".toList).Yields
        ⟨r, 2, {}⟩ .fresh (.text "true".toList)
        ⟨drawn, 2, { usage := [("random".toList, 1)] }⟩ .fresh := by
  have hne : Choice.mixed ≠ [] := List.cons_ne_nil _ _
  have hlength : Choice.mixed.length ≤ twoTo 64 := by decide
  have hnone := Text.blank_nil
  have hspace : Text.Blank [' '] := by decide
  have h : WrittenArguments (Choice.mixed.map Choice.write)
      "'a, b)', \"true\" ,-9223372036854775808,true, \"5 o'clock\",''".toList :=
    .cons hnone hnone (.cons hspace hspace (.cons hnone hnone (.cons hnone hnone
      (.cons hspace hnone (.one hnone hnone)))))
  obtain ⟨r, hr⟩ := (evaluateText_choice hne h).2 hlength 1 (by decide)
  obtain ⟨drawn, hdrawn⟩ := hr (.midnight .epoch) 2 {} .fresh
  exact ⟨⟨hne, hlength, h⟩, r, drawn, hdrawn⟩

end Recordsmith
