import Recordsmith.Proofs.Digits
import Recordsmith.Proofs.Replacements

/-!
# Offsets from now

An offset is a sign and a number that may have a sign and quotes of its own.

* `Text.Offset` says which texts tell which offset, as an integer of any size;
* `readNowOffset_of_offset`: an offset is read if a 64-bit word has it, and overflows otherwise;
* `readNowOffset_refused`: a text that starts like an offset and tells none is refused;
* `readNowOffset_exactly`: hence each offset is read as it is, save one that no word has.
-/

namespace Recordsmith

open Text (Blank stripQuotes trim)

variable {function text s rest : Text} {v n : Int}

/-! ## Texts that tell an offset -/

namespace Text

theorem stripQuotes_trim (t : Text) : stripQuotes (trim t) = stripQuotes t := by
  simp only [stripQuotes, trim_trim]

/-- The word that offsets start with. -/
def now : Text := "now".toList

/-- The text tells the offset: nothing behind `now`, or a sign and a 64-bit literal, which may be
    quoted. The sign applies to the value of the literal. -/
inductive Offset : Text → Int → Prop
  | present {rest : Text} : Blank rest → Offset (now ++ rest) 0
  | later {rest digits : Text} {v : Int} : trim rest = '+' :: digits →
      Decimal (stripQuotes digits) v → IntegerRange.int64.Has v → Offset (now ++ rest) v
  | earlier {rest digits : Text} {v : Int} : trim rest = '-' :: digits →
      Decimal (stripQuotes digits) v → IntegerRange.int64.Has v → Offset (now ++ rest) (-v)

/-- An offset fits a word, unless it is the negative of the least value. -/
theorem Offset.has_or (h : Offset s v) :
    IntegerRange.int64.Has v ∨ v = -IntegerRange.int64.min := by
  cases h with
  | present => exact Or.inl (by decide)
  | later _ _ hv => exact Or.inl hv
  | earlier _ _ hv =>
    simp only [IntegerRange.Has, IntegerRange.int64] at hv ⊢
    omega

end Text

/-! ## Reading -/

theorem readIntegerArgument_eq_ok_iff : readIntegerArgument .int64 function text = .ok v ↔
    Text.Decimal (stripQuotes text) v ∧ IntegerRange.int64.Has v := by
  rw [← readInteger_eq_ok_iff (by decide) (by decide)]
  constructor
  · intro h
    exact mapError_eq_ok (mapError_eq_ok h)
  · intro h
    simp only [readIntegerArgument, readNumber, h]
    rfl

theorem readIntegerArgument_error {range : IntegerRange} {e : Failure}
    (h : readIntegerArgument range function text = .error e) :
    ∃ fault, e = .argument function fault := by
  obtain ⟨fault, hfault⟩ := mapError_eq_error h
  exact ⟨_, hfault.symm⟩

/-- A sign is applied to a number, if a word has the outcome. -/
theorem readSigned_of_decimal {sign : Int} (hv : Text.Decimal (stripQuotes text) v)
    (hhas : IntegerRange.int64.Has v) : readSigned sign function text =
      if IntegerRange.int64.Has (sign * v) then .ok (some (sign * v)) else .error .overflow := by
  rw [← Text.stripQuotes_trim] at hv
  have hread : readIntegerArgument .int64 function (trim text) = .ok v :=
    readIntegerArgument_eq_ok_iff.2 ⟨hv, hhas⟩
  unfold readSigned
  rw [hread]
  by_cases hword : IntegerRange.int64.Has (sign * v)
  · have hchecked : IntegerRange.int64.checked (sign * v) = some (sign * v) := if_pos hword
    rw [if_pos hword]
    simp only [Except.mapError, bind, Except.bind, hchecked]
  · have hchecked : IntegerRange.int64.checked (sign * v) = none := if_neg hword
    rw [if_neg hword]
    simp only [Except.mapError, bind, Except.bind, hchecked]

/-- What is no number is refused behind a sign. -/
theorem readSigned_refused {sign : Int}
    (h : ∀ v, Text.Decimal (stripQuotes text) v → ¬ IntegerRange.int64.Has v) :
    ∃ fault, readSigned sign function text = .error (.refused (.argument function fault)) := by
  cases hread : readIntegerArgument .int64 function (trim text) with
  | error e =>
    obtain ⟨fault, rfl⟩ := readIntegerArgument_error hread
    refine ⟨fault, ?_⟩
    unfold readSigned
    rw [hread]
    rfl
  | ok v =>
    obtain ⟨hv, hhas⟩ := readIntegerArgument_eq_ok_iff.1 hread
    rw [Text.stripQuotes_trim] at hv
    exact absurd hhas (h v hv)

theorem readNowOffset_of_now (hs : stripQuotes text = Text.now ++ rest) :
    readNowOffset function text = match trim rest with
      | [] => .ok (some 0)
      | '-' :: digits => readSigned (-1) function digits
      | '+' :: digits => readSigned 1 function digits
      | _ => .error (.refused (.argument function (.invalidOffset (stripQuotes text)))) := by
  have hdrop : Text.dropWord? "now".toList (stripQuotes text) = some rest :=
    Text.dropWord?_eq_some_iff.2 hs
  unfold readNowOffset
  dsimp only
  -- the word is there to drop, so only the second case remains
  split
  · rename_i hnone
    cases hdrop.symm.trans hnone
  · rename_i hsome
    cases hdrop.symm.trans hsome
    rfl

/-- A text that does not start like an offset is none. -/
theorem readNowOffset_of_not_now (h : ¬ Text.now <+: stripQuotes text) :
    readNowOffset function text = .ok none := by
  have hdrop : Text.dropWord? "now".toList (stripQuotes text) = none := by
    rw [Option.eq_none_iff_forall_ne_some]
    intro rest hrest
    exact h ⟨rest, (Text.dropWord?_eq_some_iff.1 hrest).symm⟩
  simp only [readNowOffset, hdrop]

/-- **An offset is read**, if a word has it. -/
theorem readNowOffset_of_offset (h : Text.Offset (stripQuotes text) v) :
    readNowOffset function text =
      if IntegerRange.int64.Has v then .ok (some v) else .error .overflow := by
  generalize hs : stripQuotes text = s at h
  cases h with
  | present hrest =>
    rw [readNowOffset_of_now hs, Text.trim_eq_nil_iff.2 hrest]
    rfl
  | later hsign hv hhas =>
    rw [readNowOffset_of_now hs, hsign]
    exact Int.one_mul v ▸ readSigned_of_decimal hv hhas
  | @earlier _ _ v hsign hv hhas =>
    rw [readNowOffset_of_now hs, hsign]
    exact Int.neg_one_mul v ▸ readSigned_of_decimal hv hhas

/-- **Nothing but offsets is read**: any other text that starts like one is refused on behalf of the
    function. -/
theorem readNowOffset_refused (hstart : Text.now <+: stripQuotes text)
    (hno : ∀ v, ¬ Text.Offset (stripQuotes text) v) :
    ∃ fault, readNowOffset function text = .error (.refused (.argument function fault)) := by
  obtain ⟨rest, hs⟩ := hstart
  rw [← hs] at hno
  rw [readNowOffset_of_now hs.symm]
  split
  · rename_i hblank
    exact absurd (.present (Text.trim_eq_nil_iff.1 hblank)) (hno 0)
  · rename_i hsign
    exact readSigned_refused fun v hv hhas => hno (-v) (.earlier hsign hv hhas)
  · rename_i hsign
    exact readSigned_refused fun v hv hhas => hno v (.later hsign hv hhas)
  · exact ⟨_, rfl⟩

/-- **What becomes of a text** that is no offset, an offset that a word has, the one offset that no
    word has, or none of them. -/
theorem readNowOffset_cases (function text : Text) :
    (¬ Text.now <+: stripQuotes text ∧ readNowOffset function text = .ok none) ∨
    (∃ v, Text.Offset (stripQuotes text) v ∧ IntegerRange.int64.Has v ∧
      readNowOffset function text = .ok (some v)) ∨
    (Text.Offset (stripQuotes text) (-IntegerRange.int64.min) ∧
      readNowOffset function text = .error .overflow) ∨
    (Text.now <+: stripQuotes text ∧ (∀ v, ¬ Text.Offset (stripQuotes text) v) ∧
      ∃ fault, readNowOffset function text = .error (.refused (.argument function fault))) := by
  by_cases hstart : Text.now <+: stripQuotes text
  · by_cases hoffset : ∃ v, Text.Offset (stripQuotes text) v
    · obtain ⟨v, hv⟩ := hoffset
      have hread : readNowOffset function text =
          if IntegerRange.int64.Has v then .ok (some v) else .error .overflow :=
        readNowOffset_of_offset hv
      rcases hv.has_or with hhas | rfl
      · rw [if_pos hhas] at hread
        exact Or.inr (Or.inl ⟨v, hv, hhas, hread⟩)
      · rw [if_neg (by decide)] at hread
        exact Or.inr (Or.inr (Or.inl ⟨hv, hread⟩))
    · have hno := not_exists.1 hoffset
      exact Or.inr (Or.inr (Or.inr ⟨hstart, hno, readNowOffset_refused hstart hno⟩))
  · exact Or.inl ⟨hstart, readNowOffset_of_not_now hstart⟩

theorem readNowOffset_eq_none_iff :
    readNowOffset function text = .ok none ↔ ¬ Text.now <+: stripQuotes text := by
  refine ⟨fun h => ?_, readNowOffset_of_not_now⟩
  rcases readNowOffset_cases function text with
    ⟨hno, -⟩ | ⟨v, -, -, hr⟩ | ⟨-, hr⟩ | ⟨-, -, fault, hr⟩
  · exact hno
  all_goals cases hr.symm.trans h

theorem readNowOffset_eq_some_iff : readNowOffset function text = .ok (some n) ↔
    Text.Offset (stripQuotes text) n ∧ IntegerRange.int64.Has n := by
  constructor
  · intro h
    rcases readNowOffset_cases function text with
      ⟨-, hr⟩ | ⟨v, hv, hhas, hr⟩ | ⟨-, hr⟩ | ⟨-, -, fault, hr⟩ <;> cases hr.symm.trans h
    exact ⟨hv, hhas⟩
  · rintro ⟨h, hhas⟩
    rw [readNowOffset_of_offset h, if_pos hhas]

theorem readNowOffset_eq_overflow_iff : readNowOffset function text = .error .overflow ↔
    Text.Offset (stripQuotes text) (-IntegerRange.int64.min) := by
  constructor
  · intro h
    rcases readNowOffset_cases function text with
      ⟨-, hr⟩ | ⟨v, -, -, hr⟩ | ⟨hv, -⟩ | ⟨-, -, fault, hr⟩
    · cases hr.symm.trans h
    · cases hr.symm.trans h
    · exact hv
    · cases hr.symm.trans h
  · intro h
    rw [readNowOffset_of_offset h, if_neg (by decide)]

theorem readNowOffset_eq_refused_iff :
    (∃ fault, readNowOffset function text = .error (.refused (.argument function fault))) ↔
      Text.now <+: stripQuotes text ∧ ∀ v, ¬ Text.Offset (stripQuotes text) v := by
  refine ⟨fun ⟨fault, h⟩ => ?_, fun ⟨hstart, hno⟩ => readNowOffset_refused hstart hno⟩
  rcases readNowOffset_cases function text with
    ⟨-, hr⟩ | ⟨v, -, -, hr⟩ | ⟨-, hr⟩ | ⟨hstart, hno, -⟩
  · cases hr.symm.trans h
  · cases hr.symm.trans h
  · cases hr.symm.trans h
  · exact ⟨hstart, hno⟩

/-- **Offsets are exact or refused, but for one.** A text that does not start with `now` is none. A
    text that tells an offset is read as just that integer, if a 64-bit word has it. A text that
    starts with `now` and tells no offset is refused on behalf of the function. What is left is the
    negative of the least value, which no word has: it is not refused, but overflows. -/
theorem readNowOffset_exactly (function text : Text) :
    (readNowOffset function text = .ok none ↔ ¬ Text.now <+: stripQuotes text) ∧
    (∀ n, readNowOffset function text = .ok (some n) ↔
      Text.Offset (stripQuotes text) n ∧ IntegerRange.int64.Has n) ∧
    ((∃ fault, readNowOffset function text = .error (.refused (.argument function fault))) ↔
      Text.now <+: stripQuotes text ∧ ∀ v, ¬ Text.Offset (stripQuotes text) v) ∧
    (readNowOffset function text = .error .overflow ↔
      Text.Offset (stripQuotes text) (-IntegerRange.int64.min)) :=
  ⟨readNowOffset_eq_none_iff, fun _ => readNowOffset_eq_some_iff, readNowOffset_eq_refused_iff,
    readNowOffset_eq_overflow_iff⟩

/-- An offset that no word has, two to the 63rd, is not refused. -/
theorem readNowOffset_exactly_overflows :
    Text.Offset (stripQuotes "now--9223372036854775808".toList) 9223372036854775808 ∧
    ¬ IntegerRange.int64.Has 9223372036854775808 ∧
    readNowOffset "datetime".toList "now--9223372036854775808".toList =
      .error .overflow := by
  have hvalue : Nat.ofDigitChars 10 "9223372036854775808".toList 0 = 9223372036854775808 := by cbv
  have hall : "9223372036854775808".toList.all Char.isDigit = true := by cbv
  have hdigits : Text.Decimal ('-' :: "9223372036854775808".toList) (-9223372036854775808) := by
    have h := @Text.Decimal.minus "9223372036854775808".toList (by decide)
      (List.all_eq_true.1 hall)
    rwa [hvalue] at h
  have hquotes : stripQuotes ('-' :: "9223372036854775808".toList) =
      '-' :: "9223372036854775808".toList := by cbv
  have hsign : trim "--9223372036854775808".toList = '-' :: '-' :: "9223372036854775808".toList := by
    cbv
  have hstrip : stripQuotes "now--9223372036854775808".toList =
      Text.now ++ "--9223372036854775808".toList := by cbv
  have hoffset : Text.Offset (stripQuotes "now--9223372036854775808".toList)
      9223372036854775808 := by
    rw [hstrip]
    exact .earlier hsign (hquotes.symm ▸ hdigits) (by decide)
  have hhas : ¬ IntegerRange.int64.Has 9223372036854775808 := by decide
  exact ⟨hoffset, hhas, by rw [readNowOffset_of_offset hoffset, if_neg hhas]⟩

end Recordsmith
