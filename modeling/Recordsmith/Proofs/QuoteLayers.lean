import Recordsmith.Proofs.Scanning

/-!
# Layers of quotes

Whether a text has a layer of quotes is found by looking at its ends, and the layer is removed by
trying one kind of quote after the other.

* `Text.InQuotes q r t`: trimmed, the text is `r` between two quotes `q`;
* `Text.inside?_eq_some_iff`, `Text.ends_iff`: what either way of looking finds;
* `Text.isQuoted_iff`: a text has a layer of quotes just if it is quoted;
* `Text.InQuotes.stripQuotes_eq`, `Text.stripQuotes_of_not_inQuotes`: one layer is removed, and
  nothing else;
* `Text.quotes_agree`: so both agree on every text.
-/

namespace Recordsmith.Text

variable {q : Char} {r t : Text}

/-- Trimmed, the text is `r` between two quotes `q`. -/
structure InQuotes (q : Char) (r t : Text) : Prop where
  isQuote : Call.isQuote q = true
  trim_eq : trim t = q :: (r ++ [q])

/-! ## The ends of a text -/

theorem inside?_eq_some_iff : inside? q t = some r ↔ t = q :: (r ++ [q]) := by
  cases t with
  | nil => simp [inside?]
  | cons c cs =>
    constructor
    · intro h
      rw [inside?] at h
      split_ifs at h with hends
      rw [hends.1, ← Option.some.inj h, List.dropLast_append_getLast? q hends.2]
    · intro h
      obtain ⟨rfl, rfl⟩ := List.cons.inj h
      simp [inside?]

/-- A lone character stands at both ends of its text, but there is nothing between. -/
theorem ends_iff :
    2 ≤ t.length ∧ t.head? = some q ∧ t.getLast? = some q ↔ ∃ r, t = q :: (r ++ [q]) := by
  constructor
  · rintro ⟨hlength, hhead, hlast⟩
    obtain ⟨cs, rfl⟩ := List.head?_eq_some_iff.1 hhead
    have hne : cs ≠ [] := by
      rintro rfl
      simp at hlength
    rw [List.getLast?_cons_of_ne_nil hne] at hlast
    exact ⟨cs.dropLast, by rw [List.dropLast_append_getLast? q hlast]⟩
  · rintro ⟨r, rfl⟩
    exact ⟨by simp, rfl, List.getLast?_concat (l := q :: r)⟩

/-! ## Quoted texts -/

theorem trim_quoted (hq : Call.isQuote q = true) (t : Text) :
    trim (q :: (t ++ [q])) = q :: (t ++ [q]) := by
  rcases eq_of_isQuote hq with rfl | rfl <;> exact trim_eq_self (by decide) (by decide) t

/-- White space may stand around the quotes. -/
theorem InQuotes.pad {before after : Text} (hb : Blank before) (ha : Blank after)
    (hq : Call.isQuote q = true) (t : Text) : InQuotes q t (before ++ q :: (t ++ [q]) ++ after) :=
  ⟨hq, by rw [trim_pad hb ha, trim_quoted hq]⟩

/-- **A text has a layer of quotes just if it is quoted.** -/
theorem isQuoted_iff : isQuoted t = true ↔ ∃ q r, InQuotes q r t := by
  have hends : isQuoted t = true ↔
      (∃ r, trim t = '"' :: (r ++ ['"'])) ∨ ∃ r, trim t = '\'' :: (r ++ ['\'']) := by
    rw [← ends_iff, ← ends_iff, ← and_or_left]
    simp [isQuoted]
  rw [hends]
  constructor
  · rintro (⟨r, hr⟩ | ⟨r, hr⟩)
    · exact ⟨'"', r, rfl, hr⟩
    · exact ⟨'\'', r, rfl, hr⟩
  · rintro ⟨q, r, hq, hr⟩
    rcases eq_of_isQuote hq with rfl | rfl
    · exact Or.inl ⟨r, hr⟩
    · exact Or.inr ⟨r, hr⟩

/-- **One layer of quotes is removed**, with all quotes inside it kept. -/
theorem InQuotes.stripQuotes_eq (h : InQuotes q r t) : stripQuotes t = trim r := by
  have hinside : inside? q (trim t) = some r := inside?_eq_some_iff.2 h.trim_eq
  rcases eq_of_isQuote h.isQuote with rfl | rfl
  · simp only [stripQuotes, hinside]
  · have hother : inside? '"' (trim t) = none := by
      rw [h.trim_eq]
      rfl
    simp only [stripQuotes, hother, hinside]

/-- A text without a layer of quotes is trimmed only. -/
theorem stripQuotes_of_not_inQuotes (h : ¬ ∃ q r, InQuotes q r t) : stripQuotes t = trim t := by
  have hnone : ∀ q, Call.isQuote q = true → inside? q (trim t) = none := by
    intro q hq
    rw [Option.eq_none_iff_forall_ne_some]
    exact fun r hr => h ⟨q, r, hq, inside?_eq_some_iff.1 hr⟩
  simp only [stripQuotes, hnone '"' rfl, hnone '\'' rfl]

theorem not_inQuotes_of_singleton {c : Char} (h : trim t = [c]) : ¬ ∃ q r, InQuotes q r t := by
  rintro ⟨q, r, -, hr⟩
  have hlength := congrArg List.length (h.symm.trans hr)
  simp at hlength

/-- **Looking for quotes and removing them agree.** A text has a layer of quotes just if, trimmed, it
    is some text between two equal quotes. Then that text is left, trimmed, with the quotes inside
    it. Without a layer the text itself is left, trimmed, and so is a lone quote. Hence a text in one
    pair of quotes, with any white space around them, is given back trimmed. -/
theorem quotes_agree (t : Text) :
    (isQuoted t = true ↔ ∃ q r, InQuotes q r t) ∧
    (∀ q r, InQuotes q r t → stripQuotes t = trim r) ∧
    ((¬ ∃ q r, InQuotes q r t) → stripQuotes t = trim t) ∧
    (∀ c, trim t = [c] → isQuoted t = false ∧ stripQuotes t = [c]) ∧
    ∀ q before after, Call.isQuote q = true → Blank before → Blank after →
      isQuoted (before ++ q :: (t ++ [q]) ++ after) = true ∧
        stripQuotes (before ++ q :: (t ++ [q]) ++ after) = trim t := by
  refine ⟨isQuoted_iff, fun q r => InQuotes.stripQuotes_eq, stripQuotes_of_not_inQuotes, ?_, ?_⟩
  · intro c hc
    have hnone := not_inQuotes_of_singleton hc
    exact ⟨by rw [← Bool.not_eq_true, isQuoted_iff]; exact hnone,
      (stripQuotes_of_not_inQuotes hnone).trans hc⟩
  · intro q before after hq hb ha
    have h := InQuotes.pad hb ha hq t
    exact ⟨isQuoted_iff.2 ⟨q, t, h⟩, h.stripQuotes_eq⟩

theorem quotes_agree_nested :
    (Call.isQuote '"' = true ∧ Blank ['\u3000', ' '] ∧ Blank ['\n']) ∧
    isQuoted "\u3000 \"'a\" \"\n".toList = true ∧
    stripQuotes "\u3000 \"'a\" \"\n".toList = "'a\"".toList :=
  ⟨⟨rfl, by decide, by decide⟩,
    (quotes_agree "'a\" ".toList).2.2.2.2 '"' ['\u3000', ' '] ['\n'] rfl (by decide) (by decide)⟩

end Recordsmith.Text
