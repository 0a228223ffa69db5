import Recordsmith.Proofs.Scanning
import Recordsmith.Proofs.Unfolding

/-!
# Texts that are read as calls

A call is found by the first opening and the last closing bracket of a text.

* `Text.beforeLast_eq_some_iff`, `Text.afterLast_eq`: a text is cut at the last occurrence of a
  character;
* `Call.nameOf_within_quotes`, `Call.exists_quotes_nameOf`: a name is what quotes leave of the text
  before the bracket;
* `Call.Spells` says which texts spell a call, with a given tail behind the last closing bracket;
* `Call.exists_spells_of_parse?`, `Call.Spells.parse?`: these texts are read as the call, whatever
  the tail is, and no others;
* `Call.read_exactly`: what that means for tails of quotes, for other tails, and for prose.
-/

namespace Recordsmith

variable {σ : Type} [WordSource σ]

/-! ## The last occurrence of a character -/

namespace Text

variable {c : Char} {t u tail : Text}

/-- What stands behind the last occurrence of `c`; the whole text if there is none. -/
def afterLast (c : Char) (t : Text) : Text := (t.reverse.takeWhile (· != c)).reverse

theorem bne_of_notMem (h : c ∉ t) : ∀ d ∈ t, (d != c) = true := by
  intro d hd
  rw [bne_iff_ne]
  rintro rfl
  exact h hd

/-- **What stands before the last occurrence** is cut off by a tail without the character. -/
theorem beforeLast_eq_some_iff :
    beforeLast c t = some u ↔ ∃ tail, t = u ++ c :: tail ∧ c ∉ tail := by
  unfold beforeLast
  constructor
  · intro h
    split at h
    · cases h
    · rename_i d kept hkept
      obtain rfl := Option.some.inj h
      have hd : d = c := by
        have := List.head?_dropWhile_not (· != c) t.reverse
        simpa [hkept] using this
      refine ⟨(t.reverse.takeWhile (· != c)).reverse, ?_, ?_⟩
      · have happ := List.takeWhile_append_dropWhile (p := (· != c)) (l := t.reverse)
        rw [hkept, hd] at happ
        simpa using (congrArg List.reverse happ).symm
      · intro hc
        have := List.mem_takeWhile_imp (List.mem_reverse.1 hc)
        simp at this
  · rintro ⟨tail, rfl, htail⟩
    have hrev := bne_of_notMem fun hc => htail (List.mem_reverse.1 hc)
    rw [List.reverse_append, List.reverse_cons, List.append_assoc,
      List.dropWhile_append_of_pos hrev]
    simp

theorem afterLast_eq (h : c ∉ tail) : afterLast c (u ++ c :: tail) = tail := by
  have hrev := bne_of_notMem fun hc => h (List.mem_reverse.1 hc)
  unfold afterLast
  rw [List.reverse_append, List.reverse_cons, List.append_assoc, List.takeWhile_append_of_pos hrev]
  simp

end Text

namespace Call

/-! ## Names within quotes -/

variable {c : Call} {name left right t tail : Text}

/-- Nothing but quote characters. -/
def Quotes (t : Text) : Prop := ∀ c ∈ t, isQuote c = true

instance (t : Text) : Decidable (Quotes t) := List.decidableBAll _ t

theorem Quotes.notMem {d : Char} (h : Quotes t) (hd : isQuote d = false) : d ∉ t := by
  intro hc
  rw [h d hc] at hd
  cases hd

/-- Quotes around a name are no part of it. -/
theorem nameOf_within_quotes (hl : Quotes left) (hr : Quotes right) (hn : isName name = true) :
    nameOf (left ++ name ++ right) = name := by
  cases name with
  | nil => cases hn
  | cons d rest =>
    have hd := isQuote_of_mem_name hn List.mem_cons_self
    have hrest : ∀ e ∈ (d :: rest).reverse, isQuote e = false := fun e he =>
      isQuote_of_mem_name hn (List.mem_reverse.1 he)
    unfold nameOf Text.dropEndWhile
    rw [List.append_assoc, List.dropWhile_append_of_pos hl, List.cons_append,
      List.dropWhile_cons_of_neg (by simp [hd]), ← List.cons_append, List.reverse_append,
      List.dropWhile_append_of_pos fun e he => hr e (List.mem_reverse.1 he),
      Text.dropWhile_of_none hrest, List.reverse_reverse]

/-- Only quotes are lost around a name. -/
theorem exists_quotes_nameOf (t : Text) :
    ∃ left right, Quotes left ∧ Quotes right ∧ t = left ++ nameOf t ++ right :=
  Text.exists_dropped isQuote t

/-! ## Spellings -/

/-- The trimmed text is the call, with quotes directly around its name, and with `tail` behind its
    last closing bracket. -/
structure Spells (c : Call) (tail t : Text) : Prop where
  trimmed : ∃ left right, Quotes left ∧ Quotes right ∧
    Text.trim t = left ++ c.name ++ right ++ '(' :: (c.inner ++ ')' :: tail)
  name : isName c.name = true
  arguments : c.arguments = splitArguments c.inner
  last : ')' ∉ tail

/-- The tail is what stands behind the last closing bracket. -/
theorem Spells.tail_eq (h : c.Spells tail t) : tail = Text.afterLast ')' (Text.trim t) := by
  obtain ⟨left, right, -, -, ht⟩ := h.trimmed
  rw [ht, ← List.cons_append, ← List.append_assoc, Text.afterLast_eq h.last]

/-- **Only what is spelled is read.** -/
theorem exists_spells_of_parse? (h : parse? t = some c) : ∃ tail, c.Spells tail t := by
  unfold parse? at h
  rw [List.span_eq_takeWhile_dropWhile] at h
  dsimp only at h
  split at h
  · cases h
  · rename_i b rest hrest
    obtain ⟨inner, hinner, h⟩ := Option.bind_eq_some_iff.1 h
    split at h
    case isFalse => cases h
    rename_i hname
    obtain rfl := Option.some.inj h
    have hb : b = '(' := by
      have := List.head?_dropWhile_not (· != '(') (Text.trim t)
      simpa [hrest] using this
    obtain ⟨tail, hcut, hlast⟩ := Text.beforeLast_eq_some_iff.1 hinner
    obtain ⟨left, right, hl, hr, hbefore⟩ :=
      exists_quotes_nameOf ((Text.trim t).takeWhile (· != '('))
    refine ⟨tail, ⟨left, right, hl, hr, ?_⟩, hname, rfl, hlast⟩
    have happ := List.takeWhile_append_dropWhile (p := (· != '(')) (l := Text.trim t)
    rw [hrest, hcut, hbefore, hb] at happ
    exact happ.symm

/-- **What is spelled is read**, whatever stands behind its last bracket. -/
theorem Spells.parse? (h : c.Spells tail t) : Call.parse? t = some c := by
  obtain ⟨name, inner, arguments⟩ := c
  obtain ⟨⟨left, right, hl, hr, ht⟩, hname, hargs, hlast⟩ := h
  dsimp only at ht hname hargs
  subst hargs
  -- neither a name nor quotes hold a bracket, so the first one stands behind them
  have hopen : '(' ∉ left ++ name ++ right := by
    simp only [List.mem_append, not_or]
    refine ⟨⟨hl.notMem (by decide), fun hc => ?_⟩, hr.notMem (by decide)⟩
    exact absurd (isNameChar_of_mem hname hc) (by decide)
  have hinner : Text.beforeLast ')' (inner ++ ')' :: tail) = some inner :=
    Text.beforeLast_eq_some_iff.2 ⟨tail, rfl, hlast⟩
  unfold Call.parse?
  rw [List.span_eq_takeWhile_dropWhile, ht,
    List.takeWhile_append_of_pos (Text.bne_of_notMem hopen),
    List.dropWhile_append_of_pos (Text.bne_of_notMem hopen),
    List.takeWhile_cons_of_neg (by simp), List.dropWhile_cons_of_neg (by simp), List.append_nil]
  simp only [hinner, nameOf_within_quotes hl hr hname, hname, Option.bind_eq_bind,
    Option.bind_some, if_true]

theorem parse?_eq_some_iff : parse? t = some c ↔ ∃ tail, c.Spells tail t :=
  ⟨exists_spells_of_parse?, fun ⟨_, h⟩ => h.parse?⟩

/-- A text with an opening bracket that spells no call of a function stands for itself. -/
theorem evaluateText_of_not_spelled {now : Moment} (ht : '(' ∈ t)
    (h : ∀ c tail, Spells c tail t → Function.named? c.name = none) :
    (evaluateText now t : Gen σ Value) = pure (literalValue t) := by
  have hnone : dispatch? t = none := by
    rw [dispatch?, if_pos (by simpa using ht), Option.bind_eq_none_iff]
    intro c hc
    obtain ⟨tail, hc⟩ := parse?_eq_some_iff.1 hc
    rw [h c tail hc, Option.map_none]
  rw [evaluateText_eq, evaluateStep_eq, hnone]

/-- **What is read as a call.** A text is read as a call just if it spells the call with some tail
    behind the last closing bracket; it is the call and nothing else just if that tail is quotes. A
    text with an opening bracket that spells no call of a function is never evaluated as one. -/
theorem read_exactly (now : Moment) (t : Text) :
    (∀ c, parse? t = some c ↔ ∃ tail, Spells c tail t) ∧
    (∀ c, (∃ tail, Quotes tail ∧ Spells c tail t) ↔
      parse? t = some c ∧ Quotes (Text.afterLast ')' (Text.trim t))) ∧
    ('(' ∈ t → (∀ c tail, Spells c tail t → Function.named? c.name = none) →
      (evaluateText now t : Gen σ Value) = pure (literalValue t)) := by
  refine ⟨fun c => parse?_eq_some_iff, fun c => ⟨?_, ?_⟩, evaluateText_of_not_spelled⟩
  · rintro ⟨tail, hquotes, h⟩
    exact ⟨parse?_eq_some_iff.2 ⟨tail, h⟩, h.tail_eq ▸ hquotes⟩
  · rintro ⟨hread, hquotes⟩
    obtain ⟨tail, h⟩ := parse?_eq_some_iff.1 hread
    exact ⟨tail, h.tail_eq ▸ hquotes, h⟩

theorem read_exactly_aside :
    ('(' ∈ "seq (uence) of numbers".toList ∧
      ∀ c tail, Spells c tail "seq (uence) of numbers".toList → Function.named? c.name = none) ∧
    (evaluateText (.midnight .epoch) "seq (uence) of numbers".toList : Gen Replay Value) =
      pure (.text "seq (uence) of numbers".toList) := by
  have hopen : '(' ∈ "seq (uence) of numbers".toList := by decide
  have hnone : parse? "seq (uence) of numbers".toList = none := by cbv
  have hspells : ∀ c tail, Spells c tail "seq (uence) of numbers".toList →
      Function.named? c.name = none := by
    intro c tail h
    have hread := ((read_exactly (σ := Replay) (.midnight .epoch) _).1 c).2 ⟨tail, h⟩
    rw [hnone] at hread
    cases hread
  refine ⟨⟨hopen, hspells⟩, ?_⟩
  exact (read_exactly (.midnight .epoch) _).2.2 hopen hspells

/-- **Text behind the closing bracket is thrown away.** It is not quotes, and the text is carried out
    as the call all the same. -/
theorem read_exactly_tail :
    parse? "seq(5) is the number".toList = some ⟨"seq".toList, "5".toList, ["5".toList]⟩ ∧
    (¬ ∃ c tail, Quotes tail ∧ Spells c tail "seq(5) is the number".toList) ∧
    (evaluateText (.midnight .epoch) "seq(5) is the number".toList).Yields
      (⟨⟨[], 0⟩, 1, {}⟩ : Local Replay) .fresh (.long 5)
      ⟨⟨[], 0⟩, 1, { usage := [("seq".toList, 1)] }⟩
      { Shared.fresh with sequence := ⟨6, true⟩ } := by
  refine ⟨by cbv, ?_, ?_⟩
  · rintro ⟨c, tail, hquotes, h⟩
    rw [h.tail_eq] at hquotes
    exact absurd hquotes (by decide)
  · have hd : dispatch? "seq(5) is the number".toList =
        some (.sequence, ⟨"seq".toList, "5".toList, ["5".toList]⟩) := by cbv
    rw [evaluateText_of_dispatch? hd]
    rfl

end Call
end Recordsmith
