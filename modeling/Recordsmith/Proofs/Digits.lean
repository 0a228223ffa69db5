import Mathlib.Tactic
import Recordsmith.Argument
import Recordsmith.Proofs.Outcomes
import Recordsmith.Proofs.QuoteLayers

/-!
# Digits

Numbers are written in decimal, and read back.

* `Text.ofNat_eq_cons`: a number is written without zeros before it;
* `Text.Simple`: as an argument of a call it is taken as it is, and has no quotes to strip;
* `readDigits_ofNat`: its digits are read as the number;
* `readInteger_ofInt`: an integer of a range is read as it is written;
* `Text.Decimal` are the decimal literals, and `readInteger_eq_ok_iff`: they are what is read, as long as
  the range has their value;
* `readIntegerArgument_ofNat`: a number that fits a word is read as an argument.
-/

namespace Recordsmith

namespace Text

theorem digit?_of_isDigit {c : Char} (h : c.isDigit = true) :
    digit? c = some (c.toNat - '0'.toNat) := by
  unfold digit?
  refine if_pos ?_
  simpa [Char.isDigit, Char.le_def] using h

theorem isDigit_of_digit? {c : Char} {d : Nat} (h : digit? c = some d) : c.isDigit = true := by
  unfold digit? at h
  split at h
  · simpa [Char.isDigit, Char.le_def] using ‹_ ∧ _›
  · cases h

theorem toNat_of_isDigit {c : Char} (h : c.isDigit = true) : 48 ≤ c.toNat ∧ c.toNat ≤ 57 := by
  simp only [Char.isDigit, Bool.and_eq_true, decide_eq_true_eq, ge_iff_le,
    UInt32.le_iff_toNat_le] at h
  exact h

/-- Only a zero counts nothing. -/
theorem digit?_of_ne_zero {c : Char} (h : c.isDigit = true) (hc : c ≠ '0') :
    ∃ d, digit? c = some (d + 1) := by
  have hbounds := toNat_of_isDigit h
  have hne : c.toNat ≠ 48 := fun heq => hc (Char.toNat_inj.1 heq)
  refine ⟨c.toNat - 49, ?_⟩
  rw [digit?_of_isDigit h]
  change some (c.toNat - 48) = _
  congr 1
  omega

theorem isDigit_of_mem_ofNat {n : Nat} {c : Char} (h : c ∈ ofNat n) : c.isDigit = true :=
  Nat.isDigit_of_mem_toDigits (by decide) (by decide) h

/-- **A number is written without zeros before it.** -/
theorem ofNat_eq_cons (n : Nat) :
    ∃ c cs, ofNat n = c :: cs ∧ (c = '0' → n = 0 ∧ cs = []) := by
  induction n using Nat.strong_induction_on with
  | _ n ih =>
    unfold ofNat
    rw [Nat.toDigits_eq_if (by decide)]
    split
    · rename_i hlt
      refine ⟨n.digitChar, [], rfl, fun h => ⟨?_, rfl⟩⟩
      exact Nat.digitChar_eq_zero.1 h
    · rename_i hge
      obtain ⟨c, cs, hcs, hzero⟩ := ih (n / 10) (Nat.div_lt_self (by omega) (by decide))
      refine ⟨c, cs ++ [(n % 10).digitChar], ?_, fun h => ?_⟩
      · rw [← List.cons_append, ← hcs]
        rfl
      · have := (hzero h).1
        omega

/-- Trimming leaves a text without white space as it is. -/
theorem trim_of_bare {t : Text} (h : ∀ c ∈ t, isBlank c = false) : trim t = t := by
  unfold trim trimEnd trimStart
  rw [dropWhile_of_none h, dropEndWhile_of_none h]

/-- A text that a scan of arguments passes over, without white space around it. -/
structure Simple (t : Text) : Prop where
  plain : ∀ c ∈ t, Scanner.Plain c
  trim_eq : trim t = t

/-- A simple text has no quotes at all. -/
theorem Simple.not_inQuotes {t : Text} (h : t.Simple) : ¬ ∃ q r, InQuotes q r t := by
  rintro ⟨q, r, hq, hr⟩
  rw [h.trim_eq] at hr
  have hplain : Scanner.Plain q := h.plain q (hr ▸ List.mem_cons_self)
  rcases eq_of_isQuote hq with rfl | rfl <;> exact absurd hplain (by decide)

/-- A simple text has no quotes to strip. -/
theorem Simple.stripQuotes_eq {t : Text} (h : t.Simple) : stripQuotes t = t :=
  (stripQuotes_of_not_inQuotes h.not_inQuotes).trans h.trim_eq

/-- A simple text is not quoted. -/
theorem Simple.isQuoted_eq {t : Text} (h : t.Simple) : isQuoted t = false := by
  rw [← Bool.not_eq_true, isQuoted_iff]
  exact h.not_inQuotes

theorem ofInt_ne_nil (n : Int) : ofInt n ≠ [] := by
  cases n with
  | ofNat n => exact Nat.toDigits_ne_nil
  | negSucc n => exact List.cons_ne_nil _ _

/-- An integer is written with digits, and a minus sign. -/
theorem numeral_of_mem_ofInt {n : Int} {c : Char} (h : c ∈ ofInt n) :
    c.isDigit = true ∨ c = '-' := by
  cases n with
  | ofNat n => exact Or.inl (isDigit_of_mem_ofNat h)
  | negSucc n => exact (List.mem_cons.1 h).symm.imp_left isDigit_of_mem_ofNat

theorem simple_ofInt (n : Int) : (ofInt n).Simple where
  plain c hc := by
    rcases numeral_of_mem_ofInt hc with h | rfl
    · exact Scanner.plain_of_none (by decide) h
    · decide
  trim_eq := trim_of_bare fun c hc => by
    rcases numeral_of_mem_ofInt hc with h | rfl
    · exact Call.isBlank_of_isNameChar (by simp [Call.isNameChar, Char.isAlphanum, h])
    · decide

theorem simple_ofNat (n : Nat) : (ofNat n).Simple := simple_ofInt n

theorem stripQuotes_ofNat (n : Nat) : stripQuotes (ofNat n) = ofNat n :=
  (simple_ofNat n).stripQuotes_eq

end Text

/-! ## Reading -/

theorem le_ofDigitChars (t : Text) (n : Nat) : n ≤ Nat.ofDigitChars 10 t n := by
  induction t generalizing n with
  | nil => exact le_rfl
  | cons c cs ih =>
    rw [Nat.ofDigitChars_cons]
    have := ih (10 * n + (c.toNat - '0'.toNat))
    omega

/-- Digits are read as their number, as long as it does not pass the limit. -/
theorem readDigits_eq {limit : Nat} {beyond : IntegerFault} {t : Text}
    (ht : ∀ c ∈ t, c.isDigit = true) {n : Nat} (h : Nat.ofDigitChars 10 t n ≤ limit) :
    readDigits limit beyond n t = .ok (Nat.ofDigitChars 10 t n) := by
  induction t generalizing n with
  | nil => rfl
  | cons c cs ih =>
    obtain ⟨hc, hcs⟩ := List.forall_mem_cons.1 ht
    rw [Nat.ofDigitChars_cons, Nat.mul_comm] at h ⊢
    have hle := (le_ofDigitChars cs (n * 10 + (c.toNat - '0'.toNat))).trans h
    simp only [readDigits, Text.digit?_of_isDigit hc, if_neg (not_lt.2 hle)]
    exact ih hcs h

/-- **Digits are read just if their number does not pass the limit.** -/
theorem readDigits_eq_ok_iff {limit : Nat} {beyond : IntegerFault} {t : Text} {n m : Nat}
    (hn : n ≤ limit) : readDigits limit beyond n t = .ok m ↔
      (∀ c ∈ t, c.isDigit = true) ∧ Nat.ofDigitChars 10 t n = m ∧ m ≤ limit := by
  constructor
  · intro h
    induction t generalizing n with
    | nil =>
      obtain rfl := Except.ok.inj h
      exact ⟨fun _ hc => absurd hc List.not_mem_nil, rfl, hn⟩
    | cons c cs ih =>
      simp only [readDigits] at h
      split at h
      · cases h
      · rename_i d hd
        split at h
        · cases h
        · obtain ⟨hcs, hm, hle⟩ := ih (not_lt.1 ‹_›) h
          have hc := Text.isDigit_of_digit? hd
          rw [Text.digit?_of_isDigit hc] at hd
          obtain rfl := Option.some.inj hd
          exact ⟨List.forall_mem_cons.2 ⟨hc, hcs⟩, by rw [Nat.ofDigitChars_cons, Nat.mul_comm, hm],
            hle⟩
  · rintro ⟨ht, rfl, hle⟩
    exact readDigits_eq ht hle

theorem map_readDigits_eq_ok_iff {limit : Nat} {beyond : IntegerFault} {t : Text} {f : Nat → Int}
    {v : Int} : (readDigits limit beyond 0 t).map f = .ok v ↔
      (∀ c ∈ t, c.isDigit = true) ∧ Nat.ofDigitChars 10 t 0 ≤ limit ∧
        f (Nat.ofDigitChars 10 t 0) = v := by
  constructor
  · intro h
    obtain ⟨m, hm, hv⟩ := map_eq_ok h
    obtain ⟨ht, rfl, hle⟩ := (readDigits_eq_ok_iff (Nat.zero_le limit)).1 hm
    exact ⟨ht, hle, hv⟩
  · rintro ⟨ht, hle, rfl⟩
    rw [readDigits_eq ht hle]
    rfl

theorem readDigits_ofNat {limit : Nat} {beyond : IntegerFault} {n : Nat} (h : n ≤ limit) :
    readDigits limit beyond 0 (Text.ofNat n) = .ok n := by
  have hvalue : Nat.ofDigitChars 10 (Text.ofNat n) 0 = n := Nat.ofDigitChars_ten_toDigits
  rw [readDigits_eq (fun c => Text.isDigit_of_mem_ofNat) (by rw [hvalue]; exact h), hvalue]

/-- A text that starts with a digit has no sign. -/
theorem readInteger_of_isDigit {range : IntegerRange} {c : Char} (hc : c.isDigit = true)
    (cs : Text) : readInteger range (c :: cs) =
      (readDigits range.max.toNat .tooLarge 0 (c :: cs)).map Int.ofNat := by
  have hplus : c ≠ '+' := by
    rintro rfl
    exact absurd hc (by decide)
  have hminus : c ≠ '-' := by
    rintro rfl
    exact absurd hc (by decide)
  simp only [readInteger, List.cons.injEq, hplus, hminus, false_and, imp_false,
    not_false_eq_true, implies_true]

/-- A number without a sign is read as its digits. -/
theorem readInteger_ofNat {range : IntegerRange} {n : Nat} (h : n ≤ range.max.toNat) :
    readInteger range (Text.ofNat n) = .ok n := by
  obtain ⟨c, cs, hcs, -⟩ := Text.ofNat_eq_cons n
  have hc : c.isDigit = true := Text.isDigit_of_mem_ofNat (hcs ▸ List.mem_cons_self)
  rw [hcs, readInteger_of_isDigit hc, ← hcs, readDigits_ofNat h]
  rfl

theorem readInteger_minus {range : IntegerRange} {n : Nat} (h : n ≤ range.min.natAbs)
    (hneg : range.min < 0) : readInteger range ('-' :: Text.ofNat n) = .ok (-n) := by
  obtain ⟨c, cs, hcs, -⟩ := Text.ofNat_eq_cons n
  have hdigits : readDigits range.min.natAbs .tooSmall 0 (c :: cs) = .ok n := by
    rw [← hcs]
    exact readDigits_ofNat h
  rw [hcs]
  simp only [readInteger, if_pos hneg, hdigits]
  rfl

/-- **An integer of a range is read as it is written.** -/
theorem readInteger_ofInt {range : IntegerRange} {n : Int} (hmin : range.min ≤ n)
    (hmax : n ≤ range.max) : readInteger range (Text.ofInt n) = .ok n := by
  cases n with
  | ofNat n => exact readInteger_ofNat (Int.toNat_le_toNat hmax)
  | negSucc n => exact readInteger_minus (by omega) (by omega)

/-- **A number that fits a word is read as an argument.** -/
theorem readIntegerArgument_ofNat {n : Nat} (h : n < 18446744073709551616) (function : Text) :
    readIntegerArgument .word64 function (Text.ofNat n) = .ok n := by
  have hfits : n ≤ IntegerRange.word64.max.toNat := Nat.le_of_lt_succ h
  simp only [readIntegerArgument, readNumber, Text.stripQuotes_ofNat, readInteger_ofNat hfits]
  rfl

/-! ## Literals -/

/-- A decimal literal and its value: digits, among them any zeros, behind an optional sign. -/
inductive Text.Decimal : Text → Int → Prop
  | plain {ds : Text} : ds ≠ [] → (∀ c ∈ ds, c.isDigit = true) →
      Text.Decimal ds (Nat.ofDigitChars 10 ds 0)
  | plus {ds : Text} : ds ≠ [] → (∀ c ∈ ds, c.isDigit = true) →
      Text.Decimal ('+' :: ds) (Nat.ofDigitChars 10 ds 0)
  | minus {ds : Text} : ds ≠ [] → (∀ c ∈ ds, c.isDigit = true) →
      Text.Decimal ('-' :: ds) (-(Nat.ofDigitChars 10 ds 0 : Int))

/-- The range has the value. -/
def IntegerRange.Has (range : IntegerRange) (n : Int) : Prop := range.min ≤ n ∧ n ≤ range.max

instance (range : IntegerRange) (n : Int) : Decidable (range.Has n) :=
  inferInstanceAs (Decidable (_ ∧ _))

/-- **What is read as an integer** of a range with negative values is a literal whose value the range
    has. -/
theorem readInteger_eq_ok_iff {range : IntegerRange} (hmin : range.min < 0) (hmax : 0 ≤ range.max)
    {t : Text} {v : Int} : readInteger range t = .ok v ↔ Text.Decimal t v ∧ range.Has v := by
  unfold IntegerRange.Has
  constructor
  · intro h
    unfold readInteger at h
    split at h
    case h_1 | h_2 | h_3 => cases h
    case h_4 ds hne =>
      obtain ⟨hds, hle, rfl⟩ := map_readDigits_eq_ok_iff.1 h
      exact ⟨.plus hne hds, by rw [Int.ofNat_eq_natCast]; omega⟩
    case h_5 ds hne =>
      rw [if_pos hmin] at h
      obtain ⟨hds, hle, rfl⟩ := map_readDigits_eq_ok_iff.1 h
      exact ⟨.minus hne hds, by rw [Int.ofNat_eq_natCast]; omega⟩
    case h_6 hne _ _ _ _ =>
      obtain ⟨hds, hle, rfl⟩ := map_readDigits_eq_ok_iff.1 h
      exact ⟨.plain hne hds, by rw [Int.ofNat_eq_natCast]; omega⟩
  · rintro ⟨h, hv⟩
    cases h with
    | @plus ds hne hds =>
      rw [readInteger.eq_4 range ds hne]
      exact map_readDigits_eq_ok_iff.2 ⟨hds, by omega, rfl⟩
    | @minus ds hne hds =>
      rw [readInteger.eq_5 range ds hne, if_pos hmin]
      exact map_readDigits_eq_ok_iff.2 ⟨hds, by omega, rfl⟩
    | plain hne hds =>
      obtain ⟨c, cs, rfl⟩ := List.exists_cons_of_ne_nil hne
      rw [readInteger_of_isDigit (hds c List.mem_cons_self)]
      exact map_readDigits_eq_ok_iff.2 ⟨hds, by omega, rfl⟩

end Recordsmith
