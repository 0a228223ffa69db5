import Mathlib.Data.List.TakeWhile
import Recordsmith.Proofs.Reading

/-!
# How far numbers are read

A number has no closing sign: it is read up to the first character that cannot go on with it, and
that character is looked at but not taken.

* `Json.next?` is what such a reading sees of the next character: which one it is, if a number can be
  written with it;
* `Json.Takes read i i' a`: reading takes characters of numbers off the input, and does so in the same
  way wherever it sees the same behind them;
* `Json.Takes.bind` and its companions put such readings together;
* `Json.takes_of_number`: numbers are read so.
-/

namespace Recordsmith.Json

variable {α β : Type} {i i' i₁ : Input} {a : α} {b : β} {u rest : Text} {c : Char}

/-- A character that a number can be written with. -/
def isNumberChar (c : Char) : Bool := (Text.digit? c).isSome || c ∈ ['+', '-', '.', 'e', 'E']

/-- The character that comes next, if a number can be written with it. -/
def next? (t : Text) : Option Char := t.head?.filter isNumberChar

/-- Reading goes from one input to the other with this result. It takes characters of numbers, and
    has the same result wherever they stand before the same next one, or before none. -/
def Takes (read : Input → Except Fault (α × Input)) (i i' : Input) (a : α) : Prop :=
  ∃ u : Text, i.rest = u ++ i'.rest ∧ (∀ c ∈ u, isNumberChar c = true) ∧
    ∀ ⦃j : Input⦄ ⦃rest : Text⦄, j.rest = u ++ rest → next? rest = next? i'.rest →
      ∃ j', read j = .ok (a, j') ∧ j'.rest = rest

/-! ## The next character -/

theorem next?_cons (hc : isNumberChar c = true) (rest : Text) : next? (c :: rest) = some c := by
  rw [next?, List.head?_cons, Option.filter_some, if_pos hc]

theorem exists_rest_of_next? {t : Text} (h : next? t = some c) : ∃ rest, t = c :: rest := by
  obtain ⟨hhead, -⟩ := Option.filter_eq_some_iff.1 h
  exact ⟨t.tail, (List.cons_head?_tail hhead).symm⟩

theorem next?_append_congr {t v : Text} (u : Text) (h : next? t = next? v) :
    next? (u ++ t) = next? (u ++ v) := by
  cases u with
  | nil => exact h
  | cons c u => rfl

theorem isNumberChar_of_digit (h : (Text.digit? c).isSome = true) : isNumberChar c = true := by
  rw [isNumberChar, h, Bool.true_or]

theorem nextDigit?_eq (i : Input) : nextDigit? i = (next? i.rest).bind Text.digit? := by
  rw [nextDigit?, next?]
  cases i.rest.head? with
  | none => rfl
  | some c =>
    rw [Option.filter_some]
    split_ifs with hc
    · rfl
    · exact Option.not_isSome_iff_eq_none.1 fun h => hc (isNumberChar_of_digit h)

theorem nextDigit?_congr {j : Input} (h : next? j.rest = next? i.rest) :
    nextDigit? j = nextDigit? i := by
  rw [nextDigit?_eq, nextDigit?_eq, h]

/-! ## Putting readings together -/

namespace Takes

variable {read read' : Input → Except Fault (α × Input)}

/-- A reading that looks only at the next character. -/
theorem congr (h : Takes read' i i' a)
    (heq : ∀ j : Input, next? j.rest = next? i.rest → read j = read' j) : Takes read i i' a := by
  obtain ⟨u, hi, hu, hread⟩ := h
  refine ⟨u, hi, hu, fun j rest hj hnext => ?_⟩
  rw [heq j (by rw [hj, hi]; exact next?_append_congr u hnext)]
  exact hread hj hnext

theorem pure (a : α) (i : Input) : Takes (fun i => .ok (a, i)) i i a :=
  ⟨[], rfl, fun _ hc => absurd hc List.not_mem_nil, fun j _ hj _ => ⟨j, rfl, hj⟩⟩

theorem bind {f : Input → Except Fault (α × Input)} {g : α → Input → Except Fault (β × Input)}
    (hf : Takes f i i₁ a) (hg : Takes (g a) i₁ i' b) :
    Takes (fun i => f i >>= fun p => g p.1 p.2) i i' b := by
  obtain ⟨u, hi, hu, hf⟩ := hf
  obtain ⟨v, hi₁, hv, hg⟩ := hg
  refine ⟨u ++ v, by rw [hi, hi₁, List.append_assoc], List.forall_mem_append.2 ⟨hu, hv⟩, ?_⟩
  intro j rest hj hnext
  obtain ⟨j₁, hread, hj₁⟩ := hf (hj.trans (List.append_assoc ..))
    (by rw [hi₁]; exact next?_append_congr v hnext)
  obtain ⟨j', hread', hj'⟩ := hg hj₁ hnext
  refine ⟨j', ?_, hj'⟩
  dsimp only
  rw [hread, ok_bind, hread']

/-- One character is taken before the rest is read. -/
theorem cons (hi : i.rest = c :: rest) (hc : isNumberChar c = true)
    (h : Takes read' i.skip i' a)
    (heq : ∀ j : Input, j.rest.head? = some c → read j = read' j.skip) : Takes read i i' a := by
  obtain ⟨u, hskip, hu, hread⟩ := h
  have hrest : i.skip.rest = rest := rest_of_skip hi
  refine ⟨c :: u, by rw [hi, List.cons_append, ← hskip, hrest],
    List.forall_mem_cons.2 ⟨hc, hu⟩, fun j tail hj hnext => ?_⟩
  have hj' : j.skip.rest = u ++ tail := by simp only [Input.skip, hj, List.cons_append]
  rw [heq j (by rw [hj]; rfl)]
  exact hread hj' hnext

end Takes

/-! ## Digits -/

theorem takeWhile_digits (hu : ∀ c ∈ u, (Text.digit? c).isSome = true)
    (hrest : (next? rest).bind Text.digit? = none) :
    (u ++ rest).takeWhile (fun c => (Text.digit? c).isSome) = u := by
  rw [List.takeWhile_append_of_pos hu]
  cases rest with
  | nil => simp
  | cons c rest =>
    have hc : Text.digit? c = none := (nextDigit?_eq ⟨c :: rest, .start⟩).trans hrest
    simp [hc]

theorem exists_digits (t : Text) : ∃ u rest, t = u ++ rest ∧
    (∀ c ∈ u, (Text.digit? c).isSome = true) ∧ (next? rest).bind Text.digit? = none := by
  refine ⟨_, _, (List.takeWhile_append_dropWhile (p := fun c => (Text.digit? c).isSome)).symm,
    fun c hc => ?_, ?_⟩
  · exact List.mem_takeWhile_imp (p := fun c => (Text.digit? c).isSome) hc
  rw [← nextDigit?_eq ⟨t.dropWhile fun c => (Text.digit? c).isSome, .start⟩]
  have hnot := List.head?_dropWhile_not (fun c => (Text.digit? c).isSome) t
  unfold nextDigit?
  cases hhead : (t.dropWhile fun c => (Text.digit? c).isSome).head? with
  | none => rfl
  | some c => simpa [hhead] using hnot

theorem skipDigits_append (hi : i.rest = u ++ rest) (hu : ∀ c ∈ u, (Text.digit? c).isSome = true)
    (hrest : (next? rest).bind Text.digit? = none) :
    (skipDigits i).1 = u.length ∧ (skipDigits i).2.rest = rest := by
  have htake := takeWhile_digits hu hrest
  rw [← hi] at htake
  simp only [skipDigits, htake, true_and]
  change i.rest.drop u.length = rest
  rw [hi, List.drop_left]

theorem takes_skipDigits (i : Input) :
    Takes (fun i => .ok (skipDigits i)) i (skipDigits i).2 (skipDigits i).1 := by
  obtain ⟨u, rest, hi, hu, hrest⟩ := exists_digits i.rest
  obtain ⟨hcount, hi'⟩ := skipDigits_append hi hu hrest
  refine ⟨u, by rw [hi', hi], fun c hc => isNumberChar_of_digit (hu c hc), ?_⟩
  intro j rest' hj hnext
  rw [hi'] at hnext
  obtain ⟨hcount', hj'⟩ := skipDigits_append hj hu (hnext ▸ hrest)
  exact ⟨(skipDigits j).2, by rw [hcount, ← hcount'], hj'⟩

/-! ## Significands -/

/-- Reads digits into a significand behind `n`, as long as they fit. -/
def significand (n count : Nat) (i : Input) : Except Fault ((Nat × Nat) × Input) :=
  let (n, count, i) := significandDigits i.rest.length n count i
  .ok ((n, count), i)

/-- The next digit, if there is one, makes the significand too large. -/
def Full (n : Nat) (i : Input) : Prop := ∀ d ∈ nextDigit? i, maxSignificand < n * 10 + d

theorem significand_of_full {n count : Nat} (h : Full n i) :
    significand n count i = .ok ((n, count), i) := by
  unfold significand
  cases hi : i.rest with
  | nil => rfl
  | cons c rest =>
    cases hd : nextDigit? i with
    | none => simp only [List.length_cons, significandDigits, hd]
    | some d => simp only [List.length_cons, significandDigits, hd, if_pos (h d hd)]

theorem significand_next {n count d : Nat} (hd : nextDigit? i = some d)
    (hfits : n * 10 + d ≤ maxSignificand) :
    significand n count i = significand (n * 10 + d) (count + 1) i.skip := by
  unfold significand
  cases hi : i.rest with
  | nil => simp [nextDigit?, hi] at hd
  | cons c rest =>
    have hskip : i.skip.rest = rest := rest_of_skip hi
    simp only [List.length_cons, significandDigits, hd, if_neg (not_lt.2 hfits), hskip]

theorem takes_significand (t : Text) : ∀ (n count : Nat) {i : Input}, i.rest = t →
    ∃ m k i', significand n count i = .ok ((m, k), i') ∧
      Takes (significand n count) i i' (m, k) := by
  induction t with
  | nil =>
    intro n count i hi
    have hfull : ∀ j : Input, next? j.rest = next? i.rest → Full n j := by
      intro j hj d hd
      rw [nextDigit?_congr hj, nextDigit?, hi] at hd
      cases hd
    exact ⟨n, count, i, significand_of_full (hfull i rfl),
      (Takes.pure _ i).congr fun j hj => significand_of_full (hfull j hj)⟩
  | cons c rest ih =>
    intro n count i hi
    by_cases hfull : Full n i
    · refine ⟨n, count, i, significand_of_full hfull, (Takes.pure _ i).congr fun j hj => ?_⟩
      exact significand_of_full fun d hd => hfull d (nextDigit?_congr hj ▸ hd)
    · simp only [Full, not_forall, not_lt] at hfull
      obtain ⟨d, hd, hfits⟩ := hfull
      have hc : Text.digit? c = some d := by simpa [nextDigit?, hi] using hd
      obtain ⟨m, k, i', hread, htakes⟩ := ih (n * 10 + d) (count + 1) (rest_of_skip hi)
      refine ⟨m, k, i', by rw [significand_next hd hfits, hread], ?_⟩
      refine htakes.cons hi (isNumberChar_of_digit (by rw [hc]; rfl)) fun j hj => ?_
      exact significand_next (by rw [nextDigit?, hj]; exact hc) hfits

/-! ## Exponents -/

theorem exists_rest_of_head? {j : Input} (h : j.rest.head? = some c) : ∃ rest, j.rest = c :: rest :=
  ⟨j.rest.tail, (List.cons_head?_tail h).symm⟩

theorem takes_exponentSign (i : Input) :
    Takes (fun i => .ok (exponentSign i)) i (exponentSign i).2 (exponentSign i).1 := by
  have hplus : ∀ {j : Input}, j.rest.head? = some '+' → exponentSign j = (false, j.skip) := by
    intro j hj
    obtain ⟨rest, hrest⟩ := exists_rest_of_head? hj
    simp only [exponentSign, hrest]
  have hminus : ∀ {j : Input}, j.rest.head? = some '-' → exponentSign j = (true, j.skip) := by
    intro j hj
    obtain ⟨rest, hrest⟩ := exists_rest_of_head? hj
    simp only [exponentSign, hrest]
  have hnone : ∀ {j : Input}, next? j.rest ≠ some '+' → next? j.rest ≠ some '-' →
      exponentSign j = (false, j) := by
    intro j hp hm
    unfold exponentSign
    split
    · rename_i hrest
      exact absurd (by rw [hrest]; rfl) hp
    · rename_i hrest
      exact absurd (by rw [hrest]; rfl) hm
    · rfl
  by_cases hp : next? i.rest = some '+'
  · obtain ⟨rest, hi⟩ := exists_rest_of_next? hp
    rw [hplus (by rw [hi]; rfl)]
    exact (Takes.pure false i.skip).cons hi rfl fun j hj => by rw [hplus hj]
  by_cases hm : next? i.rest = some '-'
  · obtain ⟨rest, hi⟩ := exists_rest_of_next? hm
    rw [hminus (by rw [hi]; rfl)]
    exact (Takes.pure true i.skip).cons hi rfl fun j hj => by rw [hminus hj]
  rw [hnone hp hm]
  exact (Takes.pure false i).congr fun j hj => by rw [hnone (hj ▸ hp) (hj ▸ hm)]

variable {negative down : Bool} {n : Nat} {exponent : Int} {numeral : Numeral}

/-- Reads the size of an exponent behind its sign. -/
def exponentSize (negative : Bool) (n : Nat) (exponent : Int) (down : Bool) (i : Input) :
    Except Fault (Numeral × Input) :=
  match i.rest with
  | [] => i.fail .endInValue
  | c :: _ =>
    if (Text.digit? c).isNone then i.failNext .invalidNumber
    else
      let digits := i.rest.takeWhile fun c => (Text.digit? c).isSome
      match exponentPart.exponentDigits 0 digits with
      | .inl size =>
        .ok (.decimal negative n (exponent + if down then -(size : Int) else size),
          (skipDigits i).2)
      | .inr passed =>
        if n ≠ 0 ∧ !down then
          (i.pass (digits.take passed) (i.rest.drop passed)).fail .numberOutOfRange
        else .ok (.decimal negative 0 0, (skipDigits i).2)

theorem exponentPart_of_letter {j : Input} (hc : c = 'e' ∨ c = 'E') (hj : j.rest.head? = some c) :
    exponentPart negative n exponent j =
      exponentSize negative n exponent (exponentSign j.skip).1 (exponentSign j.skip).2 := by
  obtain ⟨rest, hrest⟩ := exists_rest_of_head? hj
  rcases hc with rfl | rfl <;> simp only [exponentPart, hrest] <;> rfl

theorem exponentPart_of_no_letter {j : Input} (he : next? j.rest ≠ some 'e')
    (hE : next? j.rest ≠ some 'E') :
    exponentPart negative n exponent j = .ok (.decimal negative n exponent, j) := by
  unfold exponentPart
  split
  · rename_i hrest
    exact absurd (by rw [hrest]; rfl) he
  · rename_i hrest
    exact absurd (by rw [hrest]; rfl) hE
  · rfl

/-- The number with an exponent of these digits, if it is not too large. -/
def exponentNumeral? (negative : Bool) (n : Nat) (exponent : Int) (down : Bool) (digits : Text) :
    Option Numeral :=
  match exponentPart.exponentDigits 0 digits with
  | .inl size => some (.decimal negative n (exponent + if down then -(size : Int) else size))
  | .inr _ => if n ≠ 0 ∧ !down then none else some (.decimal negative 0 0)

theorem exponentSize_eq_ok_iff : exponentSize negative n exponent down i = .ok (numeral, i') ↔
    (nextDigit? i).isSome = true ∧ exponentNumeral? negative n exponent down
      (i.rest.takeWhile fun c => (Text.digit? c).isSome) = some numeral ∧
        (skipDigits i).2 = i' := by
  unfold exponentSize exponentNumeral? nextDigit?
  cases hi : i.rest with
  | nil => exact ⟨fun h => absurd h fail_ne_ok, fun h => by cases h.1⟩
  | cons c rest =>
    dsimp only [List.head?_cons, Option.bind_some]
    by_cases hc : (Text.digit? c).isNone = true
    · rw [if_pos hc]
      refine ⟨fun h => absurd h failNext_ne_ok, fun h => ?_⟩
      rw [Option.isNone_iff_eq_none.1 hc] at h
      cases h.1
    have hsome : (Text.digit? c).isSome = true :=
      Option.isSome_iff_ne_none.2 fun h => hc (Option.isNone_iff_eq_none.2 h)
    simp only [if_neg hc, hsome, true_and]
    generalize exponentPart.exponentDigits 0 _ = size
    cases size with
    | inl size => simp only [Except.ok.injEq, Prod.mk.injEq, Option.some.injEq]
    | inr passed =>
      by_cases hlarge : n ≠ 0 ∧ (!down) = true
      · simp only [if_pos hlarge]
        exact ⟨fun h => absurd h fail_ne_ok, fun h => by cases h.1⟩
      · simp only [if_neg hlarge, Except.ok.injEq, Prod.mk.injEq, Option.some.injEq]

theorem takes_of_exponentSize (h : exponentSize negative n exponent down i = .ok (numeral, i')) :
    Takes (exponentSize negative n exponent down) i i' numeral := by
  obtain ⟨hdigit, hnumeral, rfl⟩ := exponentSize_eq_ok_iff.1 h
  obtain ⟨u, rest, hi, hu, hrest⟩ := exists_digits i.rest
  obtain ⟨-, hi'⟩ := skipDigits_append hi hu hrest
  refine ⟨u, by rw [hi', hi], fun c hc => isNumberChar_of_digit (hu c hc), ?_⟩
  intro j rest' hj hnext
  rw [hi'] at hnext
  have hrest' : (next? rest').bind Text.digit? = none := hnext ▸ hrest
  refine ⟨_, exponentSize_eq_ok_iff.2 ⟨?_, ?_, rfl⟩, (skipDigits_append hj hu hrest').2⟩
  · have hsame : next? j.rest = next? i.rest := by
      rw [hj, hi]
      exact next?_append_congr u hnext
    rwa [nextDigit?_congr hsame]
  · rwa [hj, takeWhile_digits hu hrest', ← takeWhile_digits hu hrest, ← hi]

theorem takes_of_exponentPart (h : exponentPart negative n exponent i = .ok (numeral, i')) :
    Takes (exponentPart negative n exponent) i i' numeral := by
  have hletter : ∀ c, c = 'e' ∨ c = 'E' → isNumberChar c = true → next? i.rest = some c →
      Takes (exponentPart negative n exponent) i i' numeral := by
    intro c hc hchar hnext
    obtain ⟨rest, hi⟩ := exists_rest_of_next? hnext
    rw [exponentPart_of_letter hc (by rw [hi]; rfl)] at h
    exact ((takes_exponentSign i.skip).bind (g := exponentSize negative n exponent)
      (takes_of_exponentSize h)).cons hi hchar fun j hj => exponentPart_of_letter hc hj
  by_cases he : next? i.rest = some 'e'
  · exact hletter 'e' (Or.inl rfl) rfl he
  by_cases hE : next? i.rest = some 'E'
  · exact hletter 'E' (Or.inr rfl) rfl hE
  rw [exponentPart_of_no_letter he hE] at h
  obtain ⟨rfl, rfl⟩ := Prod.mk.inj (Except.ok.inj h)
  exact (Takes.pure _ i).congr fun j hj => exponentPart_of_no_letter (hj ▸ he) (hj ▸ hE)

/-! ## Numbers -/

/-- Reads on behind the digits after a point. -/
def afterPoint (negative : Bool) (exponent : Int) (digits : Nat × Nat) (i : Input) :
    Except Fault (Numeral × Input) :=
  if digits.2 = 0 ∧ (nextDigit? i).isNone then
    match i.rest with
    | [] => i.fail .endInValue
    | _ :: _ => i.failNext .invalidNumber
  else exponentPart negative digits.1 (exponent - digits.2) (skipDigits i).2

theorem takes_of_afterPoint {digits : Nat × Nat}
    (h : afterPoint negative exponent digits i = .ok (numeral, i')) :
    Takes (afterPoint negative exponent digits) i i' numeral := by
  have hdigits : ¬ (digits.2 = 0 ∧ (nextDigit? i).isNone = true) := by
    intro hnone
    rw [afterPoint, if_pos hnone] at h
    split at h
    · exact absurd h fail_ne_ok
    · exact absurd h failNext_ne_ok
  rw [afterPoint, if_neg hdigits] at h
  refine ((takes_skipDigits i).bind
    (g := fun _ => exponentPart negative digits.1 (exponent - digits.2))
    (takes_of_exponentPart h)).congr fun j hj => ?_
  rw [afterPoint, if_neg (nextDigit?_congr hj ▸ hdigits)]
  rfl

theorem takes_of_fractionPart (h : fractionPart negative n exponent i = .ok (numeral, i')) :
    Takes (fractionPart negative n exponent) i i' numeral := by
  obtain ⟨m, k, i₁, hread, htakes⟩ := takes_significand i.rest n 0 rfl
  have heq : ∀ j, fractionPart negative n exponent j =
      significand n 0 j >>= fun p => afterPoint negative exponent p.1 p.2 := fun _ => rfl
  rw [heq, hread, ok_bind] at h
  exact (htakes.bind (takes_of_afterPoint h)).congr fun j _ => heq j

/-- The number without a point and without an exponent. -/
def wholeNumeral (negative : Bool) (n dropped : Nat) : Numeral :=
  if 0 < dropped then .decimal negative n dropped
  else if !negative then .int n
  else if 0 < n ∧ n ≤ twoTo 63 then .int (-n)
  else .decimal true n 0

theorem numberTail_of_point {dropped : Nat} {j : Input} (hj : j.rest.head? = some '.') :
    numberTail negative n dropped j = fractionPart negative n dropped j.skip := by
  obtain ⟨rest, hrest⟩ := exists_rest_of_head? hj
  simp only [numberTail, hrest]

theorem numberTail_of_letter {dropped : Nat} {j : Input} (hc : c = 'e' ∨ c = 'E')
    (hj : j.rest.head? = some c) :
    numberTail negative n dropped j = exponentPart negative n dropped j := by
  obtain ⟨rest, hrest⟩ := exists_rest_of_head? hj
  rcases hc with rfl | rfl <;> simp only [numberTail, hrest]

theorem numberTail_of_end {dropped : Nat} {j : Input} (hp : next? j.rest ≠ some '.')
    (he : next? j.rest ≠ some 'e') (hE : next? j.rest ≠ some 'E') :
    numberTail negative n dropped j = .ok (wholeNumeral negative n dropped, j) := by
  unfold numberTail
  split
  · rename_i hrest
    exact absurd (by rw [hrest]; rfl) hp
  · rename_i hrest
    exact absurd (by rw [hrest]; rfl) he
  · rename_i hrest
    exact absurd (by rw [hrest]; rfl) hE
  · unfold wholeNumeral
    split_ifs <;> rfl

theorem takes_of_numberTail {dropped : Nat}
    (h : numberTail negative n dropped i = .ok (numeral, i')) :
    Takes (numberTail negative n dropped) i i' numeral := by
  have hletter : ∀ c, c = 'e' ∨ c = 'E' → next? i.rest = some c →
      Takes (numberTail negative n dropped) i i' numeral := by
    intro c hc hnext
    obtain ⟨rest, hi⟩ := exists_rest_of_next? hnext
    rw [numberTail_of_letter hc (by rw [hi]; rfl)] at h
    refine (takes_of_exponentPart h).congr fun j hj => numberTail_of_letter hc ?_
    obtain ⟨rest', hj'⟩ := exists_rest_of_next? (hj.trans hnext)
    rw [hj']
    rfl
  by_cases hp : next? i.rest = some '.'
  · obtain ⟨rest, hi⟩ := exists_rest_of_next? hp
    rw [numberTail_of_point (by rw [hi]; rfl)] at h
    exact (takes_of_fractionPart h).cons hi rfl fun j hj => numberTail_of_point hj
  by_cases he : next? i.rest = some 'e'
  · exact hletter 'e' (Or.inl rfl) he
  by_cases hE : next? i.rest = some 'E'
  · exact hletter 'E' (Or.inr rfl) hE
  rw [numberTail_of_end hp he hE] at h
  obtain ⟨rfl, rfl⟩ := Prod.mk.inj (Except.ok.inj h)
  exact (Takes.pure _ i).congr fun j hj => numberTail_of_end (hj ▸ hp) (hj ▸ he) (hj ▸ hE)

/-- Reads on behind the digits of a significand. -/
def behindDigits (negative : Bool) (digits : Nat × Nat) (i : Input) :
    Except Fault (Numeral × Input) :=
  numberTail negative digits.1 (skipDigits i).1 (skipDigits i).2

/-- Reads on behind a zero. -/
def behindZero (negative : Bool) (i : Input) : Except Fault (Numeral × Input) :=
  if (nextDigit? i).isSome then i.failNext .invalidNumber else numberTail negative 0 0 i

theorem unsignedNumber_of_zero {j : Input} (hc : Text.digit? c = some 0)
    (hj : j.rest.head? = some c) : unsignedNumber negative j = behindZero negative j.skip := by
  obtain ⟨rest, hrest⟩ := exists_rest_of_head? hj
  simp only [unsignedNumber, hrest, hc]
  rfl

theorem unsignedNumber_of_digit {j : Input} {d : Nat} (hc : Text.digit? c = some (d + 1))
    (hj : j.rest.head? = some c) : unsignedNumber negative j =
      significand 0 0 j >>= fun p => behindDigits negative p.1 p.2 := by
  obtain ⟨rest, hrest⟩ := exists_rest_of_head? hj
  simp only [unsignedNumber, hrest, hc]
  rw [significand, hrest]
  rfl

theorem takes_of_behindDigits {digits : Nat × Nat}
    (h : behindDigits negative digits i = .ok (numeral, i')) :
    Takes (behindDigits negative digits) i i' numeral :=
  (takes_skipDigits i).bind (g := numberTail negative digits.1) (takes_of_numberTail h)

theorem takes_of_behindZero (h : behindZero negative i = .ok (numeral, i')) :
    Takes (behindZero negative) i i' numeral := by
  have hnone : ¬ (nextDigit? i).isSome = true := by
    intro hsome
    rw [behindZero, if_pos hsome] at h
    exact failNext_ne_ok h
  rw [behindZero, if_neg hnone] at h
  refine (takes_of_numberTail h).congr fun j hj => ?_
  rw [behindZero, if_neg (nextDigit?_congr hj ▸ hnone)]

theorem takes_of_unsignedNumber (h : unsignedNumber negative i = .ok (numeral, i')) :
    Takes (unsignedNumber negative) i i' numeral := by
  cases hi : i.rest with
  | nil =>
    simp only [unsignedNumber, hi] at h
    exact absurd h fail_ne_ok
  | cons c rest =>
    have hhead : i.rest.head? = some c := by rw [hi]; rfl
    cases hc : Text.digit? c with
    | none =>
      simp only [unsignedNumber, hi, hc] at h
      exact absurd h failNext_ne_ok
    | some d =>
      have hchar : isNumberChar c = true := isNumberChar_of_digit (by rw [hc]; rfl)
      cases d with
      | zero =>
        rw [unsignedNumber_of_zero hc hhead] at h
        exact (takes_of_behindZero h).cons hi hchar fun j hj => unsignedNumber_of_zero hc hj
      | succ d =>
        obtain ⟨m, k, i₁, hread, htakes⟩ := takes_significand i.rest 0 0 rfl
        rw [unsignedNumber_of_digit hc hhead, hread, ok_bind] at h
        refine (htakes.bind (takes_of_behindDigits h)).congr fun j hj => ?_
        refine unsignedNumber_of_digit hc ?_
        obtain ⟨rest', hj'⟩ := exists_rest_of_next? (hj.trans (hi ▸ next?_cons hchar rest))
        rw [hj']
        rfl

/-- The value of a number. -/
def numeralValue (numeral : Numeral) (i : Input) : Except Fault (Json × Input) :=
  match numeral with
  | .int n => pure (.int n, i)
  | .decimal negative significand exponent =>
    match decimalValue? 3 (UInt64.ofNat significand).toFloat exponent with
    | some x => pure (.float (if negative then -x else x), i)
    | none => i.fail .numberOutOfRange

theorem takes_of_numeralValue {v : Json} (h : numeralValue numeral i = .ok (v, i')) :
    Takes (numeralValue numeral) i i' v := by
  unfold numeralValue at h
  split at h
  · obtain ⟨rfl, rfl⟩ := Prod.mk.inj (Except.ok.inj h)
    exact (Takes.pure _ i).congr fun j _ => rfl
  · split at h
    · rename_i hvalue
      obtain ⟨rfl, rfl⟩ := Prod.mk.inj (Except.ok.inj h)
      refine (Takes.pure _ i).congr fun j _ => ?_
      simp only [numeralValue, hvalue]
      rfl
    · exact absurd h fail_ne_ok

/-- **A number is read from its own characters**: what follows matters only where the number could
    go on with it. -/
theorem takes_of_number {v : Json} (h : number negative i = .ok (v, i')) :
    Takes (number negative) i i' v := by
  have heq : ∀ j, number negative j =
      unsignedNumber negative j >>= fun p => numeralValue p.1 p.2 := fun _ => rfl
  rw [heq] at h
  obtain ⟨⟨numeral, i₁⟩, hnumeral, h⟩ := bind_eq_ok h
  exact ((takes_of_unsignedNumber hnumeral).bind (takes_of_numeralValue h)).congr fun j _ => heq j

end Recordsmith.Json
