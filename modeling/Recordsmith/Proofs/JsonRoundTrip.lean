import Recordsmith.Json.Writer
import Recordsmith.Proofs.Digits
import Recordsmith.Proofs.JsonGrammar
import Recordsmith.Proofs.Keys
import Recordsmith.Proofs.Replacements

/-!
# Writing and reading JSON

What is written in one line is read as it was.

* `Json.Plain` are the values that a line can hold: no doubles, integers of 64-bit words, distinct
  keys, and no more nesting than is read;
* `Json.spells_escape`: a string is spelt by its escaped characters;
* `Json.denotes_render`: the line of a value stands for it;
* `Template.parse_render`: a template is read from its line, if the line does not hold the token.
-/

namespace Recordsmith.Json

/-- A value that a line can hold, with arrays and objects nested at most `depth` deep. -/
inductive Plain : (depth : Nat) → Json → Prop
  | null {depth : Nat} : Plain depth .null
  | bool {depth : Nat} (b : Bool) : Plain depth (.bool b)
  | int {depth : Nat} {n : Int} :
      -9223372036854775808 ≤ n → n ≤ 18446744073709551615 → Plain depth (.int n)
  | str {depth : Nat} (t : Text) : Plain depth (.str t)
  | arr {depth : Nat} {items : List Json} :
      (∀ v ∈ items, Plain depth v) → Plain (depth + 1) (.arr items)
  | obj {depth : Nat} {members : Members} : (members.map (·.1)).Nodup →
      (∀ p ∈ members, Plain depth p.2) → Plain (depth + 1) (.obj members)

variable {depth : Nat}

/-! ## Numbers -/

/-- Digits are read into a significand that is large enough for them. -/
theorem significand_digits {t : Text} (ht : ∀ c ∈ t, c.isDigit = true) :
    ∀ (n count : Nat) {i : Input}, i.rest = t → Nat.ofDigitChars 10 t n ≤ maxSignificand →
      ∃ k i', significand n count i = .ok ((Nat.ofDigitChars 10 t n, k), i') ∧ i'.rest = [] := by
  induction t with
  | nil =>
    intro n count i hi _
    refine ⟨count, i, significand_of_full fun d hd => ?_, hi⟩
    rw [nextDigit?, hi] at hd
    cases hd
  | cons c cs ih =>
    intro n count i hi hle
    obtain ⟨hc, hcs⟩ := List.forall_mem_cons.1 ht
    rw [Nat.ofDigitChars_cons, Nat.mul_comm] at hle ⊢
    have hnext : nextDigit? i = some (c.toNat - '0'.toNat) := by
      rw [nextDigit?, hi]
      exact Text.digit?_of_isDigit hc
    rw [significand_next hnext ((le_ofDigitChars cs _).trans hle)]
    exact ih hcs _ _ (rest_of_skip hi) hle

/-- Nothing stands behind the digits, so the number is whole. -/
theorem numberTail_whole (negative : Bool) {n : Nat} {i : Input}
    (hn : negative = true → 0 < n ∧ n ≤ twoTo 63) (hi : i.rest = []) :
    numberTail negative n 0 i = .ok (.int (if negative then -n else n), i) := by
  rw [numberTail_of_end (by simp [hi, next?]) (by simp [hi, next?]) (by simp [hi, next?])]
  cases negative with
  | false => rfl
  | true => simp [wholeNumeral, hn rfl]

theorem unsignedNumber_ofNat (negative : Bool) {n : Nat} (hmax : n ≤ maxSignificand)
    (hn : negative = true → 0 < n ∧ n ≤ twoTo 63) :
    ∃ i', unsignedNumber negative ⟨Text.ofNat n, .start⟩ =
      .ok (.int (if negative then -n else n), i') ∧ i'.rest = [] := by
  obtain ⟨c, cs, hcs, hzero⟩ := Text.ofNat_eq_cons n
  have hdigits : ∀ c ∈ Text.ofNat n, c.isDigit = true := fun c => Text.isDigit_of_mem_ofNat
  by_cases hc : c = '0'
  · -- a zero is written alone
    obtain ⟨rfl, rfl⟩ := hzero hc
    subst hc
    have hskip := rest_of_skip (i := ⟨Text.ofNat 0, .start⟩) hcs
    refine ⟨_, ?_, hskip⟩
    rw [unsignedNumber_of_zero (c := '0') rfl (by rw [hcs]; rfl), behindZero,
      if_neg (by rw [nextDigit?, hskip]; decide)]
    exact numberTail_whole negative hn hskip
  · obtain ⟨d, hd⟩ := Text.digit?_of_ne_zero (hdigits c (hcs ▸ List.mem_cons_self)) hc
    have hvalue : Nat.ofDigitChars 10 (Text.ofNat n) 0 = n := Nat.ofDigitChars_ten_toDigits
    obtain ⟨k, i, hread, hi⟩ := significand_digits hdigits 0 0
      (i := ⟨Text.ofNat n, .start⟩) rfl (by rw [hvalue]; exact hmax)
    obtain ⟨hnone, hi'⟩ := skipDigits_append (i := i) (u := []) hi (by simp) rfl
    refine ⟨(skipDigits i).2, ?_, hi'⟩
    rw [unsignedNumber_of_digit hd (by rw [hcs]; rfl), hread, ok_bind, behindDigits, hvalue, hnone]
    exact numberTail_whole negative hn hi'

/-- **A number is read from its digits.** -/
theorem number_ofNat (negative : Bool) {n : Nat} (hmax : n ≤ maxSignificand)
    (hn : negative = true → 0 < n ∧ n ≤ twoTo 63) :
    ∃ i', number negative ⟨Text.ofNat n, .start⟩ =
      .ok (.int (if negative then -n else n), i') ∧ i'.rest = [] := by
  obtain ⟨i', hread, hi'⟩ := unsignedNumber_ofNat negative hmax hn
  refine ⟨i', ?_, hi'⟩
  rw [number, hread]
  rfl

theorem numeric_ofNat {n : Nat} (hmax : n ≤ maxSignificand) :
    Numeric (Text.ofNat n) (.int n) := by
  obtain ⟨i', hread, hi'⟩ := number_ofNat false hmax (by simp)
  exact .unsigned hread hi'

theorem numeric_negSucc {n : Nat} (hn : n + 1 ≤ twoTo 63) :
    Numeric ('-' :: Text.ofNat (n + 1)) (.int (.negSucc n)) := by
  have hmax : n + 1 ≤ maxSignificand := by
    unfold maxSignificand
    have htwo : twoTo 63 = 9223372036854775808 := rfl
    omega
  obtain ⟨i', hread, hi'⟩ := number_ofNat true hmax fun _ => ⟨Nat.succ_pos n, hn⟩
  exact .negative hread hi'

/-! ## Strings -/

theorem hexDigit?_digitChar : ∀ n < 16, hexDigit? (Nat.digitChar n) = some n := by decide

theorem quad_control {n : Nat} (hn : n < 32) :
    Quad ['0', '0', Nat.digitChar (n / 16), Nat.digitChar (n % 16)] n := by
  have h₀ : hexDigit? '0' = some 0 := rfl
  have h₁ := hexDigit?_digitChar (n / 16) (by omega)
  have h₂ := hexDigit?_digitChar (n % 16) (by omega)
  refine ⟨rfl, [0, 0, n / 16, n % 16], by simp [h₀, h₁, h₂], ?_⟩
  simp only [List.foldl_cons, List.foldl_nil]
  omega

theorem spells_escapeChar (c : Char) {body t : Text} (h : Spells body t) :
    Spells (escapeChar c ++ body) (c :: t) := by
  have hsign : ∀ {letter c : Char}, (letter, c) ∈ signs → Spells (['\\', letter] ++ body) (c :: t) :=
    fun hmem => .escape (.sign hmem) h
  unfold escapeChar
  split
  · exact hsign (by decide)
  · exact hsign (by decide)
  · exact hsign (by decide)
  · exact hsign (by decide)
  · exact hsign (by decide)
  · exact hsign (by decide)
  · exact hsign (by decide)
  · rename_i hquote hbackslash _ _ _ _ _
    split_ifs with hcontrol
    · have hcode := Spells.escape (.code (quad_control hcontrol) (by omega)) h
      rwa [Char.ofNat_toNat] at hcode
    · exact .character hquote hbackslash (by omega) h

/-- **A string is spelt by its escaped characters.** -/
theorem spells_escape (t : Text) : Spells (t.flatMap escapeChar) t := by
  induction t with
  | nil => exact .nil
  | cons c t ih => exact spells_escapeChar c ih

/-! ## Values -/

theorem renderItems_eq_join (items : List Json) :
    renderItems items = Text.join [','] (items.map render) := by
  induction items with
  | nil => simp [renderItems, Text.join]
  | cons v rest ih =>
    cases rest with
    | nil => simp [renderItems, Text.join]
    | cons w rest => simpa [renderItems, Text.join] using ih

/-- A member of an object. -/
def renderMember (p : Text × Json) : Text := quote p.1 ++ ':' :: render p.2

theorem renderMembers_eq_join (members : Members) :
    renderMembers members = Text.join [','] (members.map renderMember) := by
  induction members with
  | nil => simp [renderMembers, Text.join]
  | cons p rest ih =>
    cases rest with
    | nil => simp [renderMembers, renderMember, Text.join]
    | cons q rest =>
      simp only [List.map_cons] at ih
      simp [renderMembers, Text.join, ih, renderMember]

/-- A member as it is written in a line. -/
def entryOf (p : Text × Json) : Entry where
  before := []
  spelling := p.1.flatMap escapeChar
  key := p.1
  after := []
  text := render p.2
  value := p.2
  space_before := space_nil
  spells := spells_escape p.1
  space_after := space_nil

theorem written_entryOf (p : Text × Json) : (entryOf p).written = renderMember p := by
  simp [Entry.written, entryOf, renderMember, quote]

theorem map_written (members : Members) :
    (members.map entryOf).map Entry.written = members.map renderMember := by
  rw [List.map_map]
  exact List.map_congr_left fun p _ => written_entryOf p

/-- A new key goes to the end. -/
theorem put_of_not_mem {key : Text} {v : Json} {before : Members} (h : key ∉ before.map (·.1)) :
    before.put key v = before ++ [(key, v)] := by
  induction before with
  | nil => rfl
  | cons p rest ih =>
    obtain ⟨k, u⟩ := p
    rw [List.map_cons, List.mem_cons, not_or] at h
    simp only [Members.put, if_neg (Ne.symm h.1), ih h.2, List.cons_append]

/-- Members with distinct keys are kept in their order. -/
theorem putAll_entryOf {members : Members} : ∀ {before : Members},
    ((before ++ members).map (·.1)).Nodup →
      putAll before (members.map entryOf) = before ++ members := by
  induction members with
  | nil => exact fun _ => (List.append_nil _).symm
  | cons p members ih =>
    intro before hnodup
    have hfresh : p.1 ∉ before.map (·.1) := by
      rw [List.map_append, List.nodup_append] at hnodup
      exact fun hmem => hnodup.2.2 _ hmem _ List.mem_cons_self rfl
    have hput := put_of_not_mem (v := p.2) hfresh
    rw [List.append_cons] at hnodup ⊢
    rw [← ih hnodup, ← hput]
    rfl

/-- **The line of a value stands for it.** -/
theorem denotes_render {v : Json} (h : Plain depth v) : Denotes depth (render v) v := by
  induction h with
  | null =>
    rw [render]
    exact .null
  | bool b =>
    cases b with
    | true =>
      rw [render]
      exact .true
    | false =>
      rw [render]
      exact .false
  | @int _ n hmin hmax =>
    rw [render]
    cases n with
    | ofNat n =>
      rw [Int.ofNat_eq_natCast] at hmax
      exact .number (numeric_ofNat (by unfold maxSignificand; omega))
    | negSucc n =>
      rw [Int.negSucc_eq] at hmin
      have htwo : twoTo 63 = 9223372036854775808 := rfl
      exact .number (numeric_negSucc (by omega))
  | str t =>
    rw [render]
    exact .str (spells_escape t)
  | @arr _ items _ ih =>
    rw [render, renderItems_eq_join]
    cases items with
    | nil => exact .emptyArr space_nil
    | cons v items =>
      have hne : ((v :: items).map fun v => (render v, v)) ≠ [] := List.cons_ne_nil _ _
      have harr := Denotes.arr hne (List.forall_mem_map.2 ih)
      simpa only [List.map_map, Function.comp_def, List.map_id'] using harr
  | @obj _ members hnodup _ ih =>
    rw [render, renderMembers_eq_join]
    cases members with
    | nil => exact .emptyObj space_nil
    | cons p members =>
      have hne : (p :: members).map entryOf ≠ [] := List.cons_ne_nil _ _
      have hobj := Denotes.obj hne (List.forall_mem_map.2 ih)
      rw [putAll_entryOf hnodup, map_written] at hobj
      exact hobj

/-- **What is written in one line is read as it was.** -/
theorem parse_render {v : Json} (h : Plain maxDepth v) : parse (render v) = .ok v :=
  parse_eq_ok_iff.2 (denotes_render h)

end Recordsmith.Json

namespace Recordsmith

/-! ## Templates -/

/-- **A template is read from its line**, if the line does not hold the token. -/
theorem Template.parse_render {v : Json} (h : v.Plain Json.maxDepth)
    (htoken : ¬ token <:+: v.render) : parse v.render = .ok v := by
  rw [parse, substitute, Text.replaceAll_of_not_infix htoken, Json.parse_render h]
  rfl

end Recordsmith
