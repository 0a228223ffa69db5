import Recordsmith.Pattern.Render
import Recordsmith.Proofs.DateResolution
import Recordsmith.Proofs.Digits
import Recordsmith.Proofs.PatternSpelling
import Recordsmith.Proofs.Places

/-!
# Reading what was written

* `Field.endsBefore` says that a field that was written is read to its end, and no further;
* `Field.scan_render`: such a field tells its parts of the moment, down to the unit that it shows;
* `scanItems_render`: so do the items of a pattern one after the other.
-/

namespace Recordsmith

/-! ## Texts -/

namespace Text

/-- A character that is not blank stands at the start of the text. -/
def bare (t : Text) : Bool := t.head?.any fun c => !isBlank c

theorem bare_eq_true_iff {t : Text} :
    t.bare = true ↔ ∃ c cs, t = c :: cs ∧ isBlank c = false := by
  cases t <;> simp [bare]

theorem trimStart_bare {t : Text} (h : t.bare = true) (rest : Text) :
    trimStart (t ++ rest) = t ++ rest := by
  obtain ⟨c, cs, rfl, hc⟩ := bare_eq_true_iff.1 h
  exact List.dropWhile_cons_of_neg (by simp [hc])

theorem isBlank_of_isDigit {c : Char} (h : c.isDigit = true) : isBlank c = false :=
  Call.isBlank_of_isNameChar (by simp [Call.isNameChar, Char.isAlphanum, h])

theorem bare_of_digits {t : Text} (ht : ∀ c ∈ t, c.isDigit = true) (hne : t ≠ []) :
    t.bare = true := by
  obtain ⟨c, cs, rfl⟩ := List.exists_cons_of_ne_nil hne
  exact bare_eq_true_iff.2 ⟨c, cs, rfl, isBlank_of_isDigit (ht c List.mem_cons_self)⟩

theorem utf8Size_append (t u : Text) : utf8Size (t ++ u) = utf8Size t + utf8Size u := by
  induction t with
  | nil => simp [utf8Size]
  | cons c cs ih => simp only [List.cons_append, utf8Size, ih, Nat.add_assoc]

/-! ## Digits -/

/-- No digit stands at the start of the text. -/
def noDigitAhead (t : Text) : Bool := (t.head?.bind digit?).isNone

theorem isDigit_of_mem_ofNatPadded {width n : Nat} {c : Char} (h : c ∈ ofNatPadded width n) :
    c.isDigit = true := by
  rcases List.mem_append.1 h with h | h
  · rw [List.eq_of_mem_replicate h]
    rfl
  · exact isDigit_of_mem_ofNat h

theorem ofNat_ne_nil (n : Nat) : ofNat n ≠ [] := by
  obtain ⟨c, cs, h, -⟩ := ofNat_eq_cons n
  simp [h]

theorem ofNatPadded_ne_nil (width n : Nat) : ofNatPadded width n ≠ [] := by
  simp [ofNatPadded, padLeft, ofNat_ne_nil]

theorem ofDigitChars_ofNat (n : Nat) : Nat.ofDigitChars 10 (ofNat n) 0 = n :=
  Nat.ofDigitChars_ten_toDigits

theorem ofDigitChars_ofNatPadded (width n : Nat) :
    Nat.ofDigitChars 10 (ofNatPadded width n) 0 = n := by
  rw [ofNatPadded, padLeft, Nat.ofDigitChars_append, Nat.ofDigitChars_replicate_zero, Nat.mul_zero,
    ofDigitChars_ofNat]

theorem length_ofNat_le {width n : Nat} (hw : 0 < width) (h : n < 10 ^ width) :
    (ofNat n).length ≤ width :=
  (Nat.length_toDigits_le_iff (by decide) hw).2 h

theorem length_ofNatPadded {width n : Nat} (hw : 0 < width) (h : n < 10 ^ width) :
    (ofNatPadded width n).length = width := by
  have := length_ofNat_le hw h
  simp only [ofNatPadded, padLeft, List.length_append, List.length_replicate]
  omega

end Text

/-! ## Numbers -/

open Text (noDigitAhead)

/-- Digits are read as their number, up to a character that is not a digit or to the width. -/
theorem readDateDigits_eq {t rest : Text} (ht : ∀ c ∈ t, c.isDigit = true) {width n : Nat}
    (hlength : t.length ≤ width) (hend : t.length = width ∨ noDigitAhead rest = true)
    (hmax : Nat.ofDigitChars 10 t n ≤ 9223372036854775807) :
    readDateDigits width n (t ++ rest) = .ok (Nat.ofDigitChars 10 t n, rest) := by
  induction t generalizing width n with
  | nil =>
    rcases width with _ | width
    · rfl
    · have hnone : noDigitAhead rest = true := by simpa using hend
      cases rest with
      | nil => rfl
      | cons c cs =>
        have hc : Text.digit? c = none := by simpa [noDigitAhead] using hnone
        simp only [List.nil_append, readDateDigits, hc]
        rfl
  | cons c cs ih =>
    obtain ⟨hc, hcs⟩ := List.forall_mem_cons.1 ht
    rcases width with _ | width
    · exact absurd hlength (by simp)
    · rw [Nat.ofDigitChars_cons, Nat.mul_comm] at hmax ⊢
      have hle := (le_ofDigitChars cs (n * 10 + (c.toNat - '0'.toNat))).trans hmax
      simp only [List.cons_append, readDateDigits, Text.digit?_of_isDigit hc, if_neg (not_lt.2 hle)]
      exact ih hcs (by simpa using hlength) (by simpa using hend) hmax

theorem readDateNumber_eq {t rest : Text} (ht : ∀ c ∈ t, c.isDigit = true) (hne : t ≠ [])
    {width n : Nat} (hlength : t.length ≤ width)
    (hend : t.length = width ∨ noDigitAhead rest = true) (hn : Nat.ofDigitChars 10 t 0 = n)
    (hmax : n ≤ 9223372036854775807) : readDateNumber width (t ++ rest) = .ok (n, rest) := by
  have hdigits := readDateDigits_eq (n := 0) ht hlength hend (by rwa [hn])
  obtain ⟨c, cs, rfl⟩ := List.exists_cons_of_ne_nil hne
  have hc := Text.digit?_of_isDigit (ht c List.mem_cons_self)
  rw [hn] at hdigits
  simpa [readDateNumber, hc] using hdigits

theorem readDateNumber_ofNatPadded {width n : Nat} (hw : 0 < width) (hwidth : width ≤ 18)
    (h : n < 10 ^ width) (rest : Text) :
    readDateNumber width (Text.ofNatPadded width n ++ rest) = .ok (n, rest) := by
  have hmax : n < 10 ^ 18 := h.trans_le (Nat.pow_le_pow_right (by decide) hwidth)
  have hlength := Text.length_ofNatPadded hw h
  exact readDateNumber_eq (fun c => Text.isDigit_of_mem_ofNatPadded)
    (Text.ofNatPadded_ne_nil width n) hlength.le (Or.inl hlength)
    (Text.ofDigitChars_ofNatPadded width n) (hmax.le.trans (by decide))

/-- A number is read to its end if it has all its digits or if no digit follows. -/
theorem readDateNumber_fill (fill : Fill) {n : Nat} {rest : Text} (h : n < 100)
    (hend : (fill.render 2 n).length = 2 ∨ noDigitAhead rest = true) :
    readDateNumber 2 (fill.render 2 n ++ rest) = .ok (n, rest) := by
  cases fill with
  | none =>
    exact readDateNumber_eq (fun c => Text.isDigit_of_mem_ofNat) (Text.ofNat_ne_nil n)
      (Text.length_ofNat_le (by decide) h) hend (Text.ofDigitChars_ofNat n) (by omega)
  | zeros => exact readDateNumber_ofNatPadded (by decide) (by decide) h rest

theorem readDateFraction_eq {width n : Nat} (hw : 0 < width) (hwidth : width ≤ 18)
    (h : n < 10 ^ width) (rest : Text) :
    readDateFraction width (Text.ofNatPadded width n ++ rest) = .ok (n, rest) := by
  have hlength := Text.length_ofNatPadded hw h
  have hsize := Text.length_le_utf8Size (Text.ofNatPadded width n ++ rest)
  rw [List.length_append, hlength] at hsize
  unfold readDateFraction
  rw [if_neg (by omega), readDateNumber_ofNatPadded hw hwidth h, ok_bind]
  exact if_pos (by rw [List.length_append, hlength, Nat.add_sub_cancel])

theorem isDigit_fill {fill : Fill} {n : Nat} {c : Char} (h : c ∈ fill.render 2 n) :
    c.isDigit = true := by
  cases fill with
  | none => exact Text.isDigit_of_mem_ofNat h
  | zeros => exact Text.isDigit_of_mem_ofNatPadded h

theorem fill_ne_nil (fill : Fill) (n : Nat) : fill.render 2 n ≠ [] := by
  cases fill with
  | none => exact Text.ofNat_ne_nil n
  | zeros => exact Text.ofNatPadded_ne_nil 2 n

/-! ## Years -/

theorem bare_renderYear (year : Int) : (renderYear year).bare = true := by
  unfold renderYear
  split
  · exact Text.bare_of_digits (fun c => Text.isDigit_of_mem_ofNatPadded)
      (Text.ofNatPadded_ne_nil _ _)
  · split <;> rfl

/-- A year is read back: with four digits at the start of anything, and with a sign if no digit
    follows. -/
theorem readDateYear_eq {year : Int} {rest : Text} (h : year.natAbs ≤ 9223372036854775807)
    (hend : (renderYear year).length = 4 ∨ noDigitAhead rest = true) :
    readDateYear (renderYear year ++ rest) = .ok (year, rest) := by
  unfold renderYear at hend ⊢
  split
  · rename_i hyear
    have hread := readDateNumber_ofNatPadded (show 0 < 4 by decide) (by decide)
      (show year.toNat < 10 ^ 4 by omega) rest
    obtain ⟨c, cs, hcs⟩ := List.exists_cons_of_ne_nil (Text.ofNatPadded_ne_nil 4 year.toNat)
    have hc : c.isDigit = true := Text.isDigit_of_mem_ofNatPadded (hcs ▸ List.mem_cons_self)
    have hminus : c ≠ '-' := by
      rintro rfl
      exact absurd hc (by decide)
    have hplus : c ≠ '+' := by
      rintro rfl
      exact absurd hc (by decide)
    rw [hcs, List.cons_append] at hread ⊢
    unfold readDateYear
    split
    · rename_i heq
      exact absurd (List.cons.inj heq).1 hminus
    · rename_i heq
      exact absurd (List.cons.inj heq).1 hplus
    · simp only [hread, Except.map, Int.toNat_of_nonneg hyear.1]
  · rename_i hyear
    rw [if_neg hyear] at hend
    -- a sign and four digits are longer than four
    have hlength : 4 ≤ (Text.ofNatPadded 4 year.natAbs).length := by
      simp only [Text.ofNatPadded, Text.padLeft, List.length_append, List.length_replicate]
      omega
    have hnone : noDigitAhead rest = true := by
      refine hend.resolve_left fun h4 => ?_
      rw [List.length_cons] at h4
      omega
    have hread := readDateNumber_eq (fun c => Text.isDigit_of_mem_ofNatPadded)
      (Text.ofNatPadded_ne_nil 4 year.natAbs)
      (le_of_le_of_eq (Nat.le_add_right _ rest.length) List.length_append.symm) (Or.inr hnone)
      (Text.ofDigitChars_ofNatPadded 4 year.natAbs) h
    split
    · simp only [List.cons_append, readDateYear, hread, Except.map]
      congr 2
      omega
    · simp only [List.cons_append, readDateYear, hread, Except.map]
      congr 2
      omega

/-! ## Names -/

/-- The index of a name by its first three letters. -/
theorem readShortName_eq {names : List String} {t rest : Text} {index : Nat} (ht : t.length = 3)
    (h : (names.findIdx? fun name => (dropWordAnyCase? (name.toList.take 3) t).isSome) =
      some index) : readShortName names (t ++ rest) = .ok (index, rest) := by
  have hsize := Text.length_le_utf8Size (t ++ rest)
  rw [List.length_append, ht] at hsize
  have hsame : ∀ name : String, (dropWordAnyCase? (name.toList.take 3) (t ++ rest)).isSome =
      (dropWordAnyCase? (name.toList.take 3) t).isSome := by
    intro name
    have hle : (name.toList.take 3).length ≤ t.length := by
      rw [List.length_take, ht]
      exact min_le_left _ _
    unfold dropWordAnyCase?
    rw [List.take_append_of_le_length hle]
    split <;> rfl
  unfold readShortName
  simp only [hsame, h]
  rw [if_neg (by omega), List.drop_append_of_le_length ht.ge, List.drop_of_length_le ht.le,
    List.nil_append]

theorem dropWordAnyCase?_append (word rest : Text) :
    dropWordAnyCase? word (word ++ rest) = some rest := by
  simp [dropWordAnyCase?, Text.eqIgnoringCase]

/-- A whole name is read by its first three letters, and the rest of it. -/
theorem readName_eq {names : List String} {rest : Text} {index : Nat}
    (hlength : ((nameAt names index).take 3).length = 3)
    (h : (names.findIdx? fun name =>
      (dropWordAnyCase? (name.toList.take 3) ((nameAt names index).take 3)).isSome) = some index) :
    readName names (nameAt names index ++ rest) = .ok (index, rest) := by
  have hshort : readShortName names (nameAt names index ++ rest) =
      .ok (index, (nameAt names index).drop 3 ++ rest) := by
    conv_lhs => rw [← List.take_append_drop 3 (nameAt names index), List.append_assoc]
    exact readShortName_eq hlength h
  simp only [readName, hshort, ok_bind, dropWordAnyCase?_append]
  rfl

/-- The names of a list begin with three letters that no other name begins with. -/
def Distinct (names : List String) : Prop :=
  ∀ index < names.length, ((nameAt names index).take 3).length = 3 ∧
    (names.findIdx? fun name =>
      (dropWordAnyCase? (name.toList.take 3) ((nameAt names index).take 3)).isSome) = some index

theorem distinct_monthNames : Distinct monthNames := by
  unfold Distinct
  decide

theorem distinct_weekdayNames : Distinct weekdayNames := by
  unfold Distinct
  decide

theorem Distinct.readShortName {names : List String} (h : Distinct names) {index : Nat}
    (hi : index < names.length) (rest : Text) :
    readShortName names ((nameAt names index).take 3 ++ rest) = .ok (index, rest) :=
  readShortName_eq (h index hi).1 (h index hi).2

theorem Distinct.readName {names : List String} (h : Distinct names) {index : Nat}
    (hi : index < names.length) (rest : Text) :
    readName names (nameAt names index ++ rest) = .ok (index, rest) :=
  readName_eq (h index hi).1 (h index hi).2

theorem bare_nameAt :
    (∀ n < monthNames.length, Text.bare ((nameAt monthNames n).take 3) = true ∧
      (nameAt monthNames n).bare = true) ∧
    ∀ n < weekdayNames.length, Text.bare ((nameAt weekdayNames n).take 3) = true ∧
      (nameAt weekdayNames n).bare = true := by
  decide

theorem readHalf_eq (rest : Text) :
    readHalf ('A' :: 'M' :: rest) = .ok (0, rest) ∧
      readHalf ('P' :: 'M' :: rest) = .ok (1, rest) := by
  have hsize : ∀ c, ¬ Text.utf8Size (c :: 'M' :: rest) < 2 := by
    intro c
    have := Text.length_le_utf8Size (c :: 'M' :: rest)
    simp only [List.length_cons] at this
    omega
  unfold readHalf
  rw [if_neg (hsize _), if_neg (hsize _)]
  exact ⟨rfl, rfl⟩

theorem hourOfHalf_mod (hour : Nat) :
    1 ≤ hourOfHalf hour ∧ hourOfHalf hour ≤ 12 ∧ hourOfHalf hour % 12 = hour % 12 := by
  unfold hourOfHalf
  split <;> omega

/-! ## Offsets -/

theorem readOffsetPair_zeros (rest : Text) :
    readOffsetPair ('0' :: '0' :: rest) = .ok (0, 0, rest) := by
  have hsize := Text.length_le_utf8Size ('0' :: '0' :: rest)
  simp only [List.length_cons] at hsize
  unfold readOffsetPair
  rw [if_neg (by omega)]
  rfl

theorem readOffset_zero (separator : Text) (h : ∀ c ∈ separator, c = ':') (rest : Text) :
    readOffset (renderOffset separator 0 ++ rest) = .ok (0, rest) := by
  have hwritten : renderOffset separator 0 ++ rest =
      '+' :: '0' :: '0' :: (separator ++ '0' :: '0' :: rest) := by
    have hpair : Text.ofNatPadded 2 0 = ['0', '0'] := by decide
    simp [renderOffset, hpair]
  have hskip : (separator ++ '0' :: '0' :: rest).dropWhile
      (fun c => decide (c = ':') || Text.isBlank c) = '0' :: '0' :: rest := by
    rw [List.dropWhile_append_of_pos fun c hc => by simp [h c hc]]
    exact List.dropWhile_cons_of_neg (by decide)
  have hsize : readOffsetSize ('0' :: '0' :: (separator ++ '0' :: '0' :: rest)) =
      .ok (0, rest) := by
    simp only [readOffsetSize, readOffsetPair_zeros, ok_bind, hskip]
    rfl
  have htrim : Text.trimStart ('+' :: '0' :: '0' :: (separator ++ '0' :: '0' :: rest)) =
      '+' :: '0' :: '0' :: (separator ++ '0' :: '0' :: rest) :=
    List.dropWhile_cons_of_neg (by decide)
  simp only [readOffset, hwritten, htrim, hsize, if_true]
  rfl

/-! ## Fields -/

namespace Field

/-- The field, as it is written for a moment, is read to its end and no further when `rest` follows:
    a number has all the digits that are read for it, or no digit follows, and the name of a zone is
    followed by a blank. -/
def endsBefore (z : Zoned) (f : Field) (rest : Text) : Bool :=
  match f with
  | .year => (f.render z).length = 4 || noDigitAhead rest
  | .month _ | .day _ | .hour _ | .hourOfHalf _ | .minute _ | .second _ =>
    (f.render z).length = 2 || noDigitAhead rest
  | .zoneAbbreviation => rest.head?.all Text.isBlank
  | _ => true

/-- The nanoseconds that a field of a fraction shows; other fields show their parts in full. -/
def unit : Field → Int
  | .milliseconds => 1000000
  | .microseconds => 1000
  | _ => 1

/-- A part of a moment, down to the unit that a field shows. -/
def shown (f : Field) (m : Moment) (s : Slot) : Int := m.part s / f.unit * f.unit

/-- What a field that is written for a moment of universal time tells. -/
def tells (m : Moment) (f : Field) : List (Slot × Int) := f.slots.map fun s => (s, f.shown m s)

/-- No field is written as nothing or with a blank before it. -/
theorem bare_render (m : Moment) (f : Field) : (f.render ⟨m, .utc⟩).bare = true := by
  have hmonth : m.date.month - 1 < monthNames.length := by
    have := m.date.month_le
    change m.date.month - 1 < 12
    omega
  have hweekday : m.date.weekday < weekdayNames.length := Nat.lt_succ_of_le m.date.weekday_le
  have hfill : ∀ (fill : Fill) (n : Nat), (fill.render 2 n).bare = true := fun fill n =>
    Text.bare_of_digits (fun c => isDigit_fill) (fill_ne_nil fill n)
  have hfixed : ∀ width n : Nat, (Text.ofNatPadded width n).bare = true := fun width n =>
    Text.bare_of_digits (fun c => Text.isDigit_of_mem_ofNatPadded) (Text.ofNatPadded_ne_nil width n)
  cases f <;> simp only [render, Zoned.reading_utc, Zoned.offset_utc, Zoned.abbreviation_utc, hfill,
    hfixed, bare_renderYear, bare_nameAt.1 _ hmonth, bare_nameAt.2 _ hweekday]
  case half => split <;> rfl
  all_goals rfl

/-- A number that is admitted tells its parts. -/
theorem scan_number {α : Type} {f : Field} (value : α → Int) {x : Except DateFault (α × Text)}
    {a : α} {rest : Text} {tells : List (Slot × Int)} (hx : x = .ok (a, rest))
    (h : f.ofNumber (value a) = .ok tells) :
    (x >>= fun (n, t) => f.ofNumber (value n) >>= fun tells => pure (tells, t)) =
      .ok (tells, rest) := by
  rw [hx, ok_bind]
  simp only [h, ok_bind]
  rfl

/-- One or two digits, as the fill wants them. -/
theorem scan_fill {m : Moment} {f : Field} {rest : Text} (fill : Fill) (n : Nat)
    (hrender : f.render ⟨m, .utc⟩ = fill.render 2 n) (hn : n < 100)
    (hend : ((f.render ⟨m, .utc⟩).length = 2 || noDigitAhead rest) = true)
    (hnumber : f.ofNumber n = .ok (f.tells m)) :
    (readDateNumber 2 (Text.trimStart (f.render ⟨m, .utc⟩ ++ rest)) >>= fun (n, t) =>
      f.ofNumber n >>= fun tells => pure (tells, t)) = .ok (f.tells m, rest) := by
  refine scan_number (fun n : Nat => (n : Int)) ?_ hnumber
  rw [Text.trimStart_bare (bare_render m f), hrender]
  rw [hrender] at hend
  exact readDateNumber_fill fill hn (by simpa using hend)

/-- A fixed number of digits. -/
theorem scan_fixed {m : Moment} {f : Field} {rest : Text} (width n : Nat)
    (hrender : f.render ⟨m, .utc⟩ = Text.ofNatPadded width n) (hw : 0 < width)
    (hwidth : width ≤ 18) (hn : n < 10 ^ width) (hnumber : f.ofNumber n = .ok (f.tells m)) :
    (readDateNumber width (Text.trimStart (f.render ⟨m, .utc⟩ ++ rest)) >>= fun (n, t) =>
      f.ofNumber n >>= fun tells => pure (tells, t)) = .ok (f.tells m, rest) := by
  refine scan_number (fun n : Nat => (n : Int)) ?_ hnumber
  rw [Text.trimStart_bare (bare_render m f), hrender, readDateNumber_ofNatPadded hw hwidth hn]

/-- The number that is written for a field is admitted. -/
theorem ofNumber_eq {low high value : Int} {told : Int → List (Slot × Int)}
    {tells : List (Slot × Int)} (h₁ : low ≤ value) (h₂ : value ≤ high) (h : told value = tells) :
    (partWithin low high value).map told = .ok tells := by
  rw [partWithin, if_pos ⟨h₁, h₂⟩, Except.map, h]

/-- **A field that is read to its end tells what was written.** -/
theorem scan_render {m : Moment} (hm : m.inRange = true) {f : Field} {rest : Text}
    (hend : f.endsBefore ⟨m, .utc⟩ rest = true) :
    f.scan (f.render ⟨m, .utc⟩ ++ rest) = .ok (f.tells m, rest) := by
  have hyear := Moment.year_bounds hm
  simp only [Date.minYear, Date.maxYear] at hyear
  have hmonth := m.date.month_pos
  have hmonth' := m.date.month_le
  have hday := m.date.day_pos
  have hday' := m.date.day_le_31
  have hordinal := m.date.ordinal_pos
  have hordinal' := m.date.ordinal_le_366
  have hweekday := m.date.weekday_le
  have hhour := m.hour_le
  have hminute := m.minute_le
  have hsecond := m.secondOfMinute_le
  have hnano : m.nano % nanosPerSecond < 1000000000 := Nat.mod_lt _ (by decide)
  cases f with
  | year =>
    refine scan_number (fun n : Int => n) (a := m.date.year) ?_
      (ofNumber_eq (by omega) (by omega) (by simp [tells, slots, shown, unit, Moment.part]))
    rw [Text.trimStart_bare (bare_render m .year)]
    simp only [endsBefore, render, Zoned.reading_utc, Bool.or_eq_true, decide_eq_true_eq] at hend ⊢
    exact readDateYear_eq (by omega) hend
  | yearOfCentury =>
    refine scan_fixed 2 (m.date.year % 100).toNat (by simp [render]) (by decide) (by decide)
      (by omega) (ofNumber_eq (by omega) (by omega) ?_)
    simp [tells, slots, shown, unit, Moment.part]
    omega
  | month fill =>
    exact scan_fill fill m.date.month (by simp [render]) (by omega) hend
      (ofNumber_eq (by omega) (by omega) (by simp [tells, slots, shown, unit, Moment.part]))
  | day fill =>
    exact scan_fill fill m.date.day (by simp [render]) (by omega) hend
      (ofNumber_eq (by omega) (by omega) (by simp [tells, slots, shown, unit, Moment.part]))
  | dayOfYear =>
    exact scan_fixed 3 m.date.ordinal (by simp [render]) (by decide) (by decide) (by omega)
      (ofNumber_eq (by omega) (by omega) (by simp [tells, slots, shown, unit, Moment.part]))
  | hour fill =>
    exact scan_fill fill m.hour (by simp [render]) (by omega) hend
      (ofNumber_eq (by omega) (by omega) (by simp [tells, slots, shown, unit, Moment.part]))
  | hourOfHalf fill =>
    obtain ⟨h₁, h₂, hmod⟩ := hourOfHalf_mod m.hour
    refine scan_fill fill (Recordsmith.hourOfHalf m.hour) (by simp [render]) (by omega) hend
      (ofNumber_eq (by omega) (by omega) ?_)
    simp [tells, slots, shown, unit, Moment.part]
    omega
  | minute fill =>
    exact scan_fill fill m.minute (by simp [render]) (by omega) hend
      (ofNumber_eq (by omega) (by omega) (by simp [tells, slots, shown, unit, Moment.part]))
  | second fill =>
    have hleap : m.secondOfMinute + m.nano / nanosPerSecond ≤ 60 := by
      have := m.nano_lt
      rw [nanosPerSecond]
      omega
    exact scan_fill fill (m.secondOfMinute + m.nano / nanosPerSecond) (by simp [render]) (by omega)
      hend (ofNumber_eq (Int.natCast_nonneg _) (by exact_mod_cast hleap)
        (by simp [tells, slots, shown, unit, Moment.part]))
  | milliseconds =>
    refine scan_number (fun n : Nat => (n : Int) * 1000000)
      (a := m.nano % nanosPerSecond / 1000000) ?_
      (ofNumber_eq (by omega) (by omega) (by simp [tells, slots, shown, unit, Moment.part]))
    simp only [render, Zoned.reading_utc]
    exact readDateFraction_eq (by decide) (by decide) (by omega) rest
  | microseconds =>
    refine scan_number (fun n : Nat => (n : Int) * 1000) (a := m.nano % nanosPerSecond / 1000) ?_
      (ofNumber_eq (by omega) (by omega) (by simp [tells, slots, shown, unit, Moment.part]))
    simp only [render, Zoned.reading_utc]
    exact readDateFraction_eq (by decide) (by decide) (by omega) rest
  | nanoseconds =>
    refine scan_number (fun n : Nat => (n : Int)) (a := m.nano % nanosPerSecond) ?_
      (ofNumber_eq (by omega) (by omega) (by simp [tells, slots, shown, unit, Moment.part]))
    simp only [render, Zoned.reading_utc]
    exact readDateFraction_eq (by decide) (by decide) (by omega) rest
  | half =>
    obtain ⟨ham, hpm⟩ := readHalf_eq rest
    simp only [scan, render, Zoned.reading_utc]
    split
    · rw [List.cons_append, List.cons_append, List.nil_append, ham]
      simp [Except.map, tells, slots, shown, unit, Moment.part]
      omega
    · rw [List.cons_append, List.cons_append, List.nil_append, hpm]
      simp [Except.map, tells, slots, shown, unit, Moment.part]
      omega
  | monthAbbreviated =>
    have hread := distinct_monthNames.readShortName (show m.date.month - 1 < 12 by omega) rest
    simp only [scan, render, Zoned.reading_utc, hread, Except.map]
    simp [tells, slots, shown, unit, Moment.part]
    omega
  | monthName =>
    have hread := distinct_monthNames.readName (show m.date.month - 1 < 12 by omega) rest
    simp only [scan, render, Zoned.reading_utc, hread, Except.map]
    simp [tells, slots, shown, unit, Moment.part]
    omega
  | weekdayAbbreviated =>
    have hread := distinct_weekdayNames.readShortName (show m.date.weekday < 7 by omega) rest
    simp only [scan, render, Zoned.reading_utc, hread, Except.map]
    simp [tells, slots, shown, unit, Moment.part]
  | weekdayName =>
    have hread := distinct_weekdayNames.readName (show m.date.weekday < 7 by omega) rest
    simp only [scan, render, Zoned.reading_utc, hread, Except.map]
    simp [tells, slots, shown, unit, Moment.part]
  | offset =>
    simp only [scan, render, Zoned.offset_utc, readOffset_zero [] (by simp), Except.map]
    simp [tells, slots, shown, unit, Moment.part]
  | offsetWithColon =>
    simp only [scan, render, Zoned.offset_utc, readOffset_zero [':'] (by simp), Except.map]
    simp [tells, slots, shown, unit, Moment.part]
  | zoneAbbreviation =>
    have hrest : rest.dropWhile (fun c => !Text.isBlank c) = rest := by
      cases rest with
      | nil => rfl
      | cons c cs => exact List.dropWhile_cons_of_neg (by simpa [endsBefore] using hend)
    have hbare : ∀ c ∈ ['U', 'T', 'C'], (!Text.isBlank c) = true := by
      intro c hc
      fin_cases hc <;> rfl
    simp only [scan, render, Zoned.abbreviation_utc, List.dropWhile_append_of_pos hbare, hrest]
    rfl

end Field

/-! ## Items -/

theorem readDateLiteral_append (literal rest : Text) :
    readDateLiteral literal (literal ++ rest) = .ok rest := by
  unfold readDateLiteral
  rw [Text.utf8Size_append, if_neg (by omega), Text.dropWord?_append]

/-- Literal text begins with no blank, and white space is blank. -/
def Item.Proper : Item → Prop
  | .literal t => t.bare = true
  | .space t => Text.Blank t
  | .invalid => False
  | _ => True

namespace Format

theorem proper_consLiteral {c : Char} {items : List Item} (hc : Text.isBlank c = false)
    (h : ∀ i ∈ items, i.Proper) : ∀ i ∈ consLiteral c items, i.Proper := by
  have hbare : ∀ t : Text, Text.bare (c :: t) = true := by simp [Text.bare, hc]
  unfold consLiteral
  split
  · exact List.forall_mem_cons.2 ⟨hbare _, (List.forall_mem_cons.1 h).2⟩
  · exact List.forall_mem_cons.2 ⟨hbare [], h⟩

theorem proper_consSpace {c : Char} {items : List Item} (hc : Text.isBlank c = true)
    (h : ∀ i ∈ items, i.Proper) : ∀ i ∈ consSpace c items, i.Proper := by
  unfold consSpace
  split
  · obtain ⟨hblank, hitems⟩ := List.forall_mem_cons.1 h
    exact List.forall_mem_cons.2 ⟨List.forall_mem_cons.2 ⟨hc, hblank⟩, hitems⟩
  · exact List.forall_mem_cons.2 ⟨by simpa [Item.Proper, Text.Blank] using hc, h⟩

/-- Format text without directives that have no meaning is scanned as proper items. -/
theorem proper_itemsFrom (fuel : Nat) (format : Text) (h : .invalid ∉ itemsFrom fuel format) :
    ∀ i ∈ itemsFrom fuel format, i.Proper := by
  fun_induction itemsFrom fuel format with
  | case1 | case2 => exact List.forall_mem_nil _
  | case3 fuel rest ih =>
    exact List.forall_mem_cons.2 ⟨trivial, ih fun hr => h (List.mem_cons_of_mem _ hr)⟩
  | case4 fuel rest _ f rest' _ ih =>
    exact List.forall_mem_cons.2 ⟨trivial, ih fun hr => h (List.mem_cons_of_mem _ hr)⟩
  | case5 => exact absurd List.mem_cons_self h
  | case6 fuel c rest _ _ hc ih =>
    exact proper_consSpace hc (ih fun hr => h (invalid_mem_consSpace.2 hr))
  | case7 fuel c rest _ _ hc ih =>
    exact proper_consLiteral (by simpa using hc) (ih fun hr => h (invalid_mem_consLiteral.2 hr))

end Format

/-- The items of a compiled pattern are proper. -/
theorem Pattern.proper_of_compile {source : Text} {p : Pattern} (h : compile source = .ok p) :
    ∀ i ∈ p.items, i.Proper :=
  Format.proper_itemsFrom _ _ (not_invalid_mem_items (compile_eq_ok_iff.1 h).1)

/-- What an item that is written for a moment of universal time tells. -/
def Item.tells (m : Moment) : Item → List (Slot × Int)
  | .field f => f.tells m
  | _ => []

namespace Item

variable (z : Zoned)

theorem render_field (f : Field) : (Item.field f).render z = f.render z := rfl

theorem render_literal (t : Text) : (Item.literal t).render z = t := rfl

theorem render_percent : Item.percent.render z = ['%'] := rfl

theorem render_space (t : Text) : (Item.space t).render z = t := rfl

end Item

/-- Each field of the items, as they are written for a moment, ends before the next item. -/
def separate (z : Zoned) : List Item → Bool
  | [] => true
  | .field f :: items => f.endsBefore z (items.flatMap (·.render z)) && separate z items
  | _ :: items => separate z items

/-- Blanks before items that were written are not missed. -/
theorem scanItems_trimStart {m : Moment} {items : List Item} (h : ∀ i ∈ items, i.Proper) :
    scanItems items (Text.trimStart (items.flatMap (·.render ⟨m, .utc⟩))) =
      scanItems items (items.flatMap (·.render ⟨m, .utc⟩)) := by
  cases items with
  | nil => rfl
  | cons item items =>
    have hitem := h item List.mem_cons_self
    rw [List.flatMap_cons]
    cases item with
    | field f => rw [Item.render, Text.trimStart_bare (Field.bare_render m f)]
    | literal literal => rw [Item.render, Text.trimStart_bare hitem]
    | percent => rw [Item.render, Text.trimStart_bare rfl]
    | space blanks => simp only [scanItems, Text.trimStart, List.dropWhile_idempotent]
    | invalid => exact absurd hitem id

/-- **Items that were written tell what was written.** -/
theorem scanItems_render {m : Moment} (hm : m.inRange = true) {items : List Item}
    (hproper : ∀ i ∈ items, i.Proper) (hseparate : separate ⟨m, .utc⟩ items = true) :
    scanItems items (items.flatMap (·.render ⟨m, .utc⟩)) = .ok (items.flatMap (·.tells m)) := by
  induction items with
  | nil => rfl
  | cons item items ih =>
    obtain ⟨hitem, hitems⟩ := List.forall_mem_cons.1 hproper
    rw [List.flatMap_cons, List.flatMap_cons]
    cases item with
    | field f =>
      obtain ⟨hend, hseparate⟩ := Bool.and_eq_true_iff.1 hseparate
      simp only [scanItems, Item.render_field, Field.scan_render hm hend, ok_bind,
        ih hitems hseparate]
      rfl
    | literal literal =>
      simp only [scanItems, Item.render_literal, readDateLiteral_append, ok_bind]
      exact ih hitems hseparate
    | percent =>
      simp only [scanItems, Item.render_percent, readDateLiteral_append, ok_bind]
      exact ih hitems hseparate
    | space blanks =>
      have hskip : ∀ rest, Text.trimStart (blanks ++ rest) = Text.trimStart rest := fun rest =>
        List.dropWhile_append_of_pos hitem
      simp only [scanItems, Item.render_space, hskip, scanItems_trimStart hitems]
      exact ih hitems hseparate
    | invalid => exact absurd hitem id

end Recordsmith
