import Mathlib.Tactic
import Recordsmith.Csv

/-!
# Reading CSV lines

* `Csv.Reader` reads a line by the grammar of RFC 4180: a field stands between quotes, with its own
  quotes doubled, or it is a text without quotes, delimiters and line breaks;
* `Csv.read?` are the fields of a line;
* `Csv.read?_line`: what is read from a written line are the fields that were written.
-/

namespace Recordsmith.Csv

/-! ## Readers -/

/-- Where a reader stands in a field. -/
inductive Place where
  | first
  /-- After a character that stands for itself. -/
  | bare
  | quoted
  /-- After a quote that closes the field, unless another one follows. -/
  | closed
deriving DecidableEq

/-- A reader of a line: the fields before, the last one first, and the reversed start of a field. -/
structure Reader where
  fields : List Text
  field : Text
  place : Place

namespace Reader

/-- Before the first field. -/
def start : Reader := ⟨[], [], .first⟩

/-- After a delimiter. -/
def next (r : Reader) : Reader := ⟨r.field.reverse :: r.fields, [], .first⟩

/-- Reads a character; none if it cannot stand there. -/
def step (delimiter : Char) (r : Reader) (c : Char) : Option Reader :=
  match r.place with
  | .quoted =>
    if c = '"' then some { r with place := .closed } else some { r with field := c :: r.field }
  | .closed =>
    if c = '"' then some { r with field := c :: r.field, place := .quoted }
    else if c = delimiter then some r.next
    else none
  | .first | .bare =>
    if c = '"' then if r.place = .first then some { r with place := .quoted } else none
    else if c = delimiter then some r.next
    else if c = '\r' ∨ c = '\n' then none
    else some { r with field := c :: r.field, place := .bare }

/-- Reads a text. -/
def through (delimiter : Char) (r : Reader) (t : Text) : Option Reader :=
  t.foldlM (step delimiter) r

/-- The fields at the end of a line; none if a quote is missing. -/
def finish? (r : Reader) : Option (List Text) :=
  if r.place = .quoted then none else some r.next.fields.reverse

end Reader

/-- The fields of a line. A line without a character has none. -/
def read? (delimiter : Char) (t : Text) : Option (List Text) :=
  if t.isEmpty then none else (Reader.start.through delimiter t).bind Reader.finish?

/-! ## Fields -/

/-- A character that can be part of a field without quotes. -/
def Bare (delimiter c : Char) : Prop := c ≠ '"' ∧ c ≠ delimiter ∧ c ≠ '\r' ∧ c ≠ '\n'

theorem utf8EncodeChar_of_lt {c : Char} (h : c.toNat < 128) :
    String.utf8EncodeChar c = [UInt8.ofNat c.toNat] := by
  unfold String.utf8EncodeChar
  exact if_pos (Nat.lt_succ_iff.1 h)

/-- What stands without quotes needs none. -/
theorem bare_of_needsQuotes {d : Char} (hd : d.toNat < 128) {field : Text}
    (h : needsQuotes (UInt8.ofNat d.toNat) field = false) : ∀ c ∈ field, Bare d c := by
  intro c hc
  have hbytes : ∀ b ∈ String.utf8EncodeChar c, isSpecial (UInt8.ofNat d.toNat) b = false := by
    intro b hb
    exact Bool.eq_false_iff.2 (List.any_eq_false.1 h b (List.mem_flatMap.2 ⟨c, hc, hb⟩))
  have hascii : c.toNat < 128 → isSpecial (UInt8.ofNat d.toNat) (UInt8.ofNat c.toNat) = false := by
    intro hlt
    exact hbytes _ (utf8EncodeChar_of_lt hlt ▸ List.mem_singleton_self _)
  refine ⟨?_, ?_, ?_, ?_⟩
  all_goals
    rintro rfl
    have hspecial := hascii (by first | exact hd | decide)
    simp [isSpecial] at hspecial

namespace Reader

variable {d : Char}

theorem through_append (r : Reader) (t u : Text) :
    r.through d (t ++ u) = (r.through d t).bind fun r' => r'.through d u := List.foldlM_append

/-- The reader has read a field after others. -/
def Holds (r : Reader) (before : List Text) (field : Text) : Prop :=
  r.fields = before ∧ r.field = field.reverse ∧ r.place ≠ .quoted

theorem Holds.next {r : Reader} {before : List Text} {field : Text} (h : r.Holds before field) :
    r.next = ⟨field :: before, [], .first⟩ := by
  obtain ⟨hfields, hfield, -⟩ := h
  simp [Reader.next, hfields, hfield]

theorem Holds.step {r : Reader} {before : List Text} {field : Text} (h : r.Holds before field)
    (hd : d ≠ '"') : r.step d d = some ⟨field :: before, [], .first⟩ := by
  rw [← h.next]
  unfold Reader.step
  rcases hp : r.place with _ | _ | _ | _
  · simp [hd]
  · simp [hd]
  · exact absurd hp h.2.2
  · simp [hd]

theorem Holds.finish? {r : Reader} {before : List Text} {field : Text} (h : r.Holds before field) :
    r.finish? = some (before.reverse ++ [field]) := by
  unfold Reader.finish?
  rw [if_neg h.2.2, h.next, List.reverse_cons]

/-- Characters that need no quotes stand for themselves. -/
theorem through_bare {field : Text} (h : ∀ c ∈ field, Bare d c) (before : List Text) :
    ∀ start : Text, (⟨before, start, .bare⟩ : Reader).through d field =
      some ⟨before, field.reverse ++ start, .bare⟩ := by
  induction field with
  | nil => exact fun _ => rfl
  | cons c rest ih =>
    intro start
    obtain ⟨⟨hquote, hdelim, hcr, hlf⟩, hrest⟩ := List.forall_mem_cons.1 h
    have hstep : (⟨before, start, .bare⟩ : Reader).step d c =
        some ⟨before, c :: start, .bare⟩ := by
      simp [step, hquote, hdelim, hcr, hlf]
    have hrest := ih hrest (c :: start)
    rw [List.reverse_cons, List.append_assoc]
    unfold through at hrest ⊢
    rw [List.foldlM_cons, hstep]
    exact hrest

/-- Between quotes all characters stand for themselves, and quotes are doubled. -/
theorem through_quoted (before : List Text) (field : Text) : ∀ start : Text,
    (⟨before, start, .quoted⟩ : Reader).through d
        ((field.flatMap fun c => if c = '"' then ['"', '"'] else [c]) ++ ['"']) =
      some ⟨before, field.reverse ++ start, .closed⟩ := by
  induction field with
  | nil => exact fun _ => rfl
  | cons c rest ih =>
    intro start
    have hstep : (⟨before, start, .quoted⟩ : Reader).through d
        (if c = '"' then ['"', '"'] else [c]) = some ⟨before, c :: start, .quoted⟩ := by
      by_cases hc : c = '"'
      · simp [through, step, hc]
      · simp [through, step, hc]
    rw [List.flatMap_cons, List.append_assoc, through_append, hstep]
    have := ih (c :: start)
    simpa using this

/-- **A written field is read as it was**, at the start of a line or after a delimiter. -/
theorem through_writeField (hd : d.toNat < 128) (before : List Text) (field : Text) :
    ∃ r, (⟨before, [], .first⟩ : Reader).through d (writeField (UInt8.ofNat d.toNat) field) =
        some r ∧
      r.Holds before field := by
  unfold writeField
  cases hq : needsQuotes (UInt8.ofNat d.toNat) field with
  | true =>
    refine ⟨⟨before, field.reverse ++ [], .closed⟩, through_quoted before field [], rfl,
      by simp, ?_⟩
    exact nofun
  | false =>
    rcases field with _ | ⟨c, rest⟩
    · exact ⟨_, rfl, rfl, rfl, nofun⟩
    · obtain ⟨⟨hquote, hdelim, hcr, hlf⟩, hrest⟩ :=
        List.forall_mem_cons.1 (bare_of_needsQuotes hd hq)
      have hstep : (⟨before, [], .first⟩ : Reader).step d c = some ⟨before, [c], .bare⟩ := by
        simp [step, hquote, hdelim, hcr, hlf]
      refine ⟨⟨before, rest.reverse ++ [c], .bare⟩, ?_, rfl, by simp, nofun⟩
      have := through_bare hrest before [c]
      simpa [through, hstep] using this

/-! ## Lines -/

/-- Fields with delimiters between them are read one after the other. -/
theorem through_join (hd : d.toNat < 128) (hquote : d ≠ '"') : ∀ {fields : List Text},
    fields ≠ [] → ∀ before : List Text, ∃ r,
      (⟨before, [], .first⟩ : Reader).through d
        (Text.join [d] (fields.map (writeField (UInt8.ofNat d.toNat)))) = some r ∧
      r.finish? = some (before.reverse ++ fields)
  | [], h, _ => absurd rfl h
  | [field], _, before => by
    obtain ⟨r, hr, hholds⟩ := through_writeField hd before field
    exact ⟨r, hr, hholds.finish?⟩
  | field :: other :: rest, _, before => by
    obtain ⟨r, hr, hholds⟩ := through_writeField hd before field
    obtain ⟨r', hr', hfinish⟩ :=
      through_join hd hquote (List.cons_ne_nil other rest) (field :: before)
    refine ⟨r', ?_, by simpa using hfinish⟩
    simp only [List.map_cons, Text.join]
    rw [List.append_assoc, through_append, hr, Option.bind_some, through_append]
    have hdelim : r.through d [d] = some ⟨field :: before, [], .first⟩ := by
      simp [through, hholds.step hquote]
    rw [hdelim]
    exact hr'

end Reader

/-- The delimiter of a line is the character of its byte. -/
theorem delimiterChar_of_lt {d : Char} (hd : d.toNat < 128) :
    delimiterChar (UInt8.ofNat d.toNat) = d := by
  have hbyte : (UInt8.ofNat d.toNat).toNat = d.toNat := by
    rw [UInt8.toNat_ofNat']
    omega
  have hlt : UInt8.ofNat d.toNat < 128 := by
    rw [UInt8.lt_iff_toNat_lt, hbyte]
    exact hd
  rw [delimiterChar, if_pos hlt, hbyte, Char.ofNat_toNat]

/-- **What is read from a line are the fields that were written.** -/
theorem read?_line {d : Char} (hd : d.toNat < 128) (hquote : d ≠ '"') {fields : List Text}
    (h : fields ≠ []) : read? d (line (UInt8.ofNat d.toNat) fields) = some fields := by
  obtain ⟨r, hr, hfinish⟩ := Reader.through_join hd hquote h []
  rw [List.reverse_nil, List.nil_append] at hfinish
  unfold line
  dsimp only
  rw [delimiterChar_of_lt hd]
  split
  · -- a line without a character stands for one empty field
    rename_i hempty
    rw [List.isEmpty_iff.1 hempty] at hr
    obtain rfl : Reader.start = r := Option.some.inj hr
    rw [← hfinish]
    simp [read?, Reader.through, Reader.step, Reader.start, Reader.finish?, Reader.next]
  · rw [read?, if_neg ‹_›]
    exact (congrArg (Option.bind · Reader.finish?) hr).trans hfinish

/-- Delimiters, quotes and line breaks in fields, and fields without a character. -/
example : read? ';' (line 59 [[], "a;b".toList, "c\"d".toList, "e\nf".toList]) =
    some [[], "a;b".toList, "c\"d".toList, "e\nf".toList] := by decide

end Recordsmith.Csv
