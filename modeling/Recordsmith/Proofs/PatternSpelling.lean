import Mathlib.Tactic
import Recordsmith.Pattern.Render

/-!
# What patterns show

A pattern is turned into format text, which is scanned again whenever a date is written. Here both
scans are compared with what the pattern says, read once from left to right.

* `Mark` is what a pattern shows at one place: a field of the date, or a character;
* `Format.marks_items`: format text made of marks is scanned as these marks, so that no literal
  character becomes a part of a directive;
* `Pattern.Reads` reads a pattern as runs of one letter and characters, and tells whether its quoted
  runs are closed;
* `Pattern.compile_exact`: the patterns that compile are those whose quoted runs are closed and
  whose letters have fields, and each of them shows its runs and characters one after the other.
-/

namespace Recordsmith

/-! ## Marks -/

/-- What a pattern shows at one place: a field of the date, or a character. -/
inductive Mark where
  | field (f : Field)
  | character (c : Char)

namespace Mark

/-- The mark in format text. -/
def format : Mark → Text
  | field f => '%' :: f.directive
  | character c => Pattern.literal c

/-- What the mark shows of a zoned moment. -/
def render (z : Zoned) : Mark → Text
  | field f => f.render z
  | character c => [c]

end Mark

/-- The marks of an item of format text. -/
def Item.marks : Item → List Mark
  | .field f => [.field f]
  | .literal t => t.map .character
  | .percent => [.character '%']
  | .space t => t.map .character
  | .invalid => []

theorem Mark.flatMap_render_character (z : Zoned) (t : Text) :
    (t.map Mark.character).flatMap (Mark.render z) = t := by
  induction t with
  | nil => rfl
  | cons c t ih => exact congrArg (c :: ·) ih

theorem Item.render_eq (z : Zoned) (i : Item) : i.render z = i.marks.flatMap (Mark.render z) := by
  cases i with
  | field f => exact (List.append_nil _).symm
  | literal t => exact (Mark.flatMap_render_character z t).symm
  | percent => rfl
  | space t => exact (Mark.flatMap_render_character z t).symm
  | invalid => rfl

/-! ## Scanning format text -/

namespace Format

/-- No directive is a percent sign, so that a field is not taken for one. -/
theorem itemsFrom_directive (fuel : Nat) (f : Field) (rest : Text) :
    itemsFrom (fuel + 1) ('%' :: (f.directive ++ rest)) = .field f :: itemsFrom fuel rest := by
  cases f with
  | month fill | day fill | hour fill | hourOfHalf fill | minute fill | second fill =>
    cases fill <;> rfl
  | _ => rfl

theorem itemsFrom_percent (fuel : Nat) (rest : Text) :
    itemsFrom (fuel + 1) ('%' :: '%' :: rest) = .percent :: itemsFrom fuel rest := rfl

theorem itemsFrom_character (fuel : Nat) {c : Char} (hc : c ≠ '%') (rest : Text) :
    itemsFrom (fuel + 1) (c :: rest) =
      if Text.isBlank c then consSpace c (itemsFrom fuel rest)
      else consLiteral c (itemsFrom fuel rest) := by
  conv_lhs => unfold itemsFrom
  split
  · contradiction
  · contradiction
  · rename_i htext
    exact absurd (List.cons.inj htext).1 hc
  · rename_i htext
    exact absurd (List.cons.inj htext).1 hc
  · rename_i hfuel htext
    cases hfuel
    cases htext
    rfl

theorem marks_consLiteral (c : Char) (items : List Item) :
    (consLiteral c items).flatMap Item.marks = .character c :: items.flatMap Item.marks := by
  unfold consLiteral
  split <;> rfl

theorem marks_consSpace (c : Char) (items : List Item) :
    (consSpace c items).flatMap Item.marks = .character c :: items.flatMap Item.marks := by
  unfold consSpace
  split <;> rfl

theorem invalid_mem_consLiteral {c : Char} {items : List Item} :
    .invalid ∈ consLiteral c items ↔ .invalid ∈ items := by
  unfold consLiteral
  split <;> simp

theorem invalid_mem_consSpace {c : Char} {items : List Item} :
    .invalid ∈ consSpace c items ↔ .invalid ∈ items := by
  unfold consSpace
  split <;> simp

/-- The scan of one mark leaves the rest of the format text to the scan that follows. -/
theorem itemsFrom_mark (fuel : Nat) (m : Mark) (rest : Text) :
    (itemsFrom (fuel + 1) (m.format ++ rest)).flatMap Item.marks =
        m :: (itemsFrom fuel rest).flatMap Item.marks ∧
      (.invalid ∈ itemsFrom (fuel + 1) (m.format ++ rest) ↔ .invalid ∈ itemsFrom fuel rest) := by
  cases m with
  | field f =>
    rw [Mark.format, List.cons_append, itemsFrom_directive]
    exact ⟨rfl, by simp⟩
  | character c =>
    rw [Mark.format, Pattern.literal]
    split_ifs with hc
    · subst hc
      rw [List.cons_append, List.cons_append, List.nil_append, itemsFrom_percent]
      exact ⟨rfl, by simp⟩
    · rw [List.singleton_append, itemsFrom_character fuel hc]
      split
      · exact ⟨marks_consSpace c _, invalid_mem_consSpace⟩
      · exact ⟨marks_consLiteral c _, invalid_mem_consLiteral⟩

theorem format_length_pos (m : Mark) : 0 < m.format.length := by
  cases m with
  | field f => exact Nat.succ_pos _
  | character c =>
    rw [Mark.format, Pattern.literal]
    split <;> simp

theorem itemsFrom_marks (marks : List Mark) : ∀ fuel, (marks.flatMap Mark.format).length ≤ fuel →
    (itemsFrom fuel (marks.flatMap Mark.format)).flatMap Item.marks = marks ∧
      .invalid ∉ itemsFrom fuel (marks.flatMap Mark.format) := by
  induction marks with
  | nil =>
    intro fuel _
    cases fuel <;> exact ⟨rfl, List.not_mem_nil⟩
  | cons m marks ih =>
    intro fuel hfuel
    have hpos := format_length_pos m
    rw [List.flatMap_cons, List.length_append] at hfuel
    obtain ⟨fuel, rfl⟩ : ∃ n, fuel = n + 1 := ⟨fuel - 1, by omega⟩
    obtain ⟨hmarks, hvalid⟩ := ih fuel (by omega)
    obtain ⟨hfirst, hinvalid⟩ := itemsFrom_mark fuel m (marks.flatMap Mark.format)
    rw [List.flatMap_cons]
    exact ⟨by rw [hfirst, hmarks], fun h => hvalid (hinvalid.1 h)⟩

/-- **Format text made of marks is scanned as these marks.** -/
theorem marks_items (marks : List Mark) :
    (items (marks.flatMap Mark.format)).flatMap Item.marks = marks ∧
      .invalid ∉ items (marks.flatMap Mark.format) :=
  itemsFrom_marks marks _ le_rfl

end Format

/-! ## Reading patterns -/

namespace Pattern

/-- A part of a pattern: a run of one letter, or a character that stands for itself. -/
inductive Part where
  | letters (letter : Char) (run : Nat)
  | character (c : Char)

/-- What a part shows; a run of a letter without fields shows nothing. -/
def Part.mark? : Part → Option Mark
  | letters letter run => (Field.ofLetters? letter run).map .field
  | character c => some (.character c)

/-- The letters that have fields. -/
def fieldLetters : List Char :=
  ['y', 'u', 'M', 'L', 'd', 'D', 'H', 'h', 'm', 's', 'S', 'a', 'E', 'Z', 'x', 'X', 'z']

/-- A text as it is written inside quotes: each apostrophe twice. -/
def doubled (t : Text) : Text := t.flatMap fun c => if c = '\'' then ['\'', '\''] else [c]

/-- Read from left to right, the pattern has these parts; `closed` tells whether its quoted runs are
    closed. An apostrophe that is not doubled opens a quoted run, which goes on to the next
    apostrophe that is not doubled, or to the end. Runs of one letter are as long as can be. -/
inductive Reads : Text → List Part → (closed : Bool) → Prop
  | nil : Reads [] [] true
  | apostrophe {rest : Text} {parts : List Part} {closed : Bool} :
      Reads rest parts closed →
      Reads ('\'' :: '\'' :: rest) (.character '\'' :: parts) closed
  | quoted {body rest : Text} {parts : List Part} {closed : Bool} :
      body ≠ [] → body.head? ≠ some '\'' → rest.head? ≠ some '\'' → Reads rest parts closed →
      Reads ('\'' :: (doubled body ++ '\'' :: rest)) (body.map .character ++ parts) closed
  | unclosed {body : Text} :
      body.head? ≠ some '\'' → Reads ('\'' :: doubled body) (body.map .character) false
  | letters {letter : Char} {run : Nat} {rest : Text} {parts : List Part} {closed : Bool} :
      isLetter letter = true → 0 < run → rest.head? ≠ some letter → Reads rest parts closed →
      Reads (List.replicate run letter ++ rest) (.letters letter run :: parts) closed
  | other {c : Char} {rest : Text} {parts : List Part} {closed : Bool} :
      c ≠ '\'' → isLetter c = false → Reads rest parts closed →
      Reads (c :: rest) (.character c :: parts) closed

/-! ### Every pattern has a reading -/

theorem doubled_cons (c : Char) (t : Text) :
    doubled (c :: t) = (if c = '\'' then ['\'', '\''] else [c]) ++ doubled t := rfl

theorem head?_doubled (t : Text) : (doubled t).head? = t.head? := by
  cases t with
  | nil => rfl
  | cons c t =>
    rw [doubled_cons]
    split_ifs with hc
    · rw [hc]
      rfl
    · rfl

/-- What follows an opening apostrophe is a quoted text, up to the apostrophe that closes it. -/
theorem exists_doubled : ∀ t : Text,
    (∃ body rest, t = doubled body ++ '\'' :: rest ∧ rest.head? ≠ some '\'') ∨
      ∃ body, t = doubled body
  | [] => Or.inr ⟨[], rfl⟩
  | c :: t => by
    by_cases hc : c = '\''
    · subst hc
      cases t with
      | nil => exact Or.inl ⟨[], [], rfl, by simp⟩
      | cons d t =>
        by_cases hd : d = '\''
        · subst hd
          rcases exists_doubled t with ⟨body, rest, rfl, hrest⟩ | ⟨body, rfl⟩
          · exact Or.inl ⟨'\'' :: body, rest, rfl, hrest⟩
          · exact Or.inr ⟨'\'' :: body, rfl⟩
        · exact Or.inl ⟨[], d :: t, rfl, by simpa using hd⟩
    · rcases exists_doubled t with ⟨body, rest, rfl, hrest⟩ | ⟨body, rfl⟩
      · exact Or.inl ⟨c :: body, rest, by rw [doubled_cons, if_neg hc]; rfl, hrest⟩
      · exact Or.inr ⟨c :: body, by rw [doubled_cons, if_neg hc]; rfl⟩

/-- The longest run of a letter at the start of a text. -/
theorem exists_run (c : Char) : ∀ t : Text,
    ∃ run rest, t = List.replicate run c ++ rest ∧ rest.head? ≠ some c
  | [] => ⟨0, [], rfl, by simp⟩
  | d :: t => by
    by_cases hd : d = c
    · obtain ⟨run, rest, rfl, hrest⟩ := exists_run c t
      exact ⟨run + 1, rest, by rw [hd]; rfl, hrest⟩
    · exact ⟨0, d :: t, rfl, by simpa using hd⟩

/-- **Every pattern can be read from left to right.** -/
theorem exists_reads : ∀ source : Text, ∃ parts closed, Reads source parts closed
  | [] => ⟨[], true, .nil⟩
  | c :: t => by
    by_cases hc : c = '\''
    · subst hc
      by_cases ht : t.head? = some '\''
      · obtain ⟨rest, rfl⟩ := List.head?_eq_some_iff.1 ht
        obtain ⟨parts, closed, h⟩ := exists_reads rest
        exact ⟨_, closed, h.apostrophe⟩
      · rcases exists_doubled t with ⟨body, rest, rfl, hrest⟩ | ⟨body, rfl⟩
        · obtain ⟨parts, closed, h⟩ := exists_reads rest
          cases body with
          | nil => exact absurd rfl ht
          | cons d body =>
            refine ⟨_, closed, h.quoted (by simp) (fun hd => ht ?_) hrest⟩
            rw [List.head?_append, head?_doubled, hd]
            rfl
        · exact ⟨_, false, .unclosed (by rwa [head?_doubled] at ht)⟩
    · by_cases hl : isLetter c = true
      · obtain ⟨run, rest, ht, hrest⟩ := exists_run c t
        obtain ⟨parts, closed, h⟩ := exists_reads rest
        exact ⟨_, closed, by rw [ht]; exact h.letters hl (Nat.succ_pos run) hrest⟩
      · obtain ⟨parts, closed, h⟩ := exists_reads t
        exact ⟨_, closed, h.other hc (by simpa using hl)⟩
termination_by source => source.length

/-! ### Readings and format text -/

/-- The format text of parts, if all their letters have fields. -/
def formatOf? (parts : List Part) : Option Text :=
  (parts.mapM Part.mark?).map fun marks => marks.flatMap Mark.format

@[simp] theorem formatOf?_nil : formatOf? [] = some [] := rfl

theorem formatOf?_character (c : Char) (parts : List Part) :
    formatOf? (.character c :: parts) = (formatOf? parts).map (literal c ++ ·) := by
  unfold formatOf?
  rw [List.mapM_cons]
  cases parts.mapM Part.mark? <;> rfl

theorem formatOf?_characters (t : Text) (parts : List Part) :
    formatOf? (t.map .character ++ parts) = (formatOf? parts).map (t.flatMap literal ++ ·) := by
  induction t with
  | nil => cases h : formatOf? parts <;> simp [h]
  | cons c t ih =>
    rw [List.map_cons, List.cons_append, formatOf?_character, ih, Option.map_map]
    simp [Function.comp_def]

theorem formatOf?_letters (letter : Char) (run : Nat) (parts : List Part) :
    formatOf? (.letters letter run :: parts) =
      (close? (.letters letter run)).bind fun ended => (formatOf? parts).map (ended ++ ·) := by
  unfold formatOf? close?
  rw [List.mapM_cons]
  rcases h : Field.ofLetters? letter run with _ | f
  · simp [Part.mark?, h]
  · cases parts.mapM Part.mark? <;> simp [Part.mark?, h, Mark.format]

theorem formatFrom?_apostrophe (rest : Text) :
    formatFrom? .outside ('\'' :: '\'' :: rest) =
      (formatFrom? .outside rest).map (literal '\'' ++ ·) := by
  simp only [formatFrom?, close?]
  cases formatFrom? .outside rest <;> rfl

theorem formatFrom?_open {rest : Text} (h : rest.head? ≠ some '\'') :
    formatFrom? .outside ('\'' :: rest) = formatFrom? .quoted rest := by
  cases rest with
  | nil => rfl
  | cons d rest =>
    have hd : d ≠ '\'' := by simpa using h
    conv_lhs => rw [formatFrom?.eq_def]
    simp [close?, hd]

theorem formatFrom?_close {rest : Text} (h : rest.head? ≠ some '\'') :
    formatFrom? .quoted ('\'' :: rest) = formatFrom? .outside rest := by
  cases rest with
  | nil => rfl
  | cons d rest =>
    have hd : d ≠ '\'' := by simpa using h
    rw [formatFrom?]
    simpa using hd

theorem formatFrom?_quoted {c : Char} (hc : c ≠ '\'') (rest : Text) :
    formatFrom? .quoted (c :: rest) = (formatFrom? .quoted rest).map (literal c ++ ·) := by
  rw [formatFrom?]
  · exact fun _ h => absurd h hc
  · exact hc

/-- Inside quotes, a doubled text is passed over as it stands. -/
theorem formatFrom?_doubled (body rest : Text) :
    formatFrom? .quoted (doubled body ++ rest) =
      (formatFrom? .quoted rest).map (body.flatMap literal ++ ·) := by
  induction body with
  | nil => cases h : formatFrom? .quoted rest <;> simp [doubled, h]
  | cons c body ih =>
    have hstep : formatFrom? .quoted (doubled (c :: body) ++ rest) =
        (formatFrom? .quoted (doubled body ++ rest)).map (literal c ++ ·) := by
      rw [doubled_cons]
      split_ifs with hc
      · subst hc
        rfl
      · exact formatFrom?_quoted hc _
    rw [hstep, ih, Option.map_map]
    simp [Function.comp_def]

theorem formatFrom?_other {c : Char} (hc : c ≠ '\'') (hl : isLetter c = false) (rest : Text) :
    formatFrom? .outside (c :: rest) = (formatFrom? .outside rest).map (literal c ++ ·) := by
  rw [formatFrom?]
  · simp [hl]
  · exact fun _ h => absurd h hc
  · exact hc

theorem formatFrom?_letter {c : Char} (hl : isLetter c = true) (hc : c ≠ '\'') (rest : Text) :
    formatFrom? .outside (c :: rest) = formatFrom? (.letters c 1) rest := by
  rw [formatFrom?]
  · simp [hl]
  · exact fun _ h => absurd h hc
  · exact hc

theorem formatFrom?_run {letter : Char} (hl : letter ≠ '\'') (rest : Text) :
    ∀ more run, formatFrom? (.letters letter run) (List.replicate more letter ++ rest) =
      formatFrom? (.letters letter (run + more)) rest
  | 0, _ => rfl
  | more + 1, run => by
    rw [List.replicate_succ, List.cons_append, formatFrom?, if_pos rfl,
      formatFrom?_run hl rest more (run + 1), Nat.add_right_comm, Nat.add_assoc]
    · exact fun _ h => absurd h hl
    · exact hl

theorem bind_append (ended later : Option Text) :
    (do let ended ← ended; let later ← later; some (ended ++ later)) =
      ended.bind fun ended => later.map (ended ++ ·) := by
  cases ended <;> cases later <;> rfl

/-- A run of letters ends where another character stands. -/
theorem formatFrom?_end {letter : Char} {run : Nat} {rest : Text} (h : rest.head? ≠ some letter) :
    formatFrom? (.letters letter run) rest =
      (close? (.letters letter run)).bind fun ended =>
        (formatFrom? .outside rest).map (ended ++ ·) := by
  rcases rest with _ | ⟨c, rest⟩
  · have hnil : formatFrom? .outside [] = some [] := rfl
    rw [formatFrom?, hnil]
    · simp
    · simp
  · have hc : c ≠ letter := by simpa using h
    by_cases hq : c = '\''
    · subst hq
      by_cases hr : rest.head? = some '\''
      · obtain ⟨rest, rfl⟩ := List.head?_eq_some_iff.1 hr
        rw [formatFrom?_apostrophe, formatFrom?]
        · cases close? (.letters letter run) <;> cases formatFrom? .outside rest <;> rfl
        · simp
      · rw [formatFrom?_open hr]
        rw [formatFrom?, bind_append]
        · rintro rest rfl
          exact hr rfl
        · simp
        · simp
    · rcases hl : isLetter c with _ | _
      · rw [formatFrom?_other hq hl, formatFrom?, if_neg hc, ← bind_append]
        · simp [hl]
        · exact fun _ h => absurd h hq
        · exact hq
      · rw [formatFrom?_letter hl hq, formatFrom?, if_neg hc, ← bind_append]
        · simp [hl]
        · exact fun _ h => absurd h hq
        · exact hq

/-- **The format text of a pattern is that of its parts**, and there is none where a quoted run is
    not closed. -/
theorem formatText?_eq {source : Text} {parts : List Part} {closed : Bool}
    (h : Reads source parts closed) :
    formatText? source = if closed then formatOf? parts else none := by
  unfold formatText?
  induction h with
  | nil => rfl
  | apostrophe _ ih =>
    rw [formatFrom?_apostrophe, ih, formatOf?_character]
    split <;> rfl
  | @quoted body rest parts closed hbody hhead hrest _ ih =>
    have hopen : (doubled body ++ '\'' :: rest).head? ≠ some '\'' := by
      rw [List.head?_append, head?_doubled]
      cases body with
      | nil => exact absurd rfl hbody
      | cons c body => exact hhead
    rw [formatFrom?_open hopen, formatFrom?_doubled, formatFrom?_close hrest, ih,
      formatOf?_characters]
    split <;> rfl
  | @unclosed body hhead =>
    have hopen : (doubled body).head? ≠ some '\'' := by rwa [head?_doubled]
    have hend := formatFrom?_doubled body []
    rw [List.append_nil] at hend
    rw [formatFrom?_open hopen, hend]
    rfl
  | @letters letter run rest parts closed hl hrun hrest _ ih =>
    have hquote : letter ≠ '\'' := by
      rintro rfl
      exact absurd hl (by decide)
    obtain ⟨more, rfl⟩ : ∃ more, run = 1 + more := ⟨run - 1, by omega⟩
    rw [Nat.add_comm, List.replicate_succ, List.cons_append, formatFrom?_letter hl hquote,
      formatFrom?_run hquote, formatFrom?_end hrest, ih, formatOf?_letters, Nat.add_comm 1]
    split
    · rfl
    · simp
  | other hc hl _ ih =>
    rw [formatFrom?_other hc hl, ih, formatOf?_character]
    split <;> rfl

/-! ## Compiled patterns -/

theorem ofLetters?_isSome_iff (letter : Char) (run : Nat) :
    (Field.ofLetters? letter run).isSome = true ↔ letter ∈ fieldLetters := by
  constructor
  · intro h
    unfold Field.ofLetters? at h
    split at h
    all_goals first | decide | exact absurd h (by simp)
  · intro h
    simp only [fieldLetters, List.mem_cons, List.not_mem_nil, or_false] at h
    rcases h with rfl | rfl | rfl | rfl | rfl | rfl | rfl | rfl | rfl | rfl | rfl | rfl | rfl |
      rfl | rfl | rfl | rfl <;> rfl

/-- The parts show something as soon as all their letters have fields. -/
theorem exists_marks_iff (parts : List Part) :
    (∃ marks, parts.mapM Part.mark? = some marks) ↔
      ∀ letter run, .letters letter run ∈ parts → letter ∈ fieldLetters := by
  induction parts with
  | nil => simp
  | cons part parts ih =>
    have hcons : (∃ marks, (part :: parts).mapM Part.mark? = some marks) ↔
        part.mark?.isSome = true ∧ ∃ marks, parts.mapM Part.mark? = some marks := by
      rw [List.mapM_cons]
      cases part.mark? <;> cases parts.mapM Part.mark? <;> simp
    rw [hcons, ih]
    cases part with
    | letters letter run =>
      have hpart : (Part.letters letter run).mark?.isSome = true ↔ letter ∈ fieldLetters := by
        rw [← ofLetters?_isSome_iff letter run, Part.mark?, Option.isSome_map]
      rw [hpart]
      constructor
      · rintro ⟨hletter, hparts⟩ letter' run' hmem
        rcases List.mem_cons.1 hmem with heq | hmem
        · rw [(Part.letters.inj heq).1]
          exact hletter
        · exact hparts letter' run' hmem
      · intro h
        exact ⟨h letter run List.mem_cons_self, fun l r hmem => h l r (List.mem_cons_of_mem _ hmem)⟩
    | character c => simp [Part.mark?]

/-- The check for directives without a meaning refuses no pattern. -/
theorem not_invalid_mem_items {source format : Text} (h : formatText? source = some format) :
    .invalid ∉ Format.items format := by
  obtain ⟨parts, closed, hreads⟩ := exists_reads source
  rw [formatText?_eq hreads] at h
  cases closed with
  | false => exact absurd h (by simp)
  | true =>
    obtain ⟨marks, -, rfl⟩ := Option.map_eq_some_iff.1 h
    exact (Format.marks_items marks).2

theorem compile_eq_ok_iff {source : Text} {p : Pattern} :
    compile source = .ok p ↔ formatText? source = some p.format ∧ p.source = source := by
  unfold compile
  cases hformat : formatText? source with
  | none => simp
  | some format =>
    have hvalid : (Format.items format).contains .invalid = false := by
      simpa using not_invalid_mem_items hformat
    simp only [hvalid, Bool.false_eq_true, if_false]
    constructor
    · intro h
      obtain rfl := Except.ok.inj h
      exact ⟨rfl, rfl⟩
    · rintro ⟨hp, rfl⟩
      obtain rfl := Option.some.inj hp
      rfl

/-- A pattern compiles if there is a format text of its parts. -/
theorem exists_compile_iff {source : Text} {parts : List Part} {closed : Bool}
    (h : Reads source parts closed) :
    (∃ p, compile source = .ok p) ↔
      closed = true ∧ ∃ marks, parts.mapM Part.mark? = some marks := by
  have hformat : (∃ p, compile source = .ok p) ↔ ∃ format, formatText? source = some format := by
    constructor
    · rintro ⟨p, hp⟩
      exact ⟨p.format, (compile_eq_ok_iff.1 hp).1⟩
    · rintro ⟨format, hformat⟩
      exact ⟨⟨source, format⟩, compile_eq_ok_iff.2 ⟨hformat, rfl⟩⟩
  rw [hformat, formatText?_eq h]
  cases closed with
  | false => simp
  | true =>
    unfold formatOf?
    cases parts.mapM Part.mark? <;> simp

/-- The items of a compiled pattern are the marks of its parts. -/
theorem marks_items {source : Text} {parts : List Part} {closed : Bool} {p : Pattern}
    (h : Reads source parts closed) (hp : compile source = .ok p) :
    parts.mapM Part.mark? = some (p.items.flatMap Item.marks) := by
  have hformat := (compile_eq_ok_iff.1 hp).1
  rw [formatText?_eq h] at hformat
  cases closed with
  | false => exact absurd hformat (by simp)
  | true =>
    obtain ⟨marks, hmarks, hp⟩ := Option.map_eq_some_iff.1 hformat
    rw [items, ← hp, (Format.marks_items marks).1, hmarks]

theorem render_eq (p : Pattern) (z : Zoned) :
    p.render z = (p.items.flatMap Item.marks).flatMap (Mark.render z) := by
  rw [render, List.flatMap_assoc]
  exact List.flatMap_congr fun i _ => i.render_eq z

/-- **A pattern shows what its parts say, and compiles when they say something.** However a pattern
    is read from left to right, it compiles if and only if its quoted runs are closed and the
    letters outside them have fields. Then its format text is scanned as the fields of its runs and
    its characters, in their order, and a date is written as the fields and characters one after the
    other. -/
theorem compile_exact (source : Text) :
    (∃ parts closed, Reads source parts closed) ∧
      ∀ parts closed, Reads source parts closed →
        ((∃ p, compile source = .ok p) ↔
          closed = true ∧ ∀ letter run, .letters letter run ∈ parts → letter ∈ fieldLetters) ∧
        (∀ format, formatText? source = some format → .invalid ∉ Format.items format) ∧
        ∀ p, compile source = .ok p → ∃ marks, parts.mapM Part.mark? = some marks ∧
          p.items.flatMap Item.marks = marks ∧ ∀ z, p.render z = marks.flatMap (Mark.render z) := by
  refine ⟨exists_reads source, fun parts closed hreads => ⟨?_, fun _ => not_invalid_mem_items, ?_⟩⟩
  · rw [exists_compile_iff hreads, exists_marks_iff]
  · intro p hp
    exact ⟨_, marks_items hreads hp, rfl, p.render_eq⟩

example : formatText? "dd 'o''clock' 100%".toList = some "%d o'clock 100%%".toList := rfl

end Pattern
end Recordsmith
