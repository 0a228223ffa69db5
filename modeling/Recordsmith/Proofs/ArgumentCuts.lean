import Recordsmith.Proofs.Scanning

/-!
# Where arguments are cut

The splitter reads a text once and carries what it knows from character to character. Here the text
is read as a whole: its quoted runs are found from the left, and its brackets are counted outside
them.

* `Text.OpensRun`: where a quote opens a quoted run;
* `Text.Outside t bare`: the text ends outside all quoted runs, and `bare` is what stands outside;
* `Text.openBrackets`: how many brackets are open behind a text;
* `Scanner.scan_of_outside`, `Scanner.cuts_scan_iff`: what the scan knows behind such a text, and where
  it cuts;
* `Scanner.join_pieces`, `Scanner.cutBetween_pieces_iff`: the pieces of a text with commas between
  them are the text, and these commas are those where the scan cuts;
* `splitArguments_cuts`: so the arguments of any text, balanced or not, are what stands between the
  commas outside brackets and quoted runs.
-/

namespace Recordsmith

namespace Text

/-! ## Quoted runs and brackets -/

/-- The last character of the text that is not blank. -/
def lastSign? (t : Text) : Option Char := (t.filter fun c => !isBlank c).getLast?

/-- Behind the text, the character opens a quoted run: it is a quote, and the last character before
    it that is not blank, if there is one, is an opening bracket, a comma or a colon. -/
def OpensRun (t : Text) (q : Char) : Prop :=
  Call.isQuote q = true ∧ ∀ c, lastSign? t = some c → c ∈ ['(', '[', '{', ',', ':']

/-- The text ends outside all quoted runs, and `bare` is what stands outside them. A run goes on to
    the next quote of its kind. -/
inductive Outside : (t bare : Text) → Prop
  | nil : Outside [] []
  | character {t bare : Text} {c : Char} :
      Outside t bare → ¬ OpensRun t c → Outside (t ++ [c]) (bare ++ [c])
  | run {t bare body : Text} {q : Char} :
      Outside t bare → OpensRun t q → q ∉ body → Outside (t ++ q :: (body ++ [q])) bare

/-- The depth behind one more character. -/
def deepen (depth : Nat) (c : Char) : Nat :=
  if c ∈ ['(', '[', '{'] then depth + 1 else if c ∈ [')', ']', '}'] then depth - 1 else depth

/-- How many brackets are open behind the text. A bracket that closes nothing is not counted. -/
def openBrackets (t : Text) : Nat := t.foldl deepen 0

/-- What stands behind the text is outside brackets and quoted runs. -/
def EndsFree (t : Text) : Prop := ∃ bare, Outside t bare ∧ openBrackets bare = 0

theorem lastSign?_concat (t : Text) (c : Char) :
    lastSign? (t ++ [c]) = if isBlank c then lastSign? t else some c := by
  unfold lastSign?
  rw [List.filter_append]
  split_ifs with hc <;> simp [hc]

theorem openBrackets_concat (t : Text) (c : Char) :
    openBrackets (t ++ [c]) = deepen (openBrackets t) c := by
  unfold openBrackets
  rw [List.foldl_append]
  rfl

theorem not_isBlank_of_isQuote {q : Char} (h : Call.isQuote q = true) : isBlank q = false := by
  rcases eq_of_isQuote h with rfl | rfl <;> rfl

theorem opensRun_iff {t : Text} {q : Char} : OpensRun t q ↔
    Call.isQuote q = true ∧ Scanner.opensValue (lastSign? t) = true := by
  unfold OpensRun
  cases lastSign? t <;> simp [Scanner.opensValue]

/-- A text ends either outside all quoted runs, or in the last one. -/
theorem exists_outside (t : Text) : (∃ bare, Outside t bare) ∨
    ∃ before q body bare, t = before ++ q :: body ∧ Outside before bare ∧ OpensRun before q ∧
      q ∉ body := by
  induction t using List.reverseRecOn with
  | nil => exact Or.inl ⟨[], .nil⟩
  | append_singleton t c ih =>
    rcases ih with ⟨bare, h⟩ | ⟨before, q, body, bare, rfl, h, hq, hbody⟩
    · by_cases hc : OpensRun t c
      · exact Or.inr ⟨t, c, [], bare, rfl, h, hc, List.not_mem_nil⟩
      · exact Or.inl ⟨_, h.character hc⟩
    · by_cases hc : c = q
      · subst hc
        exact Or.inl ⟨bare, by simpa using h.run hq hbody⟩
      · refine Or.inr ⟨before, q, body ++ [c], bare, by simp, h, hq, ?_⟩
        simpa [hbody] using Ne.symm hc

end Text

/-! ## What the scan knows -/

namespace Scanner

open Text (Outside OpensRun openBrackets lastSign? EndsFree)

/-- The scan behind a text. -/
def scan (t : Text) : Scanner := t.foldl step start

theorem scan_concat (t : Text) (c : Char) : scan (t ++ [c]) = (scan t).step c := by
  unfold scan
  rw [List.foldl_append]
  rfl

variable {t bare body : Text} {q c : Char}

theorem step_outside {depth : Nat} (h : ¬ OpensRun t c) :
    step ⟨depth, none, lastSign? t⟩ c = ⟨Text.deepen depth c, none, lastSign? (t ++ [c])⟩ := by
  rw [Text.opensRun_iff, Call.isQuote, Bool.or_eq_true, beq_iff_eq, beq_iff_eq] at h
  simp only [step, if_neg h, Text.lastSign?_concat, Text.deepen]
  split_ifs <;> rfl

theorem step_open {depth : Nat} (h : OpensRun t q) :
    step ⟨depth, none, lastSign? t⟩ q = ⟨depth, some q, some q⟩ := by
  have hblank := Text.not_isBlank_of_isQuote h.1
  rw [Text.opensRun_iff, Call.isQuote, Bool.or_eq_true, beq_iff_eq, beq_iff_eq] at h
  simp [step, h, hblank]

/-- A quoted run is passed over up to its end. -/
theorem foldl_step_inside {depth : Nat} {previous : Option Char} (h : q ∉ body) :
    body.foldl step ⟨depth, some q, previous⟩ = ⟨depth, some q, previous⟩ := by
  induction body with
  | nil => rfl
  | cons c body ih =>
    rw [List.mem_cons, not_or] at h
    rw [List.foldl_cons]
    simp only [step, if_neg (Ne.symm h.1)]
    exact ih h.2

/-- **Outside quoted runs**, the scan knows how many brackets are open and which character that is
    not blank was the last. -/
theorem scan_of_outside (h : Outside t bare) :
    scan t = ⟨openBrackets bare, none, lastSign? t⟩ := by
  induction h with
  | nil => rfl
  | character _ hc ih => rw [scan_concat, ih, step_outside hc, Text.openBrackets_concat]
  | @run t bare body q _ hq hbody ih =>
    have hlast : lastSign? (t ++ q :: (body ++ [q])) = some q := by
      have hconcat := Text.lastSign?_concat (t ++ q :: body) q
      rwa [Text.not_isBlank_of_isQuote hq.1, if_neg Bool.false_ne_true, List.append_assoc] at hconcat
    unfold scan at ih ⊢
    rw [List.foldl_append, ih, List.foldl_cons, step_open hq, List.foldl_append,
      foldl_step_inside hbody, hlast]
    simp [step]

/-- **Inside a quoted run**, the scan knows which quote ends it. -/
theorem quote_scan_of_inside (h : Outside t bare) (hq : OpensRun t q) (hbody : q ∉ body) :
    (scan (t ++ q :: body)).quote = some q := by
  have hscan := scan_of_outside h
  unfold scan at hscan ⊢
  rw [List.foldl_append, hscan, List.foldl_cons, step_open hq, foldl_step_inside hbody]

/-- **The scan cuts at a comma just outside brackets and quoted runs.** -/
theorem cuts_scan_iff (t : Text) : (scan t).cuts ',' = true ↔ EndsFree t := by
  constructor
  · intro h
    rcases Text.exists_outside t with ⟨bare, hbare⟩ | ⟨before, q, body, bare, rfl, hbare, hq, hbody⟩
    · rw [scan_of_outside hbare] at h
      exact ⟨bare, hbare, by simpa [cuts] using h⟩
    · simp [cuts, quote_scan_of_inside hbare hq hbody] at h
  · rintro ⟨bare, hbare, hdepth⟩
    simp [scan_of_outside hbare, cuts, hdepth]

end Scanner

/-! ## Pieces -/

namespace Text

variable {c : Char} {p before after : Text} {ps : List Text}

theorem join_cons {sep : Text} (h : ps ≠ []) : join sep (p :: ps) = p ++ sep ++ join sep ps := by
  cases ps with
  | nil => exact absurd rfl h
  | cons q ps => rfl

theorem join_cons_cons (sep : Text) (c : Char) (p : Text) (ps : List Text) :
    join sep ((c :: p) :: ps) = c :: join sep (p :: ps) := by
  cases ps <;> rfl

/-- The pieces fall into those of one text and those of another, with a comma between the two. -/
def CutBetween (pieces : List Text) (before after : Text) : Prop :=
  ∃ ls rs, ls ≠ [] ∧ rs ≠ [] ∧ pieces = ls ++ rs ∧ join [','] ls = before ∧ join [','] rs = after

theorem not_cutBetween_nil : ¬ CutBetween ((c :: p) :: ps) [] after := by
  rintro ⟨ls, rs, hl, -, hpieces, hbefore, -⟩
  obtain ⟨q, ls, rfl⟩ := List.exists_cons_of_ne_nil hl
  obtain ⟨rfl, -⟩ := List.cons.inj hpieces
  rw [join_cons_cons] at hbefore
  cases hbefore

theorem cutBetween_cons :
    CutBetween ((c :: p) :: ps) (c :: before) after ↔ CutBetween (p :: ps) before after := by
  constructor
  · rintro ⟨ls, rs, hl, hr, hpieces, hbefore, hafter⟩
    obtain ⟨q, ls, rfl⟩ := List.exists_cons_of_ne_nil hl
    obtain ⟨rfl, rfl⟩ := List.cons.inj hpieces
    rw [join_cons_cons] at hbefore
    exact ⟨p :: ls, rs, List.cons_ne_nil p ls, hr, rfl, (List.cons.inj hbefore).2, hafter⟩
  · rintro ⟨ls, rs, hl, hr, hpieces, rfl, rfl⟩
    obtain ⟨q, ls, rfl⟩ := List.exists_cons_of_ne_nil hl
    obtain ⟨rfl, rfl⟩ := List.cons.inj hpieces
    exact ⟨(c :: p) :: ls, rs, List.cons_ne_nil _ ls, hr, rfl, join_cons_cons _ c p ls, rfl⟩

/-- A comma in front belongs to the cut behind an empty piece. -/
theorem cutBetween_comma :
    CutBetween ([] :: ps) (',' :: before) after ↔ CutBetween ps before after := by
  constructor
  · rintro ⟨ls, rs, hl, hr, hpieces, hbefore, hafter⟩
    obtain ⟨q, ls, rfl⟩ := List.exists_cons_of_ne_nil hl
    obtain ⟨rfl, rfl⟩ := List.cons.inj hpieces
    have hls : ls ≠ [] := by
      rintro rfl
      cases hbefore
    rw [join_cons hls] at hbefore
    exact ⟨ls, rs, hls, hr, rfl, (List.cons.inj hbefore).2, hafter⟩
  · rintro ⟨ls, rs, hl, hr, rfl, rfl, rfl⟩
    exact ⟨[] :: ls, rs, List.cons_ne_nil [] ls, hr, rfl, join_cons hl, rfl⟩

end Text

namespace Scanner

open Text (join CutBetween EndsFree)

variable {s : Scanner} {c : Char}

theorem pieces_ne_nil (t : Text) : ∀ s : Scanner, s.pieces t ≠ [] := by
  induction t with
  | nil => exact fun _ => List.cons_ne_nil _ _
  | cons c rest ih =>
    intro s
    simp only [pieces]
    split
    · exact List.cons_ne_nil _ _
    · split <;> exact List.cons_ne_nil _ _

theorem eq_comma_of_cuts (h : s.cuts c = true) : c = ',' := by
  simp only [cuts, Bool.and_eq_true, beq_iff_eq] at h
  exact h.1.2

theorem pieces_of_cuts (h : s.cuts c = true) (t : Text) :
    s.pieces (c :: t) = [] :: (s.step c).pieces t := by
  simp only [pieces, h, if_true]

theorem exists_pieces_of_not_cuts (h : s.cuts c = false) (t : Text) :
    ∃ p ps, (s.step c).pieces t = p :: ps ∧ s.pieces (c :: t) = (c :: p) :: ps := by
  obtain ⟨p, ps, hp⟩ := List.exists_cons_of_ne_nil (pieces_ne_nil t (s.step c))
  exact ⟨p, ps, hp, by simp only [pieces, h, hp]; rfl⟩

/-- **The pieces of a text, with commas between them, are the text.** -/
theorem join_pieces (t : Text) : ∀ s : Scanner, join [','] (s.pieces t) = t := by
  induction t with
  | nil => exact fun _ => rfl
  | cons c t ih =>
    intro s
    rcases hc : s.cuts c with _ | _
    · obtain ⟨p, ps, hp, hpieces⟩ := exists_pieces_of_not_cuts hc t
      rw [hpieces, Text.join_cons_cons, ← hp, ih]
    · rw [pieces_of_cuts hc, Text.join_cons (pieces_ne_nil t _), ih, eq_comma_of_cuts hc]
      rfl

/-- **The commas between the pieces are those where the scan cuts.** -/
theorem cutBetween_pieces_iff (t u : Text) : ∀ s : Scanner,
    CutBetween (s.pieces (t ++ ',' :: u)) t u ↔ (t.foldl step s).cuts ',' = true := by
  induction t with
  | nil =>
    intro s
    rw [List.nil_append, List.foldl_nil]
    rcases hc : s.cuts ',' with _ | _
    · obtain ⟨p, ps, -, hpieces⟩ := exists_pieces_of_not_cuts hc u
      rw [hpieces]
      simp only [Bool.false_eq_true, iff_false]
      exact Text.not_cutBetween_nil
    · rw [pieces_of_cuts hc]
      simp only [iff_true]
      exact ⟨[[]], _, List.cons_ne_nil _ _, pieces_ne_nil u _, rfl, rfl, join_pieces u _⟩
  | cons c t ih =>
    intro s
    rw [List.cons_append, List.foldl_cons, ← ih]
    rcases hc : s.cuts c with _ | _
    · obtain ⟨p, ps, hp, hpieces⟩ := exists_pieces_of_not_cuts hc (t ++ ',' :: u)
      rw [hpieces, hp, Text.cutBetween_cons]
    · rw [pieces_of_cuts hc, eq_comma_of_cuts hc, Text.cutBetween_comma]

end Scanner

/-! ## Arguments -/

/-- **Splitting loses nothing.** The arguments of a text that is not blank are the trimmed forms of
    pieces which, with commas between them, are the text itself. However its brackets and quotes
    stand, the commas between the pieces are exactly those outside brackets and quoted runs. -/
theorem splitArguments_cuts {t : Text} (ht : ¬ Text.Blank t) :
    ∃ pieces : List Text, Text.join [','] pieces = t ∧ pieces.map Text.trim = splitArguments t ∧
      ∀ before after, t = before ++ ',' :: after →
        (Text.CutBetween pieces before after ↔ before.EndsFree) := by
  refine ⟨Scanner.start.pieces t, Scanner.join_pieces t _, (splitArguments_eq ht).symm, ?_⟩
  rintro before after rfl
  rw [Scanner.cutBetween_pieces_iff]
  exact Scanner.cuts_scan_iff before

/-- A bracket that closes nothing, an opening bracket in quotes, and another that is never
    closed. -/
def unbalanced : Text := ") ,'(:' , [x,\"y".toList

theorem splitArguments_cuts_unbalanced :
    ¬ Text.Blank unbalanced ∧
    splitArguments unbalanced = [")".toList, "'(:'".toList, "[x,\"y".toList] ∧
    ∃ pieces : List Text, Text.join [','] pieces = unbalanced ∧
      pieces.map Text.trim = [")".toList, "'(:'".toList, "[x,\"y".toList] ∧
      ∀ before after, unbalanced = before ++ ',' :: after →
        (Text.CutBetween pieces before after ↔ before.EndsFree) := by
  have ht : ¬ Text.Blank unbalanced := by decide
  have hsplit : splitArguments unbalanced = [")".toList, "'(:'".toList, "[x,\"y".toList] := by
    decide
  refine ⟨ht, hsplit, ?_⟩
  rw [← hsplit]
  exact splitArguments_cuts ht

end Recordsmith
