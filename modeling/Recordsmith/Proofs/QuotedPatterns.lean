import Recordsmith.Proofs.PatternSpelling

/-!
# Quoted patterns

A text is quoted in a pattern by apostrophes around it and a second one beside each of its own.
Apostrophes at its start are then read outside quotes, in pairs, and only the last one of them opens
the quoted run.

* `Pattern.reads_quoted`: the characters of a text are read back from the quoted text, unless they
  are apostrophes only;
* `Pattern.exists_compile_of_characters`: a pattern of characters compiles, and shows them;
* `Pattern.quoted_shown`: so a quoted text stands for itself, whatever characters it has.
-/

namespace Recordsmith.Pattern

variable {t : Text}

/-- A text as it is quoted in a pattern. -/
def quoted (t : Text) : Text := '\'' :: (doubled t ++ ['\''])

/-- An apostrophe at the start is a pair before the quoted rest. -/
theorem quoted_apostrophe (t : Text) : quoted ('\'' :: t) = '\'' :: '\'' :: quoted t := rfl

/-- **A quoted text is read as its characters.** The induction passes over the apostrophes at the
    start; the first other character stands in a quoted run that goes on to the end. -/
theorem reads_quoted (h : ∃ c ∈ t, c ≠ '\'') : Reads (quoted t) (t.map .character) true := by
  induction t with
  | nil =>
    obtain ⟨c, hc, -⟩ := h
    cases hc
  | cons c t ih =>
    by_cases hc : c = '\''
    · subst hc
      obtain ⟨d, hd, hne⟩ := h
      rcases List.mem_cons.1 hd with rfl | hd
      · exact absurd rfl hne
      · rw [quoted_apostrophe]
        exact (ih ⟨d, hd, hne⟩).apostrophe
    · have hrun := Reads.nil.quoted (List.cons_ne_nil c t) (by simpa using hc) (by simp)
      rwa [List.append_nil] at hrun

/-- Apostrophes alone open no quoted run, and those that should quote them are one more pair. -/
theorem reads_quoted_apostrophes (h : ∀ c ∈ t, c = '\'') :
    Reads (quoted t) (('\'' :: t).map .character) true := by
  induction t with
  | nil => exact Reads.nil.apostrophe
  | cons c t ih =>
    obtain ⟨rfl, ht⟩ := List.forall_mem_cons.1 h
    rw [quoted_apostrophe]
    exact (ih ht).apostrophe

theorem mapM_mark?_characters (t : Text) :
    (t.map Part.character).mapM Part.mark? = some (t.map Mark.character) := by
  induction t with
  | nil => rfl
  | cons c t ih =>
    rw [List.map_cons, List.mapM_cons, ih]
    rfl

/-- A pattern that is read as characters compiles, and shows them for every date. -/
theorem exists_compile_of_characters {source : Text}
    (h : Reads source (t.map .character) true) :
    ∃ p, compile source = .ok p ∧ ∀ z, p.render z = t := by
  have hmarks := mapM_mark?_characters t
  obtain ⟨p, hp⟩ := (exists_compile_iff h).2 ⟨rfl, _, hmarks⟩
  refine ⟨p, hp, fun z => ?_⟩
  have hitems := Option.some.inj ((marks_items h hp).symm.trans hmarks)
  rw [render_eq, hitems, Mark.flatMap_render_character]

/-- **Every text can be quoted in a pattern.** The quoted text compiles. It shows the text itself for
    every date, if the text has a character other than the apostrophe; apostrophes alone are shown
    with one more. -/
theorem quoted_shown (t : Text) : ∃ p, compile (quoted t) = .ok p ∧
    ((∃ c ∈ t, c ≠ '\'') → ∀ z, p.render z = t) ∧
    ((∀ c ∈ t, c = '\'') → ∀ z, p.render z = '\'' :: t) := by
  by_cases h : ∃ c ∈ t, c ≠ '\''
  · obtain ⟨p, hp, hrender⟩ := exists_compile_of_characters (reads_quoted h)
    obtain ⟨c, hc, hne⟩ := h
    exact ⟨p, hp, fun _ => hrender, fun hall => absurd (hall c hc) hne⟩
  · have hall : ∀ c ∈ t, c = '\'' := fun c hc => by_contra fun hne => h ⟨c, hc, hne⟩
    obtain ⟨p, hp, hrender⟩ := exists_compile_of_characters (reads_quoted_apostrophes hall)
    exact ⟨p, hp, fun hex => absurd hex h, fun _ => hrender⟩

/-- Apostrophes at both ends, letters of fields, white space, percent signs and a letter beyond
    ASCII. -/
def awkwardText : Text := "''yyyy %Y\t100% d'été'".toList

theorem quoted_shown_awkwardText :
    quoted awkwardText = "'''''yyyy %Y\t100% d''été'''".toList ∧
    (∃ c ∈ awkwardText, c ≠ '\'') ∧
    ∃ p, compile (quoted awkwardText) = .ok p ∧ ∀ z, p.render z = awkwardText := by
  have hc : ∃ c ∈ awkwardText, c ≠ '\'' := ⟨'y', by decide, by decide⟩
  obtain ⟨p, hp, hshown, -⟩ := quoted_shown awkwardText
  exact ⟨rfl, hc, p, hp, hshown hc⟩

end Recordsmith.Pattern
