import Recordsmith.Proofs.Scanning
import Recordsmith.Proofs.Weight

/-!
# Replacing words

* `Text.replaceAll_word`, `Text.replaceAll_cons`: a word that comes next is replaced, any other
  character stays;
* `Text.replacement_induction` is the induction that goes with them;
* `Text.replaceAll_append`: a character that is not in the word parts a text into two, in each of which
  the word is replaced;
* `Text.replaceAll_of_not_infix`: a text without the word stays as it is.
-/

namespace Recordsmith.Text

variable {word by_ t u rest : Text} {c d : Char}

theorem dropWord?_eq_some_iff : dropWord? word t = some rest ↔ t = word ++ rest := by
  constructor
  · exact eq_append_of_dropWord?
  · rintro rfl
    exact dropWord?_append word rest

theorem dropWord?_eq_none_iff : dropWord? word t = none ↔ ¬ word <+: t := by
  rw [Option.eq_none_iff_forall_ne_some]
  constructor
  · rintro h ⟨rest, rfl⟩
    exact h rest (dropWord?_append word rest)
  · intro h rest hrest
    exact h ⟨rest, (eq_append_of_dropWord? hrest).symm⟩

theorem replaceFrom_eq (skip : Nat) (t : Text) :
    replaceFrom word by_ skip t = replaceAll word by_ (t.drop skip) := by
  unfold replaceAll
  induction t generalizing skip with
  | nil => simp [replaceFrom]
  | cons c t ih =>
    cases skip with
    | zero => rfl
    | succ skip => exact ih skip

@[simp] theorem replaceAll_nil : replaceAll word by_ [] = [] := rfl

theorem replaceAll_cons (h : ¬ word <+: c :: t) :
    replaceAll word by_ (c :: t) = c :: replaceAll word by_ t := by
  simp only [replaceAll, replaceFrom, dropWord?_eq_none_iff.2 h]

theorem replaceAll_word (hword : word ≠ []) (t : Text) :
    replaceAll word by_ (word ++ t) = by_ ++ replaceAll word by_ t := by
  obtain ⟨c, cs, rfl⟩ := List.exists_cons_of_ne_nil hword
  have hfound : dropWord? (c :: cs) (c :: (cs ++ t)) = some t := dropWord?_append (c :: cs) t
  rw [List.cons_append, replaceAll, replaceFrom, hfound]
  dsimp only
  rw [replaceFrom_eq, List.length_cons, Nat.add_sub_cancel, List.drop_left]

/-- Either the word comes next in a text, or another character does, if it has not ended. -/
theorem replacement_induction {motive : Text → Prop} (hword : word ≠ []) (nil : motive [])
    (found : ∀ t, motive t → motive (word ++ t))
    (other : ∀ c t, ¬ word <+: c :: t → motive t → motive (c :: t)) (t : Text) : motive t := by
  induction hlength : t.length using Nat.strong_induction_on generalizing t with
  | _ n ih =>
    by_cases hfound : word <+: t
    · obtain ⟨rest, rfl⟩ := hfound
      have hpos := List.length_pos_of_ne_nil hword
      rw [List.length_append] at hlength
      exact found rest (ih rest.length (by omega) rest rfl)
    cases t with
    | nil => exact nil
    | cons c t =>
      rw [List.length_cons] at hlength
      exact other c t hfound (ih t.length (by omega) t rfl)

/-! ## Texts without the word -/

theorem replaceAll_of_not_infix (h : ¬ word <:+: t) : replaceAll word by_ t = t := by
  induction t with
  | nil => rfl
  | cons c t ih =>
    rw [replaceAll_cons fun hprefix => h hprefix.isInfix,
      ih fun hinfix => h (List.infix_cons hinfix)]

theorem replaceAll_of_not_mem (hc : c ∈ word) (h : c ∉ t) : replaceAll word by_ t = t :=
  replaceAll_of_not_infix fun hword => h (hword.subset hc)

/-! ## Parts of texts -/

/-- A word does not go on behind a character that it does not hold. -/
theorem prefix_append_cons_iff (hd : d ∉ word) : word <+: t ++ d :: rest ↔ word <+: t := by
  refine ⟨fun h => ?_, fun h => h.trans (List.prefix_append t _)⟩
  rcases Nat.lt_or_ge t.length word.length with hlt | hle
  · have hpart : t ++ [d] <+: t ++ d :: rest := ⟨rest, by simp⟩
    have hmem := (List.prefix_of_prefix_length_le hpart h (by simpa using hlt)).subset
      (List.mem_append_right t (List.mem_singleton_self d))
    exact absurd hmem hd
  · exact List.prefix_of_prefix_length_le h (List.prefix_append t _) hle

/-- **A character that is not in the word parts a text into two**, in each of which the word is
    replaced. -/
theorem replaceAll_append (hword : word ≠ []) (hd : d ∉ word) (t rest : Text) :
    replaceAll word by_ (t ++ d :: rest) =
      replaceAll word by_ t ++ d :: replaceAll word by_ rest := by
  have hnot : ¬ word <+: d :: rest := by
    rw [← List.nil_append (d :: rest), prefix_append_cons_iff hd, List.prefix_nil]
    exact hword
  induction t using replacement_induction hword with
  | nil => rw [List.nil_append, replaceAll_cons hnot]; rfl
  | found t ih =>
    rw [List.append_assoc, replaceAll_word hword, replaceAll_word hword, ih, List.append_assoc]
  | other c t hother ih =>
    rw [List.cons_append, replaceAll_cons, replaceAll_cons hother, ih, List.cons_append]
    rwa [← List.cons_append, prefix_append_cons_iff hd]

theorem replaceAll_cons_of_not_mem (hword : word ≠ []) (hc : c ∉ word) (t : Text) :
    replaceAll word by_ (c :: t) = c :: replaceAll word by_ t :=
  replaceAll_append hword hc [] t

/-- Characters that are not in the word stay in front of a text. -/
theorem replaceAll_append_left (hword : word ≠ []) (hu : ∀ c ∈ u, c ∉ word) (t : Text) :
    replaceAll word by_ (u ++ t) = u ++ replaceAll word by_ t := by
  induction u with
  | nil => rfl
  | cons c u ih =>
    obtain ⟨hc, hu⟩ := List.forall_mem_cons.1 hu
    rw [List.cons_append, replaceAll_cons_of_not_mem hword hc, ih hu, List.cons_append]

/-- Characters that are not in the word stay behind a text. -/
theorem replaceAll_append_right (hword : word ≠ []) (hu : ∀ c ∈ u, c ∉ word) (t : Text) :
    replaceAll word by_ (t ++ u) = replaceAll word by_ t ++ u := by
  cases u with
  | nil => rw [List.append_nil, List.append_nil]
  | cons c u =>
    obtain ⟨hc, hu⟩ := List.forall_mem_cons.1 hu
    have htail : replaceAll word by_ (u ++ []) = u ++ replaceAll word by_ [] :=
      replaceAll_append_left hword hu []
    rw [List.append_nil, replaceAll_nil, List.append_nil] at htail
    rw [replaceAll_append hword hc, htail]

/-- The word is replaced in each of the texts between separators. -/
theorem replaceAll_join (hword : word ≠ []) (hd : d ∉ word) (ts : List Text) :
    replaceAll word by_ (join [d] ts) = join [d] (ts.map (replaceAll word by_)) := by
  induction ts with
  | nil => rfl
  | cons t ts ih =>
    cases ts with
    | nil => rfl
    | cons u ts =>
      rw [join, List.append_assoc, List.singleton_append, replaceAll_append hword hd, ih]
      simp only [List.map_cons, join, List.append_assoc, List.singleton_append]

end Recordsmith.Text
