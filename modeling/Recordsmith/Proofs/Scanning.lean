import Mathlib
import Recordsmith.Call

/-!
# Scanning arguments

A call has no syntax tree: its arguments are cut out of its text by a scan, and each of them is
scanned again when it is evaluated.

* `Text.trim_pad`: white space around a text leaves its trimmed form as it is;
* `Scanner.through` is a scan that meets no comma outside brackets and quotes, and no closing
  bracket that closes nothing;
* `Scanner.Inside.through`: a text is scanned within brackets as it is scanned alone;
* `Scanner.pieces_of_through`, `Scanner.pieces_of_through_comma`: such a text is not cut;
* `Call.parse?_write`: a call that is written is read as it was written.
-/

namespace Recordsmith

/-! ## White space -/

namespace Text

/-- Nothing but white space. -/
def Blank (t : Text) : Prop := ∀ c ∈ t, isBlank c = true

instance (t : Text) : Decidable (Blank t) := List.decidableBAll _ t

theorem blank_nil : Blank [] := fun _ hc => absurd hc List.not_mem_nil

theorem Blank.reverse {t : Text} (h : Blank t) : Blank t.reverse := by
  intro c hc
  exact h c (List.mem_reverse.1 hc)

theorem dropWhile_of_none {p : Char → Bool} {t : Text} (h : ∀ c ∈ t, p c = false) :
    t.dropWhile p = t := by
  cases t with
  | nil => rfl
  | cons c rest => exact List.dropWhile_cons_of_neg (by simp [h c List.mem_cons_self])

theorem dropEndWhile_of_none {p : Char → Bool} {t : Text} (h : ∀ c ∈ t, p c = false) :
    dropEndWhile p t = t := by
  unfold dropEndWhile
  rw [dropWhile_of_none fun c hc => h c (List.mem_reverse.1 hc), List.reverse_reverse]

theorem trim_eq_nil_iff {t : Text} : trim t = [] ↔ Blank t := by
  unfold trim trimEnd dropEndWhile trimStart
  rw [List.reverse_eq_nil_iff, List.dropWhile_eq_nil_iff]
  constructor
  · intro h c hc
    rw [← List.takeWhile_append_dropWhile (p := isBlank) (l := t)] at hc
    rcases List.mem_append.1 hc with hc | hc
    · exact List.mem_takeWhile_imp hc
    · exact h c (List.mem_reverse.2 hc)
  · intro h c hc
    exact h c ((List.dropWhile_sublist isBlank).mem (List.mem_reverse.1 hc))

/-- What is dropped at the ends of a text satisfies the predicate. -/
theorem exists_dropped (p : Char → Bool) (t : Text) :
    ∃ before after : Text, (∀ c ∈ before, p c = true) ∧ (∀ c ∈ after, p c = true) ∧
      t = before ++ dropEndWhile p (t.dropWhile p) ++ after := by
  set kept := t.dropWhile p with hkept
  refine ⟨t.takeWhile p, (kept.reverse.takeWhile p).reverse, ?_, ?_, ?_⟩
  · exact fun c hc => List.mem_takeWhile_imp hc
  · exact fun c hc => List.mem_takeWhile_imp (List.mem_reverse.1 hc)
  · rw [dropEndWhile, List.append_assoc, ← List.reverse_append, List.takeWhile_append_dropWhile,
      List.reverse_reverse, hkept, List.takeWhile_append_dropWhile]

/-- **White space around a text leaves its trimmed form as it is.** -/
theorem trim_pad {before after : Text} (hb : Blank before) (ha : Blank after) (t : Text) :
    trim (before ++ t ++ after) = trim t := by
  unfold trim trimEnd dropEndWhile trimStart
  rw [List.append_assoc, List.dropWhile_append_of_pos hb, List.dropWhile_append]
  split
  · rename_i ht
    rw [List.isEmpty_iff.1 ht, List.dropWhile_eq_nil_iff.2 ha]
  · rw [List.reverse_append, List.dropWhile_append_of_pos ha.reverse]

@[simp] theorem trim_trim (t : Text) : trim (trim t) = trim t := by
  obtain ⟨before, after, hb, ha, ht⟩ := exists_dropped isBlank t
  calc trim (trim t) = trim (before ++ trim t ++ after) := (trim_pad hb ha (trim t)).symm
    _ = trim t := congrArg trim ht.symm

theorem trim_eq_self {c d : Char} (hc : isBlank c = false) (hd : isBlank d = false) (t : Text) :
    trim (c :: (t ++ [d])) = c :: (t ++ [d]) := by
  unfold trim trimEnd dropEndWhile trimStart
  rw [List.dropWhile_cons_of_neg (by simp [hc]), List.reverse_cons, List.reverse_append,
    List.reverse_singleton, List.singleton_append, List.cons_append,
    List.dropWhile_cons_of_neg (by simp [hd])]
  simp only [List.reverse_cons, List.reverse_append, List.reverse_reverse, List.reverse_nil,
    List.nil_append, List.cons_append]

theorem beforeLast_append (c : Char) (t : Text) : beforeLast c (t ++ [c]) = some t := by
  unfold beforeLast
  rw [List.reverse_append, List.reverse_singleton, List.singleton_append,
    List.dropWhile_cons_of_neg (by simp)]
  simp only [List.reverse_reverse]

theorem dropWord?_append (word rest : Text) : dropWord? word (word ++ rest) = some rest := by
  induction word with
  | nil => rfl
  | cons c cs ih => simpa [dropWord?] using ih

theorem length_le_utf8Size (t : Text) : t.length ≤ utf8Size t := by
  induction t with
  | nil => exact le_rfl
  | cons c cs ih =>
    have := c.utf8Size_pos
    simp only [utf8Size, List.length_cons]
    omega

end Text

/-! ## One step of a scan -/

namespace Scanner

variable {s s' r : Scanner} {c : Char} {d : Nat} {t u : Text}

/-- The characters that a scan takes for more than text: quotes, brackets and commas. -/
def signs : List Char := ['"', '\'', '(', '[', '{', ')', ']', '}', ',']

/-- A character that a scan takes for text. -/
def Plain (c : Char) : Prop := c ∉ signs

instance (c : Char) : Decidable (Plain c) := inferInstanceAs (Decidable (c ∉ signs))

theorem plain_of_none {p : Char → Bool} (hp : signs.any p = false) (h : p c = true) : Plain c := by
  intro hc
  exact List.any_eq_false.1 hp c hc h

theorem plain_of_isBlank (h : Text.isBlank c = true) : Plain c := plain_of_none (by decide) h

theorem plain_of_isNameChar (h : Call.isNameChar c = true) : Plain c := plain_of_none (by decide) h

/-- Outside quotes, within `d` brackets. -/
structure At (d : Nat) (s : Scanner) : Prop where
  depth : s.depth = d
  quote : s.quote = none

/-- Outside quotes, within `d` brackets, and where a value can start. -/
structure Ready (d : Nat) (s : Scanner) : Prop extends At d s where
  opens : opensValue s.previous = true

theorem ready_start : start.Ready 0 := ⟨⟨rfl, rfl⟩, rfl⟩

/-- The character is a closing bracket outside quotes that closes nothing. -/
def strays (s : Scanner) (c : Char) : Bool :=
  s.quote.isNone && s.depth == 0 && c ∈ [')', ']', '}']

theorem At.step_of_plain (h : s.At d) (hc : Plain c) :
    s.step c = { s with previous := if Text.isBlank c then s.previous else some c } := by
  simp only [Plain, signs, List.mem_cons, List.not_mem_nil, or_false, not_or] at hc
  obtain ⟨h₁, h₂, h₃, h₄, h₅, h₆, h₇, h₈, -⟩ := hc
  unfold step
  rw [h.quote]
  simp only [h₁, h₂, h₃, h₄, h₅, h₆, h₇, h₈, List.mem_cons, List.not_mem_nil, or_self, false_and,
    if_false]

theorem At.step_plain (h : s.At d) (hc : Plain c) : (s.step c).At d := by
  rw [h.step_of_plain hc]
  exact ⟨h.depth, h.quote⟩

/-- White space outside quotes changes nothing. -/
theorem At.step_blank (h : s.At d) (hc : Text.isBlank c = true) : s.step c = s := by
  rw [h.step_of_plain (plain_of_isBlank hc), if_pos hc]

theorem At.step_open (h : s.At d) (hc : c ∈ ['(', '[', '{']) : (s.step c).Ready (d + 1) := by
  unfold step
  rw [h.quote, h.depth]
  simp only [List.mem_cons, List.not_mem_nil, or_false] at hc
  rcases hc with rfl | rfl | rfl <;> exact ⟨⟨rfl, rfl⟩, rfl⟩

theorem At.step_close (h : s.At (d + 1)) (hc : c ∈ [')', ']', '}']) : (s.step c).At d := by
  unfold step
  rw [h.quote, h.depth]
  simp only [List.mem_cons, List.not_mem_nil, or_false] at hc
  rcases hc with rfl | rfl | rfl <;> exact ⟨rfl, rfl⟩

theorem At.step_comma (h : s.At d) : (s.step ',').Ready d := by
  unfold step
  rw [h.quote, h.depth]
  exact ⟨⟨rfl, rfl⟩, rfl⟩

theorem not_cuts_of_plain (hc : Plain c) : s.cuts c = false := by
  simp only [Plain, signs, List.mem_cons, not_or] at hc
  unfold cuts
  simp [hc]

theorem not_strays_of_plain (hc : Plain c) : s.strays c = false := by
  simp only [Plain, signs, List.mem_cons, not_or] at hc
  unfold strays
  simp [hc]

/-! ## Scans within brackets -/

/-- One scan is `d` brackets further in than another; else they stand at the same point. -/
structure Inside (d : Nat) (s s' : Scanner) : Prop where
  depth : s'.depth = s.depth + d
  quote : s'.quote = s.quote
  opens : opensValue s'.previous = opensValue s.previous

theorem Ready.inside (h : s.Ready d) : Inside d start s where
  depth := by rw [h.depth]; exact (Nat.zero_add d).symm
  quote := h.quote
  opens := h.opens

theorem Inside.cuts (h : Inside d s s') (hc : s.cuts c = false) : s'.cuts c = false := by
  unfold Scanner.cuts at hc ⊢
  rw [h.quote, h.depth]
  rw [Bool.and_eq_false_iff] at hc ⊢
  refine hc.imp_right fun hc => ?_
  have := beq_eq_false_iff_ne.1 hc
  exact beq_eq_false_iff_ne.2 (by omega)

theorem Inside.strays (h : Inside d s s') (hc : s.strays c = false) : s'.strays c = false := by
  unfold Scanner.strays at hc ⊢
  rw [h.quote, h.depth]
  simp only [Bool.and_eq_false_iff, beq_eq_false_iff_ne] at hc ⊢
  refine hc.imp_left (Or.imp_right fun hc => ?_)
  omega

/-- **One step keeps one scan inside another**, as long as it closes no bracket of the outer one. -/
theorem Inside.step (h : Inside d s s') (hc : s.strays c = false) :
    Inside d (s.step c) (s'.step c) := by
  obtain ⟨hd, hq, ho⟩ := h
  -- the last character that counts is either the same in both scans, or as before
  have hprevious : opensValue (if Text.isBlank c then s'.previous else some c) =
      opensValue (if Text.isBlank c then s.previous else some c) := by
    split
    · exact ho
    · rfl
  unfold Scanner.step
  rw [hq]
  cases hs : s.quote with
  | some q =>
    dsimp only
    split
    · exact ⟨hd, rfl, rfl⟩
    · exact ⟨hd, hq, ho⟩
  | none =>
    dsimp only
    rw [ho]
    split
    · exact ⟨hd, rfl, hprevious⟩
    · split
      · exact ⟨by dsimp only; omega, rfl, hprevious⟩
      · split
        · rename_i hclose
          have hpos : s.depth ≠ 0 := by
            intro h0
            simp only [Scanner.strays, hs, h0, hclose] at hc
            cases hc
          exact ⟨by dsimp only; omega, rfl, hprevious⟩
        · exact ⟨hd, rfl, hprevious⟩

/-! ## Texts that are not cut -/

/-- The scan of a text, unless it meets a comma outside brackets and quotes, or a closing bracket
    that closes nothing. -/
def through (s : Scanner) : Text → Option Scanner
  | [] => some s
  | c :: rest => if s.cuts c || s.strays c then none else (s.step c).through rest

theorem through_cons (hcuts : s.cuts c = false) (hstrays : s.strays c = false) :
    s.through (c :: t) = (s.step c).through t := by
  rw [through, hcuts, hstrays]
  rfl

theorem through_cons_eq_some (h : s.through (c :: t) = some r) :
    s.cuts c = false ∧ s.strays c = false ∧ (s.step c).through t = some r := by
  rw [through] at h
  split at h
  · cases h
  · rename_i hc
    rw [Bool.not_eq_true, Bool.or_eq_false_iff] at hc
    exact ⟨hc.1, hc.2, h⟩

theorem through_append (h : s.through t = some r) : s.through (t ++ u) = r.through u := by
  induction t generalizing s with
  | nil =>
    obtain rfl := Option.some.inj h
    rfl
  | cons c rest ih =>
    obtain ⟨hcuts, hstrays, h⟩ := through_cons_eq_some h
    rw [List.cons_append, through_cons hcuts hstrays]
    exact ih h

/-- **A text is scanned within brackets as it is scanned alone.** -/
theorem Inside.through (h : Inside d s s') (ht : s.through t = some r) :
    ∃ r', s'.through t = some r' ∧ Inside d r r' := by
  induction t generalizing s s' with
  | nil =>
    obtain rfl := Option.some.inj ht
    exact ⟨s', rfl, h⟩
  | cons c rest ih =>
    obtain ⟨hcuts, hstrays, ht⟩ := through_cons_eq_some ht
    rw [through_cons (h.cuts hcuts) (h.strays hstrays)]
    exact ih (h.step hstrays) ht

theorem At.through_plain (h : s.At d) (ht : ∀ c ∈ t, Plain c) :
    ∃ r, s.through t = some r ∧ r.At d := by
  induction t generalizing s with
  | nil => exact ⟨s, rfl, h⟩
  | cons c rest ih =>
    obtain ⟨hc, hrest⟩ := List.forall_mem_cons.1 ht
    rw [through_cons (not_cuts_of_plain hc) (not_strays_of_plain hc)]
    exact ih (h.step_plain hc) hrest

theorem At.through_blank (h : s.At d) (ht : Text.Blank t) : s.through t = some s := by
  induction t with
  | nil => rfl
  | cons c rest ih =>
    obtain ⟨hc, hrest⟩ := List.forall_mem_cons.1 ht
    have hplain := plain_of_isBlank hc
    rw [through_cons (not_cuts_of_plain hplain) (not_strays_of_plain hplain), h.step_blank hc]
    exact ih hrest

/-- Between quotes, all other characters are text. -/
theorem through_inside {q : Char} (ht : q ∉ t) (hs : s.quote = some q) : s.through t = some s := by
  induction t with
  | nil => rfl
  | cons c rest ih =>
    rw [List.mem_cons, not_or] at ht
    have hstep : s.step c = s := by
      simp only [step, hs, if_neg (Ne.symm ht.1)]
    rw [through_cons (by simp [cuts, hs]) (by simp [strays, hs]), hstep]
    exact ih ht.2

theorem pieces_append {p : Text} {ps : List Text} (h : s.through t = some r)
    (hp : r.pieces u = p :: ps) : s.pieces (t ++ u) = (t ++ p) :: ps := by
  induction t generalizing s with
  | nil =>
    obtain rfl := Option.some.inj h
    exact hp
  | cons c rest ih =>
    obtain ⟨hcuts, -, h⟩ := through_cons_eq_some h
    simp only [List.cons_append, pieces, hcuts, ih h]
    rfl

/-- **A text that a scan goes through is one piece.** -/
theorem pieces_of_through (h : s.through t = some r) : s.pieces t = [t] := by
  have hp := pieces_append h (u := []) rfl
  rwa [List.append_nil] at hp

/-- **A comma outside brackets and quotes ends a piece.** -/
theorem pieces_of_through_comma (h : s.through t = some r) (hr : r.At 0) :
    s.pieces (t ++ ',' :: u) = t :: (r.step ',').pieces u := by
  have hcut : r.pieces (',' :: u) = [] :: (r.step ',').pieces u := by
    have hc : r.cuts ',' = true := by simp [cuts, hr.quote, hr.depth]
    simp only [pieces, hc, if_true]
  have hp := pieces_append h hcut
  rwa [List.append_nil] at hp

end Scanner

/-! ## Texts that can be arguments -/

namespace Text

open Scanner

variable {n : Nat} {before t after u : Text}

/-- Brackets are balanced, none closes before it opens, quotes are closed, and no comma stands
    outside brackets and quotes. -/
def isClosed (t : Text) : Bool :=
  (Scanner.start.through t).any fun r => r.depth == 0 && r.quote.isNone

/-- Where a value can start within `n` brackets or more, a scan goes through the text, and comes
    back to the same depth. -/
def Passes (n : Nat) (t : Text) : Prop :=
  ∀ ⦃d : Nat⦄ ⦃s : Scanner⦄, n ≤ d → s.Ready d → ∃ r, s.through t = some r ∧ r.At d

theorem Passes.mono {m : Nat} (h : t.Passes n) (hm : n ≤ m) : t.Passes m :=
  fun _ _ hd hs => h (hm.trans hd) hs

/-- **A text that is closed by itself can stand within any brackets.** -/
theorem passes_of_isClosed (h : isClosed t = true) : t.Passes 0 := by
  intro d s _ hs
  obtain ⟨r, hr, hclosed⟩ := (Option.any_eq_true _ _).1 h
  rw [Bool.and_eq_true, beq_iff_eq, Option.isNone_iff_eq_none] at hclosed
  obtain ⟨r', hr', hin⟩ := hs.inside.through hr
  refine ⟨r', hr', ?_, hin.quote.trans hclosed.2⟩
  rw [hin.depth, hclosed.1, Nat.zero_add]

theorem passes_of_plain (ht : ∀ c ∈ t, Plain c) : Passes 0 t := fun _ _ _ hs => hs.through_plain ht

theorem Blank.passes (h : Blank t) (n : Nat) : t.Passes n :=
  fun _ s _ hs => ⟨s, hs.through_blank h, hs.toAt⟩

theorem Passes.pad (h : t.Passes n) (hb : Blank before) (ha : Blank after) :
    (before ++ t ++ after).Passes n := by
  intro d s hd hs
  obtain ⟨r, hr, hrest⟩ := h hd hs
  refine ⟨r, ?_, hrest⟩
  rw [List.append_assoc, through_append (hs.through_blank hb), through_append hr]
  exact hrest.through_blank ha

/-- Within brackets, a comma is as good as any other character. -/
theorem Passes.comma (ht : t.Passes 1) (hu : u.Passes 1) : (t ++ ',' :: u).Passes 1 := by
  intro d s hd hs
  obtain ⟨r, hr, hrest⟩ := ht hd hs
  obtain ⟨r', hr', hrest'⟩ := hu hd hrest.step_comma
  refine ⟨r', ?_, hrest'⟩
  have hcuts : r.cuts ',' = false := by
    unfold Scanner.cuts
    rw [hrest.depth, Bool.and_eq_false_iff]
    exact Or.inr (beq_eq_false_iff_ne.2 (by omega))
  rw [through_append hr, through_cons hcuts (by simp [strays])]
  exact hr'

/-- **A text within brackets can stand anywhere.** -/
theorem Passes.brackets (opening closing : Char) (ho : opening ∈ ['(', '[', '{'])
    (hc : closing ∈ [')', ']', '}']) (h : t.Passes 1) {d : Nat} {s : Scanner} (hs : s.At d) :
    ∃ r, s.through (opening :: (t ++ [closing])) = some r ∧ r.At d := by
  obtain ⟨r, hr, hat⟩ := h (Nat.le_add_left 1 d) (hs.step_open ho)
  have hopen : s.cuts opening = false ∧ s.strays opening = false := by
    simp only [List.mem_cons, List.not_mem_nil, or_false] at ho
    rcases ho with rfl | rfl | rfl <;> simp [Scanner.cuts, Scanner.strays]
  have hclose : r.cuts closing = false ∧ r.strays closing = false := by
    simp only [List.mem_cons, List.not_mem_nil, or_false] at hc
    rcases hc with rfl | rfl | rfl <;> simp [Scanner.cuts, Scanner.strays, hat.depth]
  refine ⟨r.step closing, ?_, hat.step_close hc⟩
  rw [Scanner.through_cons hopen.1 hopen.2, Scanner.through_append hr,
    Scanner.through_cons hclose.1 hclose.2]
  rfl

theorem eq_of_isQuote {q : Char} (h : Call.isQuote q = true) : q = '"' ∨ q = '\'' := by
  simpa [Call.isQuote] using h

/-- **A text in quotes can stand as an argument**, unless the quotes occur in it. -/
theorem passes_quoted {q : Char} (hq : Call.isQuote q = true) (ht : q ∉ t) :
    Passes 0 (q :: (t ++ [q])) := by
  intro d s _ hs
  have hquote := eq_of_isQuote hq
  have hblank : isBlank q = false := by rcases hquote with rfl | rfl <;> decide
  have hopened : s.step q = { s with quote := some q, previous := some q } := by
    simp only [step, hs.quote, hs.opens, hquote, hblank, and_self, if_true]
    rfl
  have hquiet : ∀ r : Scanner, r.cuts q = false ∧ r.strays q = false := by
    intro r
    rcases hquote with rfl | rfl <;> simp [cuts, strays]
  refine ⟨(s.step q).step q, ?_, ?_⟩
  · have hinside : (s.step q).through t = some (s.step q) := through_inside ht (by rw [hopened])
    rw [through_cons (hquiet s).1 (hquiet s).2, through_append hinside,
      through_cons (hquiet _).1 (hquiet _).2]
    rfl
  · rw [hopened]
    simp only [step, if_true]
    exact ⟨hs.depth, rfl⟩

end Text

/-! ## Calls as written -/

namespace Call

variable {name inner : Text}

theorem isNameChar_of_mem {c : Char} (hn : isName name = true) (hc : c ∈ name) :
    isNameChar c = true := by
  unfold isName at hn
  rw [Bool.and_eq_true] at hn
  exact List.all_eq_true.1 hn.2 c hc

/-- A call as it is written. -/
def write (name inner : Text) : Text := name ++ '(' :: (inner ++ [')'])

theorem passes_write (hn : isName name = true) (h : inner.Passes 1) :
    (write name inner).Passes 0 := by
  intro d s _ hs
  obtain ⟨r, hr, hat⟩ := hs.through_plain fun c hc =>
    Scanner.plain_of_isNameChar (isNameChar_of_mem hn hc)
  obtain ⟨r', hr', hat'⟩ := h.brackets '(' ')' (by decide) (by decide) hat
  exact ⟨r', (Scanner.through_append hr).trans hr', hat'⟩

theorem isBlank_of_isNameChar {c : Char} (h : isNameChar c = true) : Text.isBlank c = false := by
  have hnat : (65 ≤ c.toNat ∧ c.toNat ≤ 90 ∨ 97 ≤ c.toNat ∧ c.toNat ≤ 122) ∨
      48 ≤ c.toNat ∧ c.toNat ≤ 57 ∨ c.toNat = 95 ∨ c.toNat = 58 := by
    simp only [isNameChar, Char.isAlphanum, Char.isAlpha, Char.isUpper, Char.isLower, Char.isDigit,
      Bool.or_eq_true, Bool.and_eq_true, decide_eq_true_eq, beq_iff_eq,
      UInt32.le_iff_toNat_le] at h
    rcases h with (((h | h) | h) | rfl) | rfl
    · exact Or.inl (Or.inl h)
    · exact Or.inl (Or.inr h)
    · exact Or.inr (Or.inl h)
    · decide
    · decide
  have hspace : c ≠ ' ' := by
    rintro rfl
    exact absurd hnat (by decide)
  rw [← Bool.not_eq_true]
  intro hblank
  simp only [Text.isBlank, Bool.or_eq_true, Bool.and_eq_true, decide_eq_true_eq, hspace,
    false_or] at hblank
  omega

theorem isQuote_of_mem_name {c : Char} (hn : isName name = true) (hc : c ∈ name) :
    isQuote c = false := by
  rw [isQuote, Bool.or_eq_false_iff, beq_eq_false_iff_ne, beq_eq_false_iff_ne]
  constructor <;> rintro rfl <;> exact absurd (isNameChar_of_mem hn hc) (by decide)

theorem nameOf_eq (hn : isName name = true) : nameOf name = name := by
  have hquote : ∀ c ∈ name, isQuote c = false := fun c => isQuote_of_mem_name hn
  unfold nameOf
  rw [Text.dropWhile_of_none hquote, Text.dropEndWhile_of_none hquote]

theorem trim_write (hn : isName name = true) (inner : Text) :
    Text.trim (write name inner) = write name inner := by
  cases name with
  | nil => cases hn
  | cons c cs =>
    have hc := isBlank_of_isNameChar (isNameChar_of_mem hn List.mem_cons_self)
    have h := Text.trim_eq_self hc (by decide : Text.isBlank ')' = false) (cs ++ '(' :: inner)
    simpa only [write, List.cons_append, List.append_assoc] using h

/-- **A call that is written is read as it was written.** -/
theorem parse?_write (hn : isName name = true) (inner : Text) :
    parse? (write name inner) = some ⟨name, inner, splitArguments inner⟩ := by
  have hbefore : ∀ c ∈ name, (c != '(') = true := by
    intro c hc
    rw [bne_iff_ne]
    rintro rfl
    exact absurd (isNameChar_of_mem hn hc) (by decide)
  unfold parse?
  rw [trim_write hn, write, List.span_eq_takeWhile_dropWhile,
    List.takeWhile_append_of_pos hbefore, List.dropWhile_append_of_pos hbefore]
  simp [Text.beforeLast_append, nameOf_eq hn, hn]

end Call

/-! ## Arguments -/

theorem splitArguments_of_blank {t : Text} (h : Text.Blank t) : splitArguments t = [] := by
  unfold splitArguments
  rw [Text.trim_eq_nil_iff.2 h]
  rfl

theorem splitArguments_eq {t : Text} (h : ¬ Text.Blank t) :
    splitArguments t = (Scanner.start.pieces t).map Text.trim := by
  unfold splitArguments
  rw [if_neg fun hc => h (Text.trim_eq_nil_iff.1 (List.isEmpty_iff.1 hc))]

end Recordsmith
