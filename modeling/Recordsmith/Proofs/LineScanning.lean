import Recordsmith.Json.Writer
import Recordsmith.Proofs.ArgumentCuts
import Recordsmith.Proofs.Arguments
import Recordsmith.Proofs.Digits

/-!
# Lines as arguments

A JSON line is an argument of a call as any other text: the splitter has its own rules for brackets
and quotes, and knows no escapes.

* `Text.Whole` is a text that the splitter takes for one argument;
* `splitArguments_of_whole`: such a text is an argument behind which others can follow;
* `Json.Unquoted`, `Json.passes_render`: the line of a value is whole if no text in it has a quote.
-/

namespace Recordsmith

/-! ## Whole texts -/

namespace Scanner

theorem foldl_of_through {s r : Scanner} {t : Text} (h : s.through t = some r) :
    t.foldl step s = r := by
  induction t generalizing s with
  | nil => exact Option.some.inj h
  | cons c rest ih => exact ih (through_cons_eq_some h).2.2

/-- A comma outside brackets and quotes ends the last piece before it. -/
theorem pieces_comma (t u : Text) : ∀ {s : Scanner}, (t.foldl step s).At 0 →
    s.pieces (t ++ ',' :: u) = s.pieces t ++ ((t.foldl step s).step ',').pieces u := by
  induction t with
  | nil =>
    intro s h
    exact pieces_of_through_comma rfl h
  | cons c rest ih =>
    intro s h
    simp only [List.cons_append, pieces, List.foldl_cons, ih h]
    split
    · rfl
    · obtain ⟨p, ps, hp⟩ := List.exists_cons_of_ne_nil (pieces_ne_nil rest (s.step c))
      rw [hp]
      rfl

end Scanner

/-- The splitter takes the text for one argument, and comes out of it outside brackets and quotes.
    -/
structure Text.Whole (t : Text) : Prop where
  pieces : Scanner.start.pieces t = [t]
  ends : (t.foldl Scanner.step Scanner.start).At 0

theorem Text.Passes.whole {t : Text} (h : t.Passes 0) : t.Whole := by
  obtain ⟨r, hr, hat⟩ := h le_rfl Scanner.ready_start
  exact ⟨Scanner.pieces_of_through hr, (Scanner.foldl_of_through hr).symm ▸ hat⟩

theorem Text.Simple.whole {t : Text} (h : t.Simple) : t.Whole :=
  (Text.passes_of_plain h.plain).whole

/-- The texts behind a comma are arguments, with a blank before each. -/
theorem writtenArguments_flatMap (u : Text) (others : List Text) :
    WrittenArguments (u :: others) (' ' :: (u ++ others.flatMap (", ".toList ++ ·))) := by
  have hspace : Text.Blank [' '] := by decide
  induction others generalizing u with
  | nil => simpa using WrittenArguments.one (a := u) hspace Text.blank_nil
  | cons v others ih => simpa using WrittenArguments.cons (a := u) hspace Text.blank_nil (ih v)

/-- **A whole text is an argument as it is**, and simple texts can follow behind it. -/
theorem splitArguments_of_whole {t u : Text} {others : List Text} (h : t.Whole)
    (htrim : Text.trim t = t) (hu : u.Simple) (hothers : ∀ v ∈ others, v.Simple) :
    splitArguments (t ++ (u :: others).flatMap (", ".toList ++ ·)) = t :: u :: others := by
  have hsimple : ∀ v ∈ u :: others, v.Simple := List.forall_mem_cons.2 ⟨hu, hothers⟩
  have hpasses : ∀ v ∈ u :: others, v.Passes 0 := fun v hv =>
    Text.passes_of_plain (hsimple v hv).plain
  have htrims : ∀ v ∈ u :: others, Text.trim v = v := fun v hv => (hsimple v hv).trim_eq
  have hshape : t ++ (u :: others).flatMap (", ".toList ++ ·) =
      t ++ ',' :: (' ' :: (u ++ others.flatMap (", ".toList ++ ·))) := by simp
  rw [hshape, splitArguments_eq fun hb => absurd (hb ',' (by simp)) (by decide),
    Scanner.pieces_comma _ _ h.ends, h.pieces, List.singleton_append, List.map_cons, htrim,
    (writtenArguments_flatMap u others).pieces hpasses h.ends.step_comma,
    List.map_congr_left htrims, List.map_id']

/-! ## JSON lines -/

namespace Json

/-- No text in the value has a quote, and no key. -/
inductive Unquoted : Json → Prop
  | null : Unquoted .null
  | bool (b : Bool) : Unquoted (.bool b)
  | int (n : Int) : Unquoted (.int n)
  | str {t : Text} : '"' ∉ t → Unquoted (.str t)
  | arr {items : List Json} : (∀ v ∈ items, Unquoted v) → Unquoted (.arr items)
  | obj {members : Members} : (∀ p ∈ members, '"' ∉ p.1) → (∀ p ∈ members, Unquoted p.2) →
      Unquoted (.obj members)

theorem quote_not_mem_escapeChar {c : Char} (h : c ≠ '"') : '"' ∉ escapeChar c := by
  have hdigit : ∀ n < 16, '"' ≠ Nat.digitChar n := by decide
  unfold escapeChar
  split
  · exact absurd rfl h
  all_goals first
    | decide
    | skip
  split
  · rename_i hcontrol
    have h₁ := hdigit (c.toNat / 16) (by omega)
    have h₂ := hdigit (c.toNat % 16) (by omega)
    simp [h₁, h₂]
  · simpa using Ne.symm h

theorem passes_quote {t : Text} (ht : '"' ∉ t) : (quote t).Passes 0 := by
  refine Text.passes_quoted (by decide) fun hmem => ?_
  obtain ⟨c, hc, hmem⟩ := List.mem_flatMap.1 hmem
  exact quote_not_mem_escapeChar (fun heq => ht (heq ▸ hc)) hmem

theorem passes_of_isName {t : Text} (h : Call.isName t = true) : t.Passes 0 :=
  Text.passes_of_plain fun _ hc => Scanner.plain_of_isNameChar (Call.isNameChar_of_mem h hc)

theorem passes_ofInt (n : Int) : (Text.ofInt n).Passes 0 :=
  Text.passes_of_plain (Text.simple_ofInt n).plain

/-- A member: a colon stands where a value can start. -/
theorem passes_member {key t : Text} (hkey : '"' ∉ key) (ht : t.Passes 0) :
    (quote key ++ ':' :: t).Passes 0 := by
  intro d s hd hs
  obtain ⟨r, hr, hat⟩ := passes_quote hkey hd hs
  have hcolon : (r.step ':').Ready d := by
    refine ⟨hat.step_plain (by decide), ?_⟩
    rw [hat.step_of_plain (by decide)]
    rfl
  obtain ⟨r', hr', hat'⟩ := ht hd hcolon
  refine ⟨r', ?_, hat'⟩
  rw [Scanner.through_append hr, Scanner.through_cons (by simp [Scanner.cuts])
    (by simp [Scanner.strays])]
  exact hr'

theorem passes_renderItems : ∀ {items : List Json}, (∀ v ∈ items, (render v).Passes 0) →
    (renderItems items).Passes 1
  | [], _ => Text.blank_nil.passes 1
  | [v], h => (h v List.mem_cons_self).mono (Nat.zero_le 1)
  | v :: _ :: _, h =>
    ((h v List.mem_cons_self).mono (Nat.zero_le 1)).comma
      (passes_renderItems fun u hu => h u (List.mem_cons_of_mem v hu))

theorem passes_renderMembers : ∀ {members : Members}, (∀ p ∈ members, '"' ∉ p.1) →
    (∀ p ∈ members, (render p.2).Passes 0) → (renderMembers members).Passes 1
  | [], _, _ => Text.blank_nil.passes 1
  | [(k, v)], hk, hv =>
    (passes_member (hk _ List.mem_cons_self) (hv _ List.mem_cons_self)).mono (Nat.zero_le 1)
  | (k, v) :: m :: rest, hk, hv => by
    have hfirst := (passes_member (hk _ List.mem_cons_self)
      (hv _ List.mem_cons_self)).mono (Nat.zero_le 1)
    have hrest := hfirst.comma (passes_renderMembers
      (fun p hp => hk p (List.mem_cons_of_mem _ hp)) fun p hp => hv p (List.mem_cons_of_mem _ hp))
    simpa [renderMembers] using hrest

/-- **The line of a value without quotes in its texts can stand as an argument.** -/
theorem passes_render {v : Json} (h : Unquoted v) : (render v).Passes 0 := by
  induction h with
  | null => exact passes_of_isName (by decide)
  | bool b => cases b <;> exact passes_of_isName (by decide)
  | int n =>
    rw [render]
    exact passes_ofInt n
  | str ht =>
    rw [render]
    exact passes_quote ht
  | arr _ ih =>
    rw [render]
    exact fun d s _ hs =>
      (passes_renderItems ih).brackets '[' ']' (by decide) (by decide) hs.toAt
  | obj hkeys _ ih =>
    rw [render]
    exact fun d s _ hs =>
      (passes_renderMembers hkeys ih).brackets '{' '}' (by decide) (by decide) hs.toAt

end Json

end Recordsmith
