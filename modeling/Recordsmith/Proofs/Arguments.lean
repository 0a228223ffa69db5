import Recordsmith.Proofs.Scanning

/-!
# Arguments as they are written

The scan of a list of arguments goes on across its commas, and is back where it started at each of
them.

* `WrittenArguments` says which texts a list of arguments can be written as: with commas between
  them, and with any white space around each;
* `WrittenArguments.pieces`: a text is cut where its arguments were put together;
* `Call.parse?_arguments`: a call is read as the name and the arguments that it was written with.
-/

namespace Recordsmith

open Text (Blank)

/-- The arguments can be written as the text, with commas between them and any white space around
    each. -/
inductive WrittenArguments : (arguments : List Text) → Text → Prop
  | none {t : Text} : Blank t → WrittenArguments [] t
  | one {before a after : Text} : Blank before → Blank after →
      WrittenArguments [a] (before ++ a ++ after)
  | cons {before a after b u : Text} {rest : List Text} : Blank before → Blank after →
      WrittenArguments (b :: rest) u → WrittenArguments (a :: b :: rest)
        (before ++ a ++ after ++ ',' :: u)

namespace WrittenArguments

variable {a t : Text} {rest arguments : List Text}

/-- **A text is cut where its arguments were put together.** After each argument the scan is outside
    brackets and quotes, and after the comma a value can start again. -/
theorem pieces (h : WrittenArguments (a :: rest) t) (hpasses : ∀ b ∈ a :: rest, b.Passes 0)
    {s : Scanner} (hs : s.Ready 0) : (s.pieces t).map Text.trim = (a :: rest).map Text.trim := by
  induction rest generalizing a t s with
  | nil =>
    cases h with
    | one hbefore hafter =>
      have hpass := (hpasses a List.mem_cons_self).pad hbefore hafter
      obtain ⟨r, hr, -⟩ := hpass le_rfl hs
      rw [Scanner.pieces_of_through hr, List.map_singleton, List.map_singleton,
        Text.trim_pad hbefore hafter]
  | cons b rest ih =>
    cases h with
    | cons hbefore hafter hrest =>
      obtain ⟨ha, hothers⟩ := List.forall_mem_cons.1 hpasses
      obtain ⟨r, hr, hat⟩ := ha.pad hbefore hafter le_rfl hs
      rw [Scanner.pieces_of_through_comma hr hat, List.map_cons, List.map_cons,
        Text.trim_pad hbefore hafter, ih hrest hothers hat.step_comma]

/-- Only a list without arguments, and one of a single empty argument, are written as white space. -/
theorem not_blank (h : WrittenArguments (a :: rest) t) (htrim : Text.trim a = a)
    (hne : a :: rest ≠ [[]]) : ¬ Blank t := by
  intro hb
  cases h with
  | one hbefore hafter =>
    have hnil := Text.trim_eq_nil_iff.2 hb
    rw [Text.trim_pad hbefore hafter, htrim] at hnil
    exact hne (hnil ▸ rfl)
  | cons _ _ _ =>
    have hcomma := hb ',' (List.mem_append_right _ List.mem_cons_self)
    exact absurd hcomma (by decide)

/-- **The arguments of a list are found as they were written.** -/
theorem splitArguments_eq (h : WrittenArguments arguments t)
    (hpasses : ∀ a ∈ arguments, a.Passes 0) (htrim : ∀ a ∈ arguments, Text.trim a = a)
    (hne : arguments ≠ [[]]) : splitArguments t = arguments := by
  cases arguments with
  | nil =>
    obtain ⟨hb⟩ := h
    exact splitArguments_of_blank hb
  | cons a rest =>
    rw [Recordsmith.splitArguments_eq (h.not_blank (htrim a List.mem_cons_self) hne),
      h.pieces hpasses Scanner.ready_start, List.map_congr_left htrim, List.map_id']

end WrittenArguments

namespace Call

/-- **A call is read as it was written.** A name and a list of arguments, each trimmed and closed by
    itself, make a text from which both are read again, in whatever way commas and white space
    stand between the arguments. Only the list of one empty argument is read as no arguments. -/
theorem parse?_arguments {name t : Text} {arguments : List Text} (hname : isName name = true)
    (htrim : ∀ a ∈ arguments, Text.trim a = a) (hclosed : ∀ a ∈ arguments, Text.isClosed a = true)
    (hne : arguments ≠ [[]]) (h : WrittenArguments arguments t) :
    parse? (write name t) = some ⟨name, t, arguments⟩ := by
  have hpasses : ∀ a ∈ arguments, a.Passes 0 := fun a ha => Text.passes_of_isClosed (hclosed a ha)
  rw [parse?_write hname, h.splitArguments_eq hpasses htrim hne]

/-- A quoted closing bracket, two empty arguments, a call with a list, and an apostrophe. -/
def awkward : List Text :=
  ["'a, b)'".toList, [], [], "f(x, [1, 2])".toList, "O'Brien".toList]

theorem parse?_arguments_awkward :
    (isName "mix_2:x".toList = true ∧ (∀ a ∈ awkward, Text.trim a = a) ∧
      (∀ a ∈ awkward, Text.isClosed a = true) ∧ awkward ≠ [[]] ∧
      WrittenArguments awkward "'a, b)' ,,\t, f(x, [1, 2]),O'Brien ".toList) ∧
    parse? "mix_2:x('a, b)' ,,\t, f(x, [1, 2]),O'Brien )".toList =
      some ⟨"mix_2:x".toList, "'a, b)' ,,\t, f(x, [1, 2]),O'Brien ".toList, awkward⟩ := by
  have hname : isName "mix_2:x".toList = true := by decide
  have htrim : ∀ a ∈ awkward, Text.trim a = a := by decide
  have hclosed : ∀ a ∈ awkward, Text.isClosed a = true := by decide
  have hne : awkward ≠ [[]] := by decide
  have hnone := Text.blank_nil
  have hspace : Blank [' '] := by decide
  have htab : Blank ['\t'] := by decide
  have h : WrittenArguments awkward "'a, b)' ,,\t, f(x, [1, 2]),O'Brien ".toList :=
    .cons hnone hspace (.cons hnone hnone (.cons htab hnone (.cons hspace hnone
      (.one hnone hspace))))
  exact ⟨⟨hname, htrim, hclosed, hne, h⟩, parse?_arguments hname htrim hclosed hne h⟩

end Call
end Recordsmith
