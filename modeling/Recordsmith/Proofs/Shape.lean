import Recordsmith.Proofs.Accounting

/-!
# The shape of what is generated

A walk makes a tree of the template's shape. Objects keep their keys in order, arrays are passes over
their items, and only leaves without a JSON form are missing.

* `Shaped`: a computation returns just if its lists can be laid out and its visits return, with a
  result of a given shape, and its worker has counted what was left out;
* `walk_shaped`: walks and records are shaped as their template, and `walk_shaped_limits`: not every
  one of them returns.
-/

namespace Recordsmith

variable {σ α : Type} [WordSource σ]

/-- The computation follows the visits of `nodes`. It returns just if there is `room` for its lists
    and the visits return. Then it leaves behind what they leave behind, its result is shaped by
    their values, and the report has counted the visits that were left out, also those inside calls.
    Where there is room, it breaks down as the visits do. -/
structure Shaped (now : Moment) (nodes : List Json) (room : Prop) (R : List Value → α → Prop)
    (g : Gen σ α) (l : Local σ) (s : Shared) : Prop where
  returns : (∃ a l' s', g.Yields l s a l' s') ↔
    room ∧ ∃ values l' s', (visitAll (evaluateLeaf now) nodes).Yields l s values l' s'
  shape : ∀ a l' s', g.Yields l s a l' s' →
    ∃ values, (visitAll (evaluateLeaf now) nodes).Yields l s values l' s' ∧ R values a ∧
      l'.nested = l.nested ∧
      l'.report.unsupported = l.report.unsupported +
        (visitedByLeaves (evaluateLeaf now) (visitedInLeaf (visited now)) nodes l s).countP
          Value.leftOut
  breaksDown : room → ∀ s', (visitAll (evaluateLeaf now) nodes).BreaksDown l s s' →
    g.BreaksDown l s s'

theorem keepsNested_evaluateText (now : Moment) (t : Text) :
    (evaluateText now t : Gen σ Value).KeepsNested :=
  (evaluateText_accounts now t).keepsNested

theorem Follows.shaped {now : Moment} {nodes : List Json} {room : Prop} {R : List Value → α → Prop}
    {g : Gen σ α} {l : Local σ} (h : Follows (evaluateLeaf now) l.nested nodes room R g)
    (s : Shared) : Shaped now nodes room R g l s := by
  have hend := Gen.yields_or_breaksDown g l s
  refine ⟨⟨?_, ?_⟩, ?_, ?_⟩
  · rintro ⟨a, l', s', hy⟩
    obtain ⟨values, hv, -⟩ := h.yields rfl hy
    exact ⟨h.hasRoom rfl hy, values, l', s', hv⟩
  · rintro ⟨hroom, values, l', s', hv⟩
    refine hend.resolve_right ?_
    rintro ⟨s₁, hb⟩
    exact (h.breaksDown rfl hroom hb).not_yields hv
  · intro a l' s' hy
    obtain ⟨values, hv, hn, hR⟩ := h.yields rfl hy
    have hcount := (visitAll_accounts (evaluateLeafWith_accounts (evaluateText_accounts now))
      nodes l s values l' s' hv).2
    exact ⟨values, hv, hR, hn, hcount⟩
  · intro hroom s' hv
    rcases hend with ⟨a, l₁, s₁, hy⟩ | ⟨s₁, hb⟩
    · obtain ⟨values, hvalues, -⟩ := h.yields rfl hy
      exact absurd hvalues hv.not_yields
    · have hsame := (h.breaksDown rfl hroom hb).symm.trans hv
      rw [(Prod.mk.inj hsame).2] at hb
      exact hb

/-- The number of records that a template makes, if it is asked for `count`. -/
def Json.recordCount (count : Nat) : Json → Nat
  | obj _ => count
  | arr _ => 1
  | _ => 0

theorem Walk.RecordsMirror.length {n count : Nat} {template : Json} {values : List Value}
    {rows : List Json} (h : RecordsMirror n template count values rows) :
    rows.length = template.recordCount count := by
  cases template with
  | obj members => exact Repeated.length h
  | arr items =>
    obtain ⟨out, -, rfl⟩ := h
    rfl
  | _ =>
    obtain rfl : rows = [] := h
    rfl

/-- **What is generated has the shape of the template.** A walk of a template returns just if the
    arrays in it can be laid out and the visits of its leaves return, and it returns a tree that
    mirrors the template. Only scalars are left out of it. The records of a template are as many
    objects as asked for, one array, or none, and mirror it as well. -/
theorem walk_shaped (now : Moment) (template : Json) (l : Local σ) (s : Shared) :
    Shaped now (template.visits l.nested) (template.Fits l.nested) (Mirrors l.nested template)
        (Json.walk (evaluateLeaf now) template) l s ∧
      (∀ (node : Json) values, Mirrors l.nested node values none → node.isScalar = true) ∧
      ∀ count, Shaped now (Walk.visits l.nested template count)
        (Walk.Fits l.nested template count)
        (fun values rows => Walk.RecordsMirror l.nested template count values rows ∧
          rows.length = template.recordCount count)
        (Walk.records (evaluateLeaf now) template count) l s := by
  have hself := keepsNested_evaluateText (σ := σ) now
  refine ⟨(Json.walk_follows hself template).shaped s, fun _ _ => Mirrors.isScalar_of_none,
    fun count => ?_⟩
  exact ((Walk.records_follow hself template count).mono Iff.rfl
    fun _ _ h => And.intro h (Walk.RecordsMirror.length h)).shaped s

/-- An object with an array that is repeated. -/
def colours : Json :=
  .obj [("k".toList, .arr [.bool true, .str "red".toList]), ("n".toList, .null)]

theorem walk_shaped_colours :
    ∃ r, (Json.walk (evaluateLeaf (.midnight .epoch)) colours).Yields
        (⟨⟨[], 0⟩, 2, {}⟩ : Local Replay) .fresh r ⟨⟨[], 0⟩, 2, {}⟩ .fresh ∧
      Mirrors 2 colours [.bool true, .text "red".toList, .bool true, .text "red".toList] r := by
  have hfits : colours.Fits 2 := ⟨⟨by decide, trivial, trivial, trivial⟩, trivial, trivial⟩
  have hvisits : (visitAll (evaluateLeaf (.midnight .epoch)) (colours.visits 2)).Yields
      (⟨⟨[], 0⟩, 2, {}⟩ : Local Replay) .fresh
      [.bool true, .text "red".toList, .bool true, .text "red".toList] ⟨⟨[], 0⟩, 2, {}⟩ .fresh := rfl
  have hshaped := (walk_shaped (.midnight .epoch) colours
    (⟨⟨[], 0⟩, 2, {}⟩ : Local Replay) .fresh).1
  obtain ⟨r, l, s, hr⟩ := hshaped.returns.2 ⟨hfits, _, _, _, hvisits⟩
  obtain ⟨values, hvalues, hmirrors, -⟩ := hshaped.shape r l s hr
  obtain ⟨rfl, rfl, rfl⟩ := hvalues.unique hvisits
  exact ⟨r, hr, hmirrors⟩

/-- An array that cannot be laid out, though a word has the number of its items, objects that
    cannot, and a text that cannot. -/
theorem walk_shaped_limits :
    [Json.int 1].length * 18446744073709551615 < twoTo 64 ∧
    (∀ r l' s', ¬ (Json.walk (evaluateLeaf (.midnight .epoch)) (.arr [.int 1])).Yields
      (⟨⟨[], 0⟩, 18446744073709551615, {}⟩ : Local Replay) .fresh r l' s') ∧
    (∀ rows l' s', ¬ (Walk.records (evaluateLeaf (.midnight .epoch)) (.obj [])
      144115188075855872).Yields (⟨⟨[], 0⟩, 1, {}⟩ : Local Replay) .fresh rows l' s') ∧
    ∀ r l' s', ¬ (Json.walk (evaluateLeaf (.midnight .epoch))
      (.obj [("a".toList, .str "alpha(18446744073709551615)".toList)])).Yields
        (⟨⟨[], 0⟩, 1, {}⟩ : Local Replay) .fresh r l' s' := by
  refine ⟨by decide, fun r l' s' h => ?_, fun rows l' s' h => ?_, fun r l' s' h => ?_⟩
  · cases h
  · cases h
  · cases h

end Recordsmith
