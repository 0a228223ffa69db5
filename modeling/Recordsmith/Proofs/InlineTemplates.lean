import Recordsmith.Proofs.Closure
import Recordsmith.Proofs.Composition
import Recordsmith.Proofs.JsonRoundTrip
import Recordsmith.Proofs.LineScanning
import Recordsmith.Proofs.Tallies

/-!
# Templates inside calls

A template can stand in a call, as the line that it is written in. It is walked as it would be on
its own, though its text is cut, trimmed and read on the way.

* `Gen.Defers`: a use can be counted before a computation or after it, and `evaluateText_defers`;
* `Function.inlineArguments_line`: what is read from a call is the template that was written;
* `evaluateText_inline`: the call evaluates to the record that a walk of the template makes, and
  leaves behind what the walk does, with one more use;
* `evaluateText_inline_cut`: a quote in a text of the template can make it another template.
-/

namespace Recordsmith

variable {σ α β : Type}

/-! ## Counting early and late -/

/-- A use that is counted before the computation could as well be counted after it. -/
def Gen.Defers (name : Text) (g : Gen σ α) : Prop :=
  (do Gen.note (Report.recordUse name); g) = (do
    let a ← g
    Gen.note (Report.recordUse name)
    pure a)

namespace Gen.Defers

variable {name : Text}

theorem bind {g : Gen σ α} {f : α → Gen σ β} (hg : g.Defers name) (hf : ∀ a, (f a).Defers name) :
    (g >>= f).Defers name := by
  unfold Defers at hg hf ⊢
  calc (do Gen.note (Report.recordUse name); g >>= f)
      = (do Gen.note (Report.recordUse name); g) >>= f := by rw [bind_assoc]
    _ = (do let a ← g; Gen.note (Report.recordUse name); f a) := by
      rw [hg]
      simp only [bind_assoc, pure_bind]
    _ = _ := by simp only [hf, bind_assoc]

theorem stepwise (name : Text) : Gen.Stepwise (σ := σ) (Gen.Defers name) where
  pure _ := rfl
  bind := bind
  draw _ := rfl
  crash := rfl
  leftOut := rfl
  fallback := rfl
  get hf hsame := funext fun l =>
    (congrFun (hsame { l with report := l.report.recordUse name } l rfl) _).trans
      (congrFun (hf l) l)

/-- **What uses nothing shared defers counts**, together with what it is made of. -/
theorem closed (name : Text) : Gen.Closed (σ := σ) (Gen.Defers name) :=
  (stepwise name).closed fun _ => rfl

/-- Two uses can be counted in either order. -/
theorem note (other : Text) : (Gen.note (Report.recordUse other) : Gen σ Unit).Defers name := by
  funext l
  have hcomm : (l.report.recordUse name).recordUse other =
      (l.report.recordUse other).recordUse name := by
    simp only [Report.recordUse, Tally.add_comm other name]
  change Work.done ((), { l with report := (l.report.recordUse name).recordUse other }) = _
  rw [hcomm]
  rfl

end Gen.Defers

section

variable [WordSource σ]

/-- A text counts the uses in it, whatever is counted before. -/
theorem evaluateText_defers (name : Text) (now : Moment) (t : Text) :
    (evaluateText now t : Gen σ Value).Defers name := by
  refine evaluateText_closed (Gen.Defers.closed name) now (fun self hself f c t _ => ?_) t
  rw [invoke_eq]
  refine .bind (.note c.name) fun _ => ?_
  -- Numbers and dates are taken from what is shared, which no count is part of.
  exact carryOut_closed (Gen.Defers.closed name) hself now
    (fun _ => ⟨fun _ => rfl, fun _ => rfl⟩) c t

end

/-! ## Reading the call -/

theorem Call.number?_ofNat {c : Call} (index : Nat) {n : Nat} (hn : n < 18446744073709551616)
    (h : c.argument? index = some (Text.ofNat n)) :
    c.number? (readIntegerArgument .word64) index = .ok (some (n : Int)) := by
  obtain ⟨d, ds, hds, -⟩ := Text.ofNat_eq_cons n
  have hne : (Text.stripQuotes (Text.ofNat n)).isEmpty = false := by
    rw [Text.stripQuotes_ofNat, hds]
    rfl
  simp only [Call.number?, h, hne, readIntegerArgument_ofNat hn]
  rfl

theorem Function.inlineArguments_line {c : Call} {members : Json.Members} {n : Nat}
    (hn : n < 18446744073709551616) (hplain : (Json.obj members).Plain Json.maxDepth)
    (htoken : ¬ Template.token <:+: (Json.obj members).render)
    (hc : c.arguments = [(Json.obj members).render, Text.ofNat 1, Text.ofNat n]) :
    Function.inlineArguments c = .ok ⟨members, 1, some n⟩ := by
  have hbody : c.argument? 0 = some (Json.obj members).render := by
    rw [Call.argument?, hc]
    rfl
  have hcount := Call.number?_ofNat 1 (by decide : 1 < 18446744073709551616)
    (by rw [Call.argument?, hc]; rfl)
  have hnested := Call.number?_ofNat 2 hn (by rw [Call.argument?, hc]; rfl)
  simp only [Function.inlineArguments, hbody, Function.readInline,
    Template.parse_render hplain htoken, hcount, hnested]
  rfl

theorem Json.trim_render_obj (members : Members) :
    Text.trim (render (.obj members)) = render (.obj members) := by
  rw [render]
  have hopen : Text.isBlank '{' = false := by decide
  have hclose : Text.isBlank '}' = false := by decide
  exact Text.trim_eq_self hopen hclose _

theorem splitArguments_inline {members : Json.Members}
    (h : (Json.obj members).Unquoted ∨ (Json.obj members).render.Whole) (n : Nat) :
    splitArguments ((Json.obj members).render ++ ", 1, ".toList ++ Text.ofNat n) =
      [(Json.obj members).render, Text.ofNat 1, Text.ofNat n] := by
  have hwhole := h.elim (fun h => (Json.passes_render h).whole) id
  have hone : Text.ofNat 1 = ['1'] := by decide
  have hnumbers : ", 1, ".toList ++ Text.ofNat n =
      [Text.ofNat 1, Text.ofNat n].flatMap (", ".toList ++ ·) := by simp [hone]
  rw [List.append_assoc, hnumbers]
  exact splitArguments_of_whole hwhole (Json.trim_render_obj members) (Text.simple_ofNat 1)
    (List.forall_mem_singleton.2 (Text.simple_ofNat n))

/-! ## Walking the template -/

theorem Walk.events_one (leaf : Json → Gen σ Value) (members : Json.Members) :
    Walk.events leaf (.obj members) 1 = (fun r => [r.render]) <$> Json.walkObject leaf members := by
  have hfits : fits 1 = true := by decide
  simp [Walk.events, Walk.objects, Gen.reserve, hfits, Gen.replicate, Gen.repeatFrom]

theorem Gen.withNested_map (n : Nat) (g : Gen σ α) (f : α → β) :
    Gen.withNested n (f <$> g) = f <$> Gen.withNested n g := by
  simp [Gen.withNested, map_bind]

theorem Function.apply_inlineTemplate [WordSource σ] (now : Moment) (self : Text → Gen σ Value)
    {c : Call} {members : Json.Members} {n : Nat}
    (h : Function.inlineArguments c = .ok ⟨members, 1, some n⟩) :
    Function.inlineTemplate.apply now self c = (do
      let record ← ExceptT.lift (Gen.withNested n
        (Json.walkObject (evaluateLeafWith self) members))
      pure (.text record.render)) := by
  change Function.applyInline self c = _
  unfold Function.applyInline
  rw [h, Attempt.ok_bind]
  simp only [Option.getD_some, Walk.events_one, Gen.withNested_map]
  refine ExceptT.ext ?_
  simp only [ExceptT.run_bind_lift, ExceptT.run_pure, bind_map_left]
  rfl

/-! ## The call -/

/-- What stands between the brackets of a call: a template, one record, a repetition of arrays. -/
def Call.inlineText (template : Json) (n : Nat) : Text :=
  template.render ++ ", 1, ".toList ++ Text.ofNat n

/-- A call with a template. -/
def Call.inline (template : Json) (n : Nat) : Text :=
  Call.write "json".toList (Call.inlineText template n)

section

variable [WordSource σ]

/-- A call that one record of a template is read from makes this record, and counts one use. -/
theorem evaluateText_inlineTemplate (now : Moment) {inner : Text} {members : Json.Members} {n : Nat}
    (h : Function.inlineArguments ⟨"json".toList, inner, splitArguments inner⟩ =
      .ok ⟨members, 1, some n⟩) :
    (evaluateText now (Call.write "json".toList inner) : Gen σ Value) = (do
      let record ← Gen.withNested n (Json.walkObject (evaluateLeaf now) members)
      Gen.note (Report.recordUse "json".toList)
      pure (.text record.render)) := by
  have hname : Call.isName "json".toList = true := by decide
  have hnamed : Function.named? "json".toList = some .inlineTemplate := by decide
  have hclosed := Gen.Defers.closed (σ := σ) "json".toList
  have hleaf := evaluateLeafWith_closed hclosed (evaluateText_defers "json".toList now)
  have hdefers : (Gen.withNested n (Json.walkObject (evaluateLeaf now) members)).Defers
      "json".toList :=
    hclosed.withNested n (Json.walkObject_closed hclosed hleaf members)
  calc (evaluateText now (Call.write "json".toList inner) : Gen σ Value)
      = invoke now (evaluateText now) .inlineTemplate ⟨"json".toList, inner, splitArguments inner⟩
          (Call.write "json".toList inner) := evaluateText_write now hname hnamed inner
    _ = (do
          let record ← (do
            Gen.note (Report.recordUse "json".toList)
            Gen.withNested n (Json.walkObject (evaluateLeaf now) members))
          pure (.text record.render)) := by
      rw [invoke_of_lift now (Function.apply_inlineTemplate now _ h), bind_assoc]
      rfl
    _ = _ := by
      rw [hdefers]
      simp only [bind_assoc, pure_bind]

/-- **A template in a call is walked as on its own.** The line of the template must be one argument
    for the splitter; it is if no text in the template has a quote. -/
theorem evaluateText_inline (now : Moment) {members : Json.Members} {n : Nat}
    (hplain : (Json.obj members).Plain Json.maxDepth)
    (htoken : ¬ Template.token <:+: (Json.obj members).render)
    (hwhole : (Json.obj members).Unquoted ∨ (Json.obj members).render.Whole)
    (hn : n < 18446744073709551616) :
    (evaluateText now (Call.inline (.obj members) n) : Gen σ Value) = (do
      let record ← Gen.withNested n (Json.walkObject (evaluateLeaf now) members)
      Gen.note (Report.recordUse "json".toList)
      pure (.text record.render)) :=
  evaluateText_inlineTemplate now <|
    Function.inlineArguments_line hn hplain htoken (splitArguments_inline hwhole n)

end

/-- A template whose text has an apostrophe, brackets and commas. -/
def punctuated : Json.Members :=
  [("it's".toList, .str "[a, b\x7d,".toList), ("of".toList, .arr [.int 7])]

theorem evaluateText_inline_punctuated :
    Call.inline (.obj punctuated) 2 =
      "json(\x7b\"it's\":\"[a, b\x7d,\",\"of\":[7]\x7d, 1, 2)".toList ∧
    (Json.obj punctuated).Plain Json.maxDepth ∧
    ¬ Template.token <:+: (Json.obj punctuated).render ∧
    (Json.obj punctuated).Unquoted ∧
    (evaluateText (.midnight .epoch) (Call.inline (.obj punctuated) 2)).Yields
      (⟨⟨[], 0⟩, 5, {}⟩ : Local Replay) .fresh
      (.text "\x7b\"it's\":\"[a, b\x7d,\",\"of\":[7,7]\x7d".toList)
      ⟨⟨[], 0⟩, 5, { usage := [("json".toList, 1)] }⟩ .fresh := by
  have hplain : (Json.obj punctuated).Plain (126 + 1) :=
    .obj (by decide) (List.forall_mem_cons.2 ⟨.str _, List.forall_mem_singleton.2
      (.arr (List.forall_mem_singleton.2 (.int (by decide) (by decide))))⟩)
  have htoken : ¬ Template.token <:+: (Json.obj punctuated).render := by decide
  have hunquoted : (Json.obj punctuated).Unquoted :=
    .obj (by decide) (List.forall_mem_cons.2 ⟨.str (by decide), List.forall_mem_singleton.2
      (.arr (List.forall_mem_singleton.2 (.int 7)))⟩)
  refine ⟨by decide, hplain, htoken, hunquoted, ?_⟩
  rw [evaluateText_inline _ hplain htoken (.inl hunquoted) (by decide)]
  rfl

/-- A template with a quote in a text. -/
def quoted : Json.Members := [("k".toList, .str "a\"\x7d,1,2,".toList)]

/-- **The splitter knows no escapes.** The quote in a text ends the argument, so the record of the
    call is not that of the template. -/
theorem evaluateText_inline_cut :
    Call.inline (.obj quoted) 2 = "json(\x7b\"k\":\"a\\\"\x7d,1,2,\"\x7d, 1, 2)".toList ∧
    (Json.obj quoted).Plain Json.maxDepth ∧
    ¬ Template.token <:+: (Json.obj quoted).render ∧
    (Gen.withNested 2 (Json.walkObject (evaluateLeaf (.midnight .epoch)) quoted)).Yields
      (⟨⟨[], 0⟩, 5, {}⟩ : Local Replay) .fresh (.obj quoted) ⟨⟨[], 0⟩, 5, {}⟩ .fresh ∧
    (evaluateText (.midnight .epoch) (Call.inline (.obj quoted) 2)).Yields
      (⟨⟨[], 0⟩, 5, {}⟩ : Local Replay) .fresh (.text "\x7b\"k\":\"a\"\x7d".toList)
      ⟨⟨[], 0⟩, 5, { usage := [("json".toList, 1)] }⟩ .fresh ∧
    "\x7b\"k\":\"a\"\x7d".toList ≠ (Json.obj quoted).render := by
  have hcall : Function.inlineArguments ⟨"json".toList, Call.inlineText (.obj quoted) 2,
      splitArguments (Call.inlineText (.obj quoted) 2)⟩ =
        .ok ⟨[("k".toList, .str "a".toList)], 1, some 2⟩ := by
    cbv
  have hplain : (Json.obj quoted).Plain (126 + 1) :=
    .obj (by decide) (List.forall_mem_singleton.2 (.str _))
  refine ⟨by decide, hplain, by decide, rfl, ?_, by decide⟩
  unfold Call.inline
  rw [evaluateText_inlineTemplate _ hcall]
  rfl

end Recordsmith
