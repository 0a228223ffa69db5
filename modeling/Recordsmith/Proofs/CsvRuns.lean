import Recordsmith.Engine
import Recordsmith.Proofs.CsvReading
import Recordsmith.Proofs.Keys
import Recordsmith.Proofs.Shape

/-!
# CSV runs

A CSV run makes the records of a JSON run, and lays them out by the keys of the template.

* `Engine.run_and_runCsv`: both runs make the same records, or both break down;
* `runCsv_readsBack`: a reader of CSV lines finds the records of the JSON run.
-/

namespace Recordsmith

namespace Engine

variable {o : Options} {c : Conditions} {template : Text} {members : Json.Members} {d : Char}

/-- Options that a run accepts: a worker, and a delimiter of one byte. -/
structure Accepted (o : Options) (d : Char) : Prop where
  workers : o.workerCount ≠ 0
  delimiter : o.delimiter = [d]
  single : d.toNat < 128

theorem Accepted.delimiterByte (h : Accepted o d) :
    o.delimiterByte = .ok (UInt8.ofNat d.toNat) := by
  simp only [Options.delimiterByte, h.delimiter, if_pos h.single]

theorem Accepted.validate (h : Accepted o d) : o.validate = .ok () := by
  simp only [Options.validate, if_neg h.workers, h.delimiterByte]
  rfl

theorem run_eq (h : Accepted o d) (htemplate : Template.parse template = .ok (.obj members))
    (s : Shared) : run o c template s =
      match walkWith o c (Walk.lines (evaluateLeaf c.now) (.obj members) o.recordCount) s with
      | (none, s) => (.crashed, s)
      | (some (lines, l), s) => (.generated (finish o lines lines.length l.report), s) := by
  simp only [run, h.validate, htemplate]
  rfl

theorem runCsv_eq (h : Accepted o d) (htemplate : Template.parse template = .ok (.obj members))
    (s : Shared) : runCsv o c template s =
      match walkWith o c (Walk.records (evaluateLeaf c.now) (.obj members) o.recordCount) s with
      | (none, s) => (.crashed, s)
      | (some (rows, l), s) => (.generated (finish o
          (Csv.header (members.map (·.1)) (UInt8.ofNat d.toNat) ::
            rows.map (Csv.row · (members.map (·.1)) (UInt8.ofNat d.toNat)))
          rows.length l.report), s) := by
  simp only [runCsv, h.validate, h.delimiterByte, htemplate]
  rfl

/-- **Both runs use their source and what is shared in the same way**: both break down, or both make
    lines of the same records. -/
theorem run_and_runCsv (h : Accepted o d) (htemplate : Template.parse template = .ok (.obj members))
    (s : Shared) :
    let records := Walk.records (evaluateLeaf c.now) (.obj members) o.recordCount
    let l₀ := Local.start (sourceFor o c runKey 0) o.nested
    (∃ s', records.BreaksDown l₀ s s' ∧ run o c template s = (.crashed, s') ∧
        runCsv o c template s = (.crashed, s')) ∨
      ∃ rows l s', records.Yields l₀ s rows l s' ∧
        run o c template s =
          (.generated (finish o (rows.map Json.render) rows.length l.report), s') ∧
        runCsv o c template s = (.generated (finish o
          (Csv.header (members.map (·.1)) (UInt8.ofNat d.toNat) ::
            rows.map (Csv.row · (members.map (·.1)) (UInt8.ofNat d.toNat)))
          rows.length l.report), s') := by
  intro records l₀
  have hlines : Walk.lines (evaluateLeaf c.now) (.obj members) o.recordCount =
      List.map Json.render <$> records := bind_pure_comp _ _
  rw [run_eq h htemplate, runCsv_eq h htemplate, hlines]
  rcases Gen.yields_or_breaksDown records l₀ s with ⟨rows, l, s', hrows⟩ | ⟨s', hrows⟩
  · have hcsv : walkWith o c records s = (some (rows, l), s') := hrows
    have hjson : walkWith o c (List.map Json.render <$> records) s =
        (some (rows.map Json.render, l), s') := Gen.yields_map_iff.2 ⟨rows, hrows, rfl⟩
    refine Or.inr ⟨rows, l, s', hrows, ?_, ?_⟩
    · simp only [hjson, List.length_map]
    · simp only [records, hcsv]
  · have hcsv : walkWith o c records s = (none, s') := hrows
    have hjson : walkWith o c (List.map Json.render <$> records) s = (none, s') := by
      rw [map_eq_pure_bind]
      exact Gen.breaksDown_bind_iff.2 (Or.inl hrows)
    refine Or.inl ⟨s', hrows, ?_, ?_⟩
    · simp only [hjson]
    · simp only [records, hcsv]

end Engine

/-! ## Records and lines -/

/-- **A reader of CSV lines finds the records of the JSON run.** Both runs of an object template
    break down together, and only if its lists cannot be laid out or one of its leaves breaks down.
    Otherwise the first line holds the keys, which are distinct, and each later one has one field
    for each key: the value of the record that the JSON run writes, or nothing if the value is null
    or was left out. Both runs have the same report, and leave the same state behind. -/
theorem runCsv_readsBack {o : Options} {c : Conditions} {template : Text} {members : Json.Members}
    {d : Char} (haccepted : Engine.Accepted o d) (hquote : d ≠ '"')
    (htemplate : Template.parse template = .ok (.obj members)) (hmembers : members ≠ [])
    (s : Shared) :
    let keys := members.map (·.1)
    keys.Nodup ∧
      ((∃ s', Engine.run o c template s = (.crashed, s') ∧
          Engine.runCsv o c template s = (.crashed, s') ∧
          (Walk.Fits o.nested (.obj members) o.recordCount →
            (visitAll (evaluateLeaf c.now)
              (Walk.visits o.nested (.obj members) o.recordCount)).BreaksDown
                (.start (sourceFor o c runKey 0) o.nested) s s')) ∨
        ∃ rows header lines report s',
          Engine.run o c template s = (.generated ⟨rows.map Json.render, report⟩, s') ∧
          Engine.runCsv o c template s = (.generated ⟨header :: lines, report⟩, s') ∧
          (header :: lines).length = 1 + o.recordCount ∧
          Csv.read? d header = some keys ∧
          List.Forall₂ (fun row line =>
            (∃ values out, MembersMirror o.nested members values out ∧ row = .obj out) ∧
            Csv.read? d line =
              some (keys.map fun key => ((row.get? key).map Csv.fieldText).getD []))
            rows lines) := by
  intro keys
  refine ⟨Template.keys_nodup htemplate, ?_⟩
  have hkeys : keys ≠ [] := fun h => hmembers (List.map_eq_nil_iff.1 h)
  have hfollow := Walk.records_follow (n := o.nested) (keepsNested_evaluateText (σ := ChaCha) c.now)
    (.obj members) o.recordCount
  rcases Engine.run_and_runCsv (c := c) haccepted htemplate s with
    ⟨s', hbreaks, hrun, hcsv⟩ | ⟨rows, l, s', hrows, hrun, hcsv⟩
  · exact Or.inl ⟨s', hrun, hcsv, fun hfits => hfollow.breaksDown rfl hfits hbreaks⟩
  · obtain ⟨values, -, -, hmirror⟩ := hfollow.yields rfl hrows
    have hlength : rows.length = o.recordCount := Repeated.length hmirror
    refine Or.inr ⟨rows, _, _, _, s', hrun, hcsv, ?_,
      Csv.read?_line haccepted.single hquote hkeys, ?_⟩
    · rw [List.length_cons, List.length_map, hlength, Nat.add_comm]
    · refine List.forall₂_map_right_iff.2 (List.forall₂_same.2 fun row hrow => ?_)
      obtain ⟨vs, out, hout, rfl⟩ := hmirror.exists_of_mem hrow
      refine ⟨⟨vs, out, hout, rfl⟩, Csv.read?_line haccepted.single hquote ?_⟩
      exact fun h => hkeys (List.map_eq_nil_iff.1 h)

/-- A template with a text that needs quotes, a null and an array. -/
def orders : Text := "\x7b\"id\":7,\"say\":\"a;b\",\"none\":null,\"of\":[true]\x7d".toList

theorem runCsv_readsBack_orders :
    ∃ header line report s',
      Engine.runCsv { recordCount := 1, delimiter := [';'], seed := some 7 }
        ⟨.midnight .epoch, fun _ => 0⟩ orders .fresh = (.generated ⟨[header, line], report⟩, s') ∧
      Csv.read? ';' header = some ["id".toList, "say".toList, "none".toList, "of".toList] := by
  have haccepted : Engine.Accepted { recordCount := 1, delimiter := [';'], seed := some 7 } ';' :=
    ⟨by decide, rfl, by decide⟩
  have htemplate : Template.parse orders = .ok (.obj [("id".toList, .int 7),
      ("say".toList, .str "a;b".toList), ("none".toList, .null),
      ("of".toList, .arr [.bool true])]) := by
    cbv
  obtain ⟨-, ⟨s', hrun, -⟩ | ⟨rows, header, lines, report, s', -, hcsv, hlength, hheader, -⟩⟩ :=
    runCsv_readsBack (c := ⟨.midnight .epoch, fun _ => 0⟩) haccepted (by decide) htemplate (by simp)
      .fresh
  · have hmade : ∃ g s', Engine.run { recordCount := 1, delimiter := [';'], seed := some 7 }
        ⟨.midnight .epoch, fun _ => 0⟩ orders .fresh = (.generated g, s') := by
      rw [Engine.run_eq haccepted htemplate]
      exact ⟨_, _, rfl⟩
    obtain ⟨g, s₁, hmade⟩ := hmade
    cases hrun.symm.trans hmade
  · obtain ⟨line, rfl⟩ := List.length_eq_one_iff.1 (Nat.succ.inj (hlength.trans (Nat.add_comm _ _)))
    exact ⟨header, line, report, s', hcsv, hheader⟩

/-- Without a worker there is no CSV run, and a list that cannot be laid out breaks it down. -/
theorem runCsv_not_total :
    (Template.parse "\x7b\"a\":1\x7d".toList = .ok (.obj [("a".toList, .int 1)]) ∧
      ∀ g s', Engine.runCsv { recordCount := 1, workerCount := 0 } ⟨.midnight .epoch, fun _ => 0⟩
        "\x7b\"a\":1\x7d".toList .fresh ≠ (.generated g, s')) ∧
    Template.parse "\x7b\"a\":[1]\x7d".toList = .ok (.obj [("a".toList, .arr [.int 1])]) ∧
      ∀ g s', Engine.runCsv { recordCount := 1, nested := 18446744073709551615 }
        ⟨.midnight .epoch, fun _ => 0⟩ "\x7b\"a\":[1]\x7d".toList .fresh ≠ (.generated g, s') := by
  have htemplate : Template.parse "\x7b\"a\":[1]\x7d".toList =
      .ok (.obj [("a".toList, .arr [.int 1])]) := by
    cbv
  refine ⟨⟨by cbv, fun g s' h => ?_⟩, htemplate, fun g s' h => ?_⟩
  · cases h
  · have hcrash : Engine.walkWith { recordCount := 1, nested := 18446744073709551615 }
        ⟨.midnight .epoch, fun _ => 0⟩ (Walk.records (evaluateLeaf (.midnight .epoch))
          (.obj [("a".toList, .arr [.int 1])]) 1) .fresh = (none, .fresh) := rfl
    rw [Engine.runCsv_eq (d := ',') ⟨by decide, rfl, by decide⟩ htemplate, hcrash] at h
    cases h

end Recordsmith
