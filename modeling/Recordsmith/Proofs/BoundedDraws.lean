import Recordsmith.Evaluator
import Recordsmith.Proofs.Coverage

/-!
# What bounded draws give

* `Draw.Gives` says that the values a draw can give are those with a property: no source yields any
  other, and some words yield each of them;
* `Draw.Gives.bind` puts the values of a sequence together, so that `Draw.gives_letters` follows the
  recursion of the text;
* `Draw.reaches_every_index`: a choice reaches every place of a list, whatever stands there;
* `Draw.gives_exactly`: random integers, choices and texts are all those that were asked for, and a
  range without integers is refused before anything is drawn.
-/

namespace Recordsmith

namespace Draw

variable {α β : Type}

/-- The values that the draw can give are those with a property. -/
structure Gives (d : (σ : Type) → [WordSource σ] → StateM σ α) (P : α → Prop) : Prop where
  always : ∀ (σ : Type) [WordSource σ], Always (d σ) P
  reaches : ∀ a, P a → Reaches (d Replay) a

namespace Gives

variable {d : (σ : Type) → [WordSource σ] → StateM σ α} {P : α → Prop}

theorem pure (a : α) : Gives (fun _ => Pure.pure a) (· = a) where
  always _ _ := Always.pure rfl
  reaches := by
    rintro _ rfl
    exact Reaches.pure _

/-- What a sequence can give is what its second draw can, after a value of the first one. -/
theorem bind {f : α → (σ : Type) → [WordSource σ] → StateM σ β} {Q : α → β → Prop}
    (hd : Gives d P) (hf : ∀ a, P a → Gives (f a) (Q a)) :
    Gives (fun σ => d σ >>= fun a => f a σ) fun b => ∃ a, P a ∧ Q a b where
  always σ _ := Always.bind (hd.always σ) fun a ha s => ⟨a, ha, (hf a ha).always σ s⟩
  reaches := by
    rintro b ⟨a, ha, hb⟩
    exact (hd.reaches a ha).bind ((hf a ha).reaches b hb)

theorem map (hd : Gives d P) (g : α → β) :
    Gives (fun σ => do let a ← d σ; Pure.pure (g a)) fun b => ∃ a, P a ∧ b = g a :=
  hd.bind fun a _ => pure (g a)

theorem congr {Q : α → Prop} (hd : Gives d P) (h : ∀ a, P a ↔ Q a) : Gives d Q where
  always σ _ s := (h _).1 (hd.always σ s)
  reaches a ha := hd.reaches a ((h a).2 ha)

end Gives

/-! ## Integers -/

theorem gives_natBetween {low high : Nat} (h : low ≤ high) (hhigh : high < twoTo 64) :
    Gives (fun _ => natBetween low high) fun n => low ≤ n ∧ n ≤ high where
  always _ _ := natBetween_spec h
  reaches _ hn := reaches_natBetween hn.1 hn.2 hhigh

theorem gives_between32 {low high : Int} (h : low ≤ high) (hspan : high - low < twoTo 32) :
    Gives (fun _ => between32 low high) fun n => low ≤ n ∧ n ≤ high where
  always _ _ := between32_spec h
  reaches _ hn := reaches_between32 hn.1 hn.2 hspan

-- In the widest range, the carry of a second word leads to the last number.
example : (between32 (-2147483648) 2147483646 (⟨[4294967294, 4294967295], 0⟩ : Replay)).1 =
    2147483646 := by decide

theorem gives_between64 {low high : Int} (h : low ≤ high) (hspan : high - low < twoTo 64) :
    Gives (fun _ => between64 low high) fun n => low ≤ n ∧ n ≤ high where
  always _ _ := between64_spec h
  reaches _ hn := reaches_between64 hn.1 hn.2 hspan

/-- A result that is an integer from `min` up to but without `max`. -/
def InRange (min max : Int) (r : Except Failure Int) : Prop := ∃ n, r = .ok n ∧ min ≤ n ∧ n < max

theorem Gives.inRange {d : (σ : Type) → [WordSource σ] → StateM σ Int} {min max : Int}
    (hd : Gives d fun n => min ≤ n ∧ n ≤ max - 1) :
    Gives (fun σ => do Pure.pure (.ok (← d σ))) (InRange min max) := by
  refine (hd.map Except.ok).congr fun r => exists_congr fun n => ?_
  rw [Int.le_sub_one_iff, and_comm]

theorem gives_drawInt {min max : Int} (h : min < max) (hmin : IntegerRange.int32.min ≤ min)
    (hmax : max ≤ IntegerRange.int32.max) :
    Gives (fun _ => Function.drawInt min max) (InRange min max) := by
  have hspan : max - 1 - min < twoTo 32 := by
    simp only [IntegerRange.int32] at hmin hmax
    change _ < (4294967296 : Int)
    omega
  have hdraw := (gives_between32 (Int.le_sub_one_of_lt h) hspan).inRange
  simpa only [Function.drawInt, if_neg (not_le.2 h)] using hdraw

theorem gives_drawLong {min max : Int} (h : min < max) (hmin : IntegerRange.int64.min ≤ min)
    (hmax : max ≤ IntegerRange.int64.max) :
    Gives (fun _ => Function.drawLong min max) (InRange min max) := by
  have hspan : max - 1 - min < twoTo 64 := by
    simp only [IntegerRange.int64] at hmin hmax
    change _ < (18446744073709551616 : Int)
    omega
  have hdraw := (gives_between64 (Int.le_sub_one_of_lt h) hspan).inRange
  simpa only [Function.drawLong, if_neg (not_le.2 h)] using hdraw

/-! ## Choices -/

/-- **A choice reaches every place of a list**, by words that depend on its length alone. -/
theorem reaches_every_index {n index : Nat} (h : index < n) (hn : n ≤ twoTo 64) :
    ∃ words, ∀ {α : Type} {values : List α}, values.length = n → ∀ before after : List UInt64,
      (choose values : StateM Replay (Option α)) ⟨before ++ (words ++ after), before.length⟩ =
        (values[index]?, ⟨before ++ (words ++ after), before.length + words.length⟩) := by
  obtain ⟨words, hwords⟩ := reaches_natBetween (Nat.zero_le index) (Nat.le_sub_one_of_lt h)
    (lt_of_lt_of_le (Nat.sub_one_lt_of_lt h) hn)
  refine ⟨words, fun {α values} hlength before after => ?_⟩
  subst hlength
  cases values with
  | nil => exact absurd h (Nat.not_lt_zero _)
  | cons v rest => exact congrArg (fun p => ((v :: rest)[p.1]?, p.2)) (hwords before after)

theorem reaches_choose {values : List α} (hn : values.length ≤ twoTo 64) {v : α} {index : Nat}
    (h : values[index]? = some v) : Reaches (choose values) (some v) := by
  obtain ⟨hlt, -⟩ := List.getElem?_eq_some_iff.1 h
  obtain ⟨words, hwords⟩ := reaches_every_index hlt hn
  exact ⟨words, fun before after => by rw [hwords rfl, h]⟩

theorem gives_choose {values : List α} (h : values ≠ []) (hn : values.length ≤ twoTo 64) :
    Gives (fun _ => choose values) fun a => ∃ v ∈ values, a = some v where
  always _ _ := choose_mem h
  reaches := by
    rintro _ ⟨v, hv, rfl⟩
    obtain ⟨index, hindex⟩ := List.mem_iff_getElem?.1 hv
    exact reaches_choose hn hindex

/-! ## Texts -/

/-- A text of `n` characters of a set. -/
def Spells (set : Text) (n : Nat) (t : Text) : Prop := t.length = n ∧ ∀ c ∈ t, c ∈ set

theorem spells_succ_iff {set t : Text} {n : Nat} :
    Spells set (n + 1) t ↔ ∃ c ∈ set, ∃ rest, Spells set n rest ∧ t = c :: rest := by
  constructor
  · rintro ⟨hlength, hmem⟩
    cases t with
    | nil => cases hlength
    | cons c rest =>
      obtain ⟨hc, hrest⟩ := List.forall_mem_cons.1 hmem
      exact ⟨c, hc, rest, ⟨Nat.succ.inj hlength, hrest⟩, rfl⟩
  · rintro ⟨c, hc, rest, ⟨hlength, hmem⟩, rfl⟩
    exact ⟨congrArg Nat.succ hlength, List.forall_mem_cons.2 ⟨hc, hmem⟩⟩

theorem gives_lettersFrom {set : Text} (h : set ≠ []) (hset : set.length ≤ twoTo 64) (n : Nat)
    (drawn : Text) :
    Gives (fun _ => lettersFrom set.toArray n drawn) fun t =>
      ∃ u, Spells set n u ∧ t = drawn.reverse ++ u := by
  have hpos := List.length_pos_iff.2 h
  induction n generalizing drawn with
  | zero =>
    refine (Gives.pure drawn.reverse).congr fun t => ?_
    simp [Spells, and_assoc]
  | succ n ih =>
    have hindex := gives_natBetween (Nat.zero_le (set.toArray.size - 1))
      (lt_of_lt_of_le (Nat.sub_one_lt_of_lt hpos) hset)
    refine (hindex.bind fun index _ => ih (set.toArray.getD index 'a' :: drawn)).congr fun t => ?_
    simp only [spells_succ_iff, List.reverse_cons, List.append_assoc, List.singleton_append]
    constructor
    · rintro ⟨index, ⟨-, hle⟩, rest, hrest, rfl⟩
      have hlt : index < set.length := Nat.lt_of_le_sub_one hpos hle
      refine ⟨_, ⟨set.toArray.getD index 'a', ?_, rest, hrest, rfl⟩, rfl⟩
      simp [Array.getD, hlt]
    · rintro ⟨_, ⟨c, hc, rest, hrest, rfl⟩, rfl⟩
      obtain ⟨index, hlt, rfl⟩ := List.mem_iff_getElem.1 hc
      refine ⟨index, ⟨Nat.zero_le _, Nat.le_sub_one_of_lt hlt⟩, rest, hrest, ?_⟩
      simp [Array.getD, hlt]

/-- **A random text is any text of its length and its characters, and no other.** -/
theorem gives_letters {set : Text} (h : set ≠ []) (hset : set.length ≤ twoTo 64) (n : Nat) :
    Gives (fun _ => letters set n) (Spells set n) := by
  refine (gives_lettersFrom h hset n []).congr fun t => ?_
  simp

/-! ## All of them -/

/-- **Bounded draws give exactly what was asked for.** Whatever words a source yields, a random
    integer lies in its range, a choice is one of the values, and a random text has the length and
    the characters that were asked for. And some words give each integer of the range, up to the
    widest ones; each place of the list, whatever values stand there; and each such text. A range
    without integers is refused, and nothing is drawn. -/
theorem gives_exactly (min max : Int) (values : List α) (n : Nat) :
    (max ≤ min → ∀ {σ : Type} [WordSource σ] (s : σ),
      Function.drawInt min max s = (.error (.argument "int".toList .emptyRange), s) ∧
      Function.drawLong min max s = (.error (.argument "long".toList .emptyRange), s)) ∧
    (min < max → IntegerRange.int32.min ≤ min → max ≤ IntegerRange.int32.max →
      Gives (fun _ => Function.drawInt min max) (InRange min max)) ∧
    (min < max → IntegerRange.int64.min ≤ min → max ≤ IntegerRange.int64.max →
      Gives (fun _ => Function.drawLong min max) (InRange min max)) ∧
    (values ≠ [] → values.length ≤ twoTo 64 →
      Gives (fun _ => choose values) (fun a => ∃ v ∈ values, a = some v) ∧
      ∀ index < values.length, ∃ r : Replay, ∀ {β : Type} {others : List β},
        others.length = values.length → (choose others r).1 = others[index]?) ∧
    Gives (fun _ => letters alphabet n) (Spells alphabet n) ∧
    Gives (fun _ => letters alphabetAndDigits n) (Spells alphabetAndDigits n) := by
  refine ⟨fun h σ _ s => ?_, gives_drawInt, gives_drawLong, fun hne hlength => ⟨?_, ?_⟩, ?_, ?_⟩
  · unfold Function.drawInt Function.drawLong
    rw [if_pos h, if_pos h]
    exact ⟨rfl, rfl⟩
  · exact gives_choose hne hlength
  · intro index hindex
    obtain ⟨words, hwords⟩ := reaches_every_index hindex hlength
    exact ⟨⟨[] ++ (words ++ []), 0⟩, fun hothers => congrArg Prod.fst (hwords hothers [] [])⟩
  · exact gives_letters (by decide) (by decide) n
  · exact gives_letters (by decide) (by decide) n

/-- The widest ranges, a range without integers, and a list that repeats a value. -/
theorem gives_exactly_widest :
    (IntegerRange.int32.min < IntegerRange.int32.max ∧
      Reaches (Function.drawInt IntegerRange.int32.min IntegerRange.int32.max)
        (.ok (IntegerRange.int32.max - 1))) ∧
    (IntegerRange.int64.min < IntegerRange.int64.max ∧
      Reaches (Function.drawLong IntegerRange.int64.min IntegerRange.int64.max)
        (.ok (IntegerRange.int64.max - 1))) ∧
    ((7 : Int) ≤ 7 ∧ Function.drawInt 7 7 (⟨[], 0⟩ : Replay) =
      (.error (.argument "int".toList .emptyRange), ⟨[], 0⟩)) ∧
    ([true, true] ≠ [] ∧ [true, true].length ≤ twoTo 64 ∧
      ∃ r : Replay, (choose ["heads", "tails"] r).1 = some "tails") ∧
    Reaches (letters alphabetAndDigits 2) ['z', '9'] := by
  have h₃₂ : IntegerRange.int32.min < IntegerRange.int32.max := by decide
  have h₆₄ : IntegerRange.int64.min < IntegerRange.int64.max := by decide
  have hne : [true, true] ≠ [] := List.cons_ne_nil _ _
  have hlength : [true, true].length ≤ twoTo 64 := by decide
  have hchoice := (gives_exactly 0 0 [true, true] 2).2.2.2.1 hne hlength
  obtain ⟨r, hr⟩ := hchoice.2 1 (by decide)
  refine ⟨⟨h₃₂, ?_⟩, ⟨h₆₄, ?_⟩, ⟨le_rfl, ?_⟩, ⟨hne, hlength, r, hr rfl⟩, ?_⟩
  · exact ((gives_exactly _ _ [true] 2).2.1 h₃₂ le_rfl le_rfl).reaches _
      ⟨_, rfl, by decide, by decide⟩
  · exact ((gives_exactly _ _ [true] 2).2.2.1 h₆₄ le_rfl le_rfl).reaches _
      ⟨_, rfl, by decide, by decide⟩
  · exact ((gives_exactly _ _ [true] 2).1 le_rfl _).1
  · have hmem : ∀ c ∈ ['z', '9'], c ∈ alphabetAndDigits :=
      List.forall_mem_cons.2 ⟨by decide, List.forall_mem_singleton.2 (by decide)⟩
    exact (gives_exactly 0 0 [true] 2).2.2.2.2.2.reaches _ ⟨rfl, hmem⟩

end Draw
end Recordsmith
