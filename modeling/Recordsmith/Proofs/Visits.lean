import Recordsmith.Evaluator
import Recordsmith.Proofs.Computation

/-!
# Visits of leaves

A walk visits the leaves of a template one after the other, those of an array as often as the array
is repeated.

* `Json.visits` lists the leaves that a walk visits, and `visitAll` visits a list of leaves;
* `Mirrors` says what a walk makes of a template, given the values of its visits;
* `Follows` compares a walk with its visits: it leaves behind what they leave behind, makes its
  result of their values, and breaks down where one of them does, or where a list cannot be laid out;
* `Json.walk_follows`, `Walk.records_follow`: walks and records follow their visits.
-/

namespace Recordsmith

variable {σ α β : Type}

/-! ## Visiting leaves -/

/-- The value has no JSON form. -/
def Value.leftOut (v : Value) : Bool := v.toJson?.isNone

/-- Visits a leaf. A value that is left out is counted. -/
def visit (leaf : Json → Gen σ Value) (node : Json) : Gen σ Value := do
  let v ← leaf node
  if v.leftOut then Gen.note Report.recordUnsupported
  pure v

theorem yields_visit_iff {leaf : Json → Gen σ Value} {node : Json} {v : Value} {l l' : Local σ}
    {s s' : Shared} :
    (visit leaf node).Yields l s v l' s' ↔ ∃ l₁, (leaf node).Yields l s v l₁ s' ∧
      l' = if v.leftOut then { l₁ with report := l₁.report.recordUnsupported } else l₁ := by
  unfold visit
  rw [Gen.yields_bind_iff]
  constructor
  · rintro ⟨w, l₁, s₁, hw, h⟩
    split at h
    · obtain ⟨_, l₂, s₂, hnote, h⟩ := Gen.yields_bind_iff.1 h
      obtain ⟨rfl, rfl⟩ := Gen.yields_note_iff.1 hnote
      obtain ⟨rfl, rfl, rfl⟩ := Gen.yields_pure_iff.1 h
      exact ⟨l₁, hw, (if_pos ‹_›).symm⟩
    · obtain ⟨rfl, rfl, rfl⟩ := Gen.yields_pure_iff.1 h
      exact ⟨l', hw, (if_neg ‹_›).symm⟩
  · rintro ⟨l₁, hv, rfl⟩
    refine ⟨v, l₁, s', hv, ?_⟩
    split
    · exact Gen.yields_bind_iff.2
        ⟨(), _, s', Gen.yields_note_iff.2 ⟨rfl, rfl⟩, Gen.yields_pure_iff.2 ⟨rfl, rfl, rfl⟩⟩
    · exact Gen.yields_pure_iff.2 ⟨rfl, rfl, rfl⟩

/-- Visits leaves from left to right. -/
def visitAll (leaf : Json → Gen σ Value) : List Json → Gen σ (List Value)
  | [] => pure []
  | node :: rest => do
    let v ← visit leaf node
    let others ← visitAll leaf rest
    pure (v :: others)

theorem walkLeaf_eq (leaf : Json → Gen σ Value) (node : Json) :
    Json.walkLeaf leaf node = Value.toJson? <$> visit leaf node := by
  unfold Json.walkLeaf visit
  rw [map_bind]
  refine bind_congr fun v => ?_
  unfold Value.leftOut
  cases h : v.toJson? with
  | none => simp [h]
  | some w => simp [h]

theorem visitAll_append (leaf : Json → Gen σ Value) (xs ys : List Json) :
    visitAll leaf (xs ++ ys) =
      visitAll leaf xs >>= fun vs => visitAll leaf ys >>= fun us => pure (vs ++ us) := by
  induction xs with
  | nil => simp [visitAll]
  | cons node rest ih => simp [visitAll, ih]

namespace Json

mutual

/-- The leaves that a walk visits, if arrays are repeated `n` times. -/
def visits (n : Nat) : Json → List Json
  | null => []
  | bool b => [.bool b]
  | int m => [.int m]
  | float x => [.float x]
  | str t => [.str t]
  | arr items => (List.replicate n (visitsOfItems n items)).flatten
  | obj members => visitsOfMembers n members

/-- The leaves that a walk of the items of an array visits in one pass. -/
def visitsOfItems (n : Nat) : List Json → List Json
  | [] => []
  | node :: rest => visits n node ++ visitsOfItems n rest

/-- The leaves that a walk of the members of an object visits. -/
def visitsOfMembers (n : Nat) : Members → List Json
  | [] => []
  | (_, node) :: rest => visits n node ++ visitsOfMembers n rest

end

mutual

/-- The arrays of the template can be laid out, if they are repeated `n` times. -/
def Fits (n : Nat) : Json → Prop
  | arr items => fits (items.length * n) = true ∧ ItemsFit n items
  | obj members => MembersFit n members
  | _ => True

/-- The arrays in the items can be laid out. -/
def ItemsFit (n : Nat) : List Json → Prop
  | [] => True
  | node :: rest => Fits n node ∧ ItemsFit n rest

/-- The arrays in the members can be laid out. -/
def MembersFit (n : Nat) : Members → Prop
  | [] => True
  | (_, node) :: rest => Fits n node ∧ MembersFit n rest

end

mutual

/-- Arrays that are left out need no room. -/
theorem fits_zero : ∀ v : Json, Fits 0 v
  | .arr items => by
    rw [Fits]
    exact ⟨by rw [Nat.mul_zero]; decide, itemsFit_zero items⟩
  | .obj members => by
    rw [Fits]
    exact membersFit_zero members
  | .null | .bool _ | .int _ | .float _ | .str _ => by simp only [Fits]

theorem itemsFit_zero : ∀ items : List Json, ItemsFit 0 items
  | [] => by simp only [ItemsFit]
  | v :: rest => by
    rw [ItemsFit]
    exact ⟨fits_zero v, itemsFit_zero rest⟩

theorem membersFit_zero : ∀ members : Members, MembersFit 0 members
  | [] => by simp only [MembersFit]
  | (_, v) :: rest => by
    rw [MembersFit]
    exact ⟨fits_zero v, membersFit_zero rest⟩

end

/-- Items that are never walked need no room. -/
theorem itemsFit_iff {n : Nat} {items : List Json} :
    ItemsFit n items ↔ n = 0 ∨ ItemsFit n items :=
  ⟨Or.inr, fun h => h.elim (fun hzero => hzero ▸ itemsFit_zero items) id⟩

/-- The value is neither an array nor an object. -/
def isScalar : Json → Bool
  | arr _ => false
  | obj _ => false
  | _ => true

end Json

/-! ## Shapes -/

mutual

/-- What a walk makes of a template, given the values of its visits: `none` for a leaf that is left
    out. -/
inductive Mirrors (n : Nat) : Json → List Value → Option Json → Prop
  | null : Mirrors n .null [] (some .null)
  | bool (b : Bool) : Mirrors n (.bool b) [.bool b] (some (.bool b))
  | int {m : Int} {v : Value} : v.toJson? = some (.int m) → Mirrors n (.int m) [v] (some (.int m))
  | float {x : Float} : x.isFinite = true → Mirrors n (.float x) [.double x] (some (.float x))
  | noFloat {x : Float} : x.isFinite = false → Mirrors n (.float x) [.double x] none
  | str {t : Text} {v : Value} {w : Json} :
      v.toJson? = some w → w.isScalar = true → Mirrors n (.str t) [v] (some w)
  | noStr {t : Text} {v : Value} : v.toJson? = none → Mirrors n (.str t) [v] none
  | arr {items out : List Json} {values : List Value} :
      PassesMirror n items n values out → Mirrors n (.arr items) values (some (.arr out))
  | obj {members out : Json.Members} {values : List Value} :
      MembersMirror n members values out → Mirrors n (.obj members) values (some (.obj out))

/-- One pass over the items of an array, without the leaves that are left out. -/
inductive ItemsMirror (n : Nat) : List Json → List Value → List Json → Prop
  | nil : ItemsMirror n [] [] []
  | kept {node w : Json} {rest out : List Json} {vs us : List Value} :
      Mirrors n node vs (some w) → ItemsMirror n rest us out →
      ItemsMirror n (node :: rest) (vs ++ us) (w :: out)
  | leftOut {node : Json} {rest out : List Json} {vs us : List Value} :
      Mirrors n node vs none → ItemsMirror n rest us out →
      ItemsMirror n (node :: rest) (vs ++ us) out

/-- Passes over the items of an array, one after the other. -/
inductive PassesMirror (n : Nat) : List Json → Nat → List Value → List Json → Prop
  | zero {items : List Json} : PassesMirror n items 0 [] []
  | succ {items out later : List Json} {passes : Nat} {vs us : List Value} :
      ItemsMirror n items vs out → PassesMirror n items passes us later →
      PassesMirror n items (passes + 1) (vs ++ us) (out ++ later)

/-- The members of an object under their keys, without the leaves that are left out. -/
inductive MembersMirror (n : Nat) : Json.Members → List Value → Json.Members → Prop
  | nil : MembersMirror n [] [] []
  | kept {key : Text} {node w : Json} {rest out : Json.Members} {vs us : List Value} :
      Mirrors n node vs (some w) → MembersMirror n rest us out →
      MembersMirror n ((key, node) :: rest) (vs ++ us) ((key, w) :: out)
  | leftOut {key : Text} {node : Json} {rest out : Json.Members} {vs us : List Value} :
      Mirrors n node vs none → MembersMirror n rest us out →
      MembersMirror n ((key, node) :: rest) (vs ++ us) out

end

/-- Results of as many runs, one after the other, each made of the values of its own visits. -/
inductive Repeated (R : List Value → α → Prop) : Nat → List Value → List α → Prop
  | zero : Repeated R 0 [] []
  | succ {times : Nat} {vs us : List Value} {a : α} {as : List α} :
      R vs a → Repeated R times us as → Repeated R (times + 1) (vs ++ us) (a :: as)

theorem Repeated.length {R : List Value → α → Prop} {times : Nat} {values : List Value}
    {as : List α} (h : Repeated R times values as) : as.length = times := by
  induction h with
  | zero => rfl
  | succ _ _ ih => rw [List.length_cons, ih]

theorem Repeated.exists_of_mem {R : List Value → α → Prop} {times : Nat} {values : List Value}
    {as : List α} (h : Repeated R times values as) {a : α} (ha : a ∈ as) : ∃ vs, R vs a := by
  induction h with
  | zero => exact absurd ha List.not_mem_nil
  | succ hR _ ih =>
    rcases List.mem_cons.1 ha with rfl | ha
    · exact ⟨_, hR⟩
    · exact ih ha

/-- A leaf that is left out is a primitive one: objects and arrays are never dropped. -/
theorem Mirrors.isScalar_of_none {n : Nat} {node : Json} {values : List Value}
    (h : Mirrors n node values none) : node.isScalar = true := by
  cases h <;> rfl

/-! ## Following visits -/

/-- The computation keeps the repetition of arrays. -/
def Gen.KeepsNested (g : Gen σ α) : Prop :=
  ∀ l s a l' s', g.Yields l s a l' s' → l'.nested = l.nested

/-- Where arrays are repeated `n` times, the computation leaves behind what the visits of `nodes`
    leave behind, and makes its result of their values. It ends normally only if there is `room`,
    and then it breaks down only where one of the visits does. -/
structure Follows (leaf : Json → Gen σ Value) (n : Nat) (nodes : List Json) (room : Prop)
    (R : List Value → α → Prop) (g : Gen σ α) : Prop where
  hasRoom : ∀ {l l' : Local σ} {s s' : Shared} {a : α}, l.nested = n → g.Yields l s a l' s' → room
  yields : ∀ {l l' : Local σ} {s s' : Shared} {a : α}, l.nested = n → g.Yields l s a l' s' →
    ∃ values, (visitAll leaf nodes).Yields l s values l' s' ∧ l'.nested = n ∧ R values a
  breaksDown : ∀ {l : Local σ} {s s' : Shared}, l.nested = n → room → g.BreaksDown l s s' →
    (visitAll leaf nodes).BreaksDown l s s'

variable {leaf : Json → Gen σ Value} {n : Nat}

theorem Follows.pure {R : List Value → α → Prop} {a : α} (h : R [] a) :
    Follows leaf n [] True R (Pure.pure a) := by
  refine ⟨fun _ _ => trivial, fun hn hy => ?_, fun _ _ hb => absurd hb Gen.not_breaksDown_pure⟩
  obtain ⟨rfl, rfl, rfl⟩ := Gen.yields_pure_iff.1 hy
  exact ⟨[], Gen.yields_pure_iff.2 ⟨rfl, rfl, rfl⟩, hn, h⟩

/-- **Computations follow each other as their visits do.** -/
theorem Follows.bind {xs ys : List Json} {room₁ room₂ : Prop} {R₁ : List Value → α → Prop}
    {R₂ : α → List Value → β → Prop} {g : Gen σ α} {f : α → Gen σ β}
    (hg : Follows leaf n xs room₁ R₁ g) (hf : ∀ a, Follows leaf n ys room₂ (R₂ a) (f a)) :
    Follows leaf n (xs ++ ys) (room₁ ∧ room₂)
      (fun values b => ∃ vs us a, values = vs ++ us ∧ R₁ vs a ∧ R₂ a us b) (g >>= f) := by
  constructor
  · intro l l' s s' b hn h
    obtain ⟨a, l₁, s₁, ha, hb⟩ := Gen.yields_bind_iff.1 h
    obtain ⟨-, -, hn₁, -⟩ := hg.yields hn ha
    exact ⟨hg.hasRoom hn ha, (hf a).hasRoom hn₁ hb⟩
  · intro l l' s s' b hn h
    obtain ⟨a, l₁, s₁, ha, hb⟩ := Gen.yields_bind_iff.1 h
    obtain ⟨vs, hvs, hn₁, hR₁⟩ := hg.yields hn ha
    obtain ⟨us, hus, hn₂, hR₂⟩ := (hf a).yields hn₁ hb
    refine ⟨vs ++ us, ?_, hn₂, vs, us, a, rfl, hR₁, hR₂⟩
    rw [visitAll_append]
    refine Gen.yields_bind_iff.2 ⟨vs, l₁, s₁, hvs, ?_⟩
    exact Gen.yields_bind_iff.2 ⟨us, l', s', hus, Gen.yields_pure_iff.2 ⟨rfl, rfl, rfl⟩⟩
  · intro l s s' hn hroom h
    rw [visitAll_append]
    rcases Gen.breaksDown_bind_iff.1 h with h | ⟨a, l₁, s₁, ha, h⟩
    · exact Gen.breaksDown_bind_iff.2 (Or.inl (hg.breaksDown hn hroom.1 h))
    · obtain ⟨vs, hvs, hn₁, -⟩ := hg.yields hn ha
      have hlater := (hf a).breaksDown hn₁ hroom.2 h
      exact Gen.breaksDown_bind_iff.2
        (Or.inr ⟨vs, l₁, s₁, hvs, Gen.breaksDown_bind_iff.2 (Or.inl hlater)⟩)

theorem Follows.mono {xs : List Json} {room room' : Prop} {R R' : List Value → α → Prop}
    {g : Gen σ α} (h : Follows leaf n xs room R g) (hroom : room' ↔ room)
    (hR : ∀ values a, R values a → R' values a) : Follows leaf n xs room' R' g := by
  refine ⟨fun hn hy => hroom.2 (h.hasRoom hn hy), fun hn hy => ?_,
    fun hn hr hb => h.breaksDown hn (hroom.1 hr) hb⟩
  obtain ⟨values, hv, hn', ha⟩ := h.yields hn hy
  exact ⟨values, hv, hn', hR values _ ha⟩

/-- What is made of the result of a computation follows the same visits. -/
theorem Follows.map {xs : List Json} {room : Prop} {R : List Value → α → Prop} {g : Gen σ α}
    (h : Follows leaf n xs room R g) (f : α → β) :
    Follows leaf n xs room (fun values b => ∃ a, R values a ∧ b = f a) (f <$> g) := by
  constructor
  · intro l l' s s' b hn hy
    obtain ⟨a, ha, -⟩ := Gen.yields_map_iff.1 hy
    exact h.hasRoom hn ha
  · intro l l' s s' b hn hy
    obtain ⟨a, ha, rfl⟩ := Gen.yields_map_iff.1 hy
    obtain ⟨values, hv, hn', hR⟩ := h.yields hn ha
    exact ⟨values, hv, hn', a, hR, rfl⟩
  · intro l s s' hn hroom hb
    rw [map_eq_pure_bind] at hb
    rcases Gen.breaksDown_bind_iff.1 hb with hb | ⟨_, _, _, _, hb⟩
    · exact h.breaksDown hn hroom hb
    · exact absurd hb Gen.not_breaksDown_pure

/-- The visit of one leaf. -/
theorem Follows.visit {node : Json} (hleaf : (leaf node).KeepsNested) {P : Value → Prop}
    (hP : ∀ l s v l' s', (leaf node).Yields l s v l' s' → P v) :
    Follows leaf n [node] True (fun values v => values = [v] ∧ P v) (visit leaf node) := by
  have hone : visitAll leaf [node] = (fun v => [v]) <$> Recordsmith.visit leaf node := by
    simp [visitAll]
  refine ⟨fun _ _ => trivial, ?_, ?_⟩
  · intro l l' s s' v hn hy
    obtain ⟨l₁, hv, hl'⟩ := yields_visit_iff.1 hy
    refine ⟨[v], ?_, ?_, rfl, hP _ _ _ _ _ hv⟩
    · rw [hone]
      exact Gen.yields_map_iff.2 ⟨v, hy, rfl⟩
    · rw [hl', ← hn, ← hleaf l s v l₁ s' hv]
      split <;> rfl
  · intro l s s' hn _ hb
    rw [hone, map_eq_pure_bind]
    exact Gen.breaksDown_bind_iff.2 (Or.inl hb)

theorem Follows.get_bind {xs : List Json} {room : Prop} {R : List Value → β → Prop}
    {f : Local σ → Gen σ β} (hf : ∀ l : Local σ, l.nested = n → Follows leaf n xs room R (f l)) :
    Follows leaf n xs room R (get >>= f) := by
  constructor
  · intro l l' s s' b hn h
    obtain ⟨_, _, _, hget, h⟩ := Gen.yields_bind_iff.1 h
    obtain ⟨rfl, rfl, rfl⟩ := Gen.yields_get_iff.1 hget
    exact (hf _ hn).hasRoom hn h
  · intro l l' s s' b hn h
    obtain ⟨_, _, _, hget, h⟩ := Gen.yields_bind_iff.1 h
    obtain ⟨rfl, rfl, rfl⟩ := Gen.yields_get_iff.1 hget
    exact (hf _ hn).yields hn h
  · intro l s s' hn hroom h
    rcases Gen.breaksDown_bind_iff.1 h with h | ⟨_, _, _, hget, h⟩
    · exact absurd h Gen.not_breaksDown_get
    · obtain ⟨rfl, rfl, rfl⟩ := Gen.yields_get_iff.1 hget
      exact (hf _ hn).breaksDown hn hroom h

/-- Laying out a list before it is filled. -/
theorem Follows.reserve_bind {xs : List Json} {room : Prop} {R : List Value → α → Prop}
    {g : Gen σ α} (count : Nat) (h : Follows leaf n xs room R g) :
    Follows leaf n xs (fits count = true ∧ room) R (Gen.reserve count >>= fun _ => g) := by
  unfold Gen.reserve
  split
  · rw [pure_bind]
    exact h.mono (and_iff_right ‹_›) fun _ _ h => h
  · have hcrash : ∀ {l l' : Local σ} {s s' : Shared} {a : α},
        ¬ (Gen.crash >>= fun _ : Unit => g).Yields l s a l' s' := by
      intro l l' s s' a hy
      obtain ⟨_, _, _, hcrash, _⟩ := Gen.yields_bind_iff.1 hy
      exact Gen.not_yields_crash hcrash
    exact ⟨fun _ hy => absurd hy hcrash, fun _ hy => absurd hy hcrash,
      fun _ hroom _ => absurd hroom.1 ‹_›⟩

/-- Runs that are repeated follow the visits of one run, repeated. A run that is never made needs no
    room. -/
theorem Follows.replicate {xs : List Json} {room : Prop} {R : List Value → α → Prop} {g : Gen σ α}
    (h : Follows leaf n xs room R g) (times : Nat) :
    Follows leaf n (List.replicate times xs).flatten (times = 0 ∨ room) (Repeated R times)
      (Gen.replicate times g) := by
  have hfrom : ∀ (times : Nat) (before : List α),
      Follows leaf n (List.replicate times xs).flatten (times = 0 ∨ room)
        (fun values as => ∃ later, Repeated R times values later ∧ as = before.reverse ++ later)
        (Gen.repeatFrom g times before) := by
    intro times
    induction times with
    | zero =>
      intro before
      exact (Follows.pure ⟨[], .zero, (List.append_nil _).symm⟩).mono (by simp) fun _ _ h => h
    | succ times ih =>
      intro before
      rw [List.replicate_succ, List.flatten_cons]
      refine (h.bind fun a => ih (a :: before)).mono (by simp; tauto) ?_
      rintro _ _ ⟨vs, us, a, rfl, ha, later, hlater, rfl⟩
      exact ⟨a :: later, .succ ha hlater, by simp⟩
  refine (hfrom times []).mono Iff.rfl ?_
  rintro values _ ⟨later, hlater, rfl⟩
  exact hlater

/-! ## Walks -/

section

variable {self : Text → Gen σ Value}

theorem keepsNested_pure (v : Value) : (Pure.pure v : Gen σ Value).KeepsNested := by
  intro l s a l' s' h
  rw [(Gen.yields_pure_iff.1 h).2.1]

theorem keepsNested_evaluateLeafWith (hself : ∀ t, (self t).KeepsNested) (node : Json) :
    (evaluateLeafWith self node).KeepsNested := by
  cases node with
  | str t => exact hself t
  | _ => exact keepsNested_pure _

theorem isScalar_of_toJson? {v : Value} {w : Json} (h : v.toJson? = some w) :
    w.isScalar = true := by
  cases v with
  | double x =>
    simp only [Value.toJson?] at h
    split at h
    · obtain rfl := Option.some.inj h
      rfl
    · exact absurd h (by simp)
  | unsupported reason => exact absurd h (by simp [Value.toJson?])
  | _ =>
    obtain rfl := Option.some.inj h
    rfl

theorem walkLeaf_follows (hself : ∀ t, (self t).KeepsNested) {node : Json} {P : Value → Prop}
    (hP : ∀ l s v l' s', (evaluateLeafWith self node).Yields l s v l' s' → P v)
    (hmirrors : ∀ v, P v → Mirrors n node [v] v.toJson?) :
    Follows (evaluateLeafWith self) n [node] True (Mirrors n node)
      (Json.walkLeaf (evaluateLeafWith self) node) := by
  rw [walkLeaf_eq]
  refine ((Follows.visit (keepsNested_evaluateLeafWith hself node) hP).map Value.toJson?).mono Iff.rfl ?_
  rintro _ _ ⟨v, ⟨rfl, hv⟩, rfl⟩
  exact hmirrors v hv

theorem passesMirror_of_repeated {items : List Json} {times : Nat} {values : List Value}
    {passes : List (List Json)} (h : Repeated (ItemsMirror n items) times values passes) :
    PassesMirror n items times values passes.flatten := by
  induction h with
  | zero => exact .zero
  | succ hpass _ ih => exact .succ hpass ih

theorem passesMirror_nil (times : Nat) : PassesMirror n [] times [] [] := by
  induction times with
  | zero => exact .zero
  | succ times ih => exact .succ .nil ih

namespace Json

mutual

/-- **A walk follows the visits of its leaves, and makes a tree of the same shape.** -/
theorem walk_follows (hself : ∀ t, (self t).KeepsNested) : ∀ tree : Json,
    Follows (evaluateLeafWith self) n (tree.visits n) (tree.Fits n) (Mirrors n tree)
      (walk (evaluateLeafWith self) tree)
  | .null => by
    simp only [walk, visits]
    exact Follows.pure .null
  | .bool b => by
    simp only [walk, visits]
    refine walkLeaf_follows hself (P := (· = .bool b)) ?_ ?_
    · exact fun _ _ _ _ _ h => (Gen.yields_pure_iff.1 h).1
    · rintro _ rfl
      exact .bool b
  | .int m => by
    simp only [walk, visits]
    refine walkLeaf_follows hself (P := fun v => v.toJson? = some (.int m)) ?_ ?_
    · intro _ _ _ _ _ h
      rw [(Gen.yields_pure_iff.1 h).1]
      split_ifs <;> rfl
    · intro v hv
      rw [hv]
      exact .int hv
  | .float x => by
    simp only [walk, visits]
    refine walkLeaf_follows hself (P := (· = .double x)) ?_ ?_
    · exact fun _ _ _ _ _ h => (Gen.yields_pure_iff.1 h).1
    · rintro _ rfl
      simp only [Value.toJson?]
      split
      · exact .float ‹_›
      · exact .noFloat (Bool.eq_false_iff.2 ‹_›)
  | .str t => by
    simp only [walk, visits]
    refine walkLeaf_follows hself (P := fun _ => True) (fun _ _ _ _ _ _ => trivial) ?_
    intro v _
    cases hv : v.toJson? with
    | none => exact .noStr hv
    | some w => exact .str hv (isScalar_of_toJson? hv)
  | .obj members => by
    simp only [walk, visits, bind_pure_comp]
    refine ((walkMembers_follows hself members).map _).mono Iff.rfl ?_
    rintro values _ ⟨out, hout, rfl⟩
    exact .obj hout
  | .arr items => by
    simp only [walk, visits]
    refine Follows.get_bind fun l hl => ?_
    rw [hl]
    refine Follows.reserve_bind (items.length * n) ?_
    split
    · rename_i hempty
      obtain rfl := List.isEmpty_iff.1 hempty
      rw [visitsOfItems, List.flatten_replicate_nil]
      exact Follows.pure (R := Mirrors n (.arr [])) (.arr (passesMirror_nil n))
    · rw [bind_pure_comp]
      refine (((walkItems_follows hself items).replicate n).map _).mono itemsFit_iff ?_
      rintro values _ ⟨passes, hpasses, rfl⟩
      exact .arr (passesMirror_of_repeated hpasses)

theorem walkItems_follows (hself : ∀ t, (self t).KeepsNested) : ∀ items : List Json,
    Follows (evaluateLeafWith self) n (visitsOfItems n items) (ItemsFit n items)
      (ItemsMirror n items) (walkItems (evaluateLeafWith self) items)
  | [] => by
    simp only [walkItems, visitsOfItems]
    exact Follows.pure .nil
  | node :: rest => by
    simp only [walkItems, visitsOfItems, bind_pure_comp]
    refine ((walk_follows hself node).bind fun v => (walkItems_follows hself rest).map _).mono Iff.rfl ?_
    rintro _ _ ⟨vs, us, v, rfl, hv, others, hothers, rfl⟩
    cases v with
    | none => exact .leftOut hv hothers
    | some w => exact .kept hv hothers

theorem walkMembers_follows (hself : ∀ t, (self t).KeepsNested) : ∀ members : Members,
    Follows (evaluateLeafWith self) n (visitsOfMembers n members) (MembersFit n members)
      (MembersMirror n members) (walkMembers (evaluateLeafWith self) members)
  | [] => by
    simp only [walkMembers, visitsOfMembers]
    exact Follows.pure .nil
  | (key, node) :: rest => by
    simp only [walkMembers, visitsOfMembers, bind_pure_comp]
    refine ((walk_follows hself node).bind fun v =>
      (walkMembers_follows hself rest).map _).mono Iff.rfl ?_
    rintro _ _ ⟨vs, us, v, rfl, hv, others, hothers, rfl⟩
    cases v with
    | none => exact .leftOut hv hothers
    | some w => exact .kept hv hothers

end

end Json

/-! ## Records -/

namespace Walk

/-- The object of one record. -/
def RecordMirrors (n : Nat) (members : Json.Members) (values : List Value) (row : Json) : Prop :=
  ∃ out, MembersMirror n members values out ∧ row = .obj out

/-- **The objects of a template follow the visits of its members, as often as they are asked for.** -/
theorem objects_follow (hself : ∀ t, (self t).KeepsNested) (members : Json.Members) (count : Nat) :
    Follows (evaluateLeafWith self) n
      (List.replicate count (Json.visitsOfMembers n members)).flatten
      (fits count = true ∧ (count = 0 ∨ Json.MembersFit n members))
      (Repeated (RecordMirrors n members) count)
      (objects (evaluateLeafWith self) members count) := by
  refine Follows.reserve_bind count (Follows.replicate ?_ count)
  unfold Json.walkObject
  rw [bind_pure_comp]
  exact (Json.walkMembers_follows hself members).map _

/-- The visits of a template that is asked for as many records. -/
def visits (n : Nat) (template : Json) (count : Nat) : List Json :=
  match template with
  | .obj members => (List.replicate count (Json.visitsOfMembers n members)).flatten
  | .arr items => Json.visits n (.arr items)
  | _ => []

/-- The lists of a template can be laid out, if it is asked for as many records. Those in a record
    that is not asked for are not laid out. -/
def Fits (n : Nat) (template : Json) (count : Nat) : Prop :=
  match template with
  | .obj members => fits count = true ∧ (count = 0 ∨ Json.MembersFit n members)
  | .arr items => Json.Fits n (.arr items)
  | _ => True

/-- The records of a template: as many objects as asked for, one array, or none. -/
def RecordsMirror (n : Nat) (template : Json) (count : Nat) (values : List Value)
    (rows : List Json) : Prop :=
  match template with
  | .obj members => Repeated (RecordMirrors n members) count values rows
  | .arr items => ∃ out, PassesMirror n items n values out ∧ rows = [.arr out]
  | _ => rows = []

/-- **Records follow the visits of their template.** -/
theorem records_follow (hself : ∀ t, (self t).KeepsNested) (template : Json) (count : Nat) :
    Follows (evaluateLeafWith self) n (visits n template count) (Fits n template count)
      (RecordsMirror n template count) (records (evaluateLeafWith self) template count) := by
  cases template with
  | obj members => exact objects_follow hself members count
  | arr items =>
    simp only [records, visits, Fits, bind_pure_comp]
    refine ((Json.walk_follows hself (.arr items)).map _).mono Iff.rfl ?_
    rintro values _ ⟨r, hr, rfl⟩
    cases hr with
    | arr hout => exact ⟨_, hout, rfl⟩
  | _ => exact Follows.pure (R := fun _ rows => rows = []) rfl

end Walk

end

end Recordsmith
