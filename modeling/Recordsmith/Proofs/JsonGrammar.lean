import Recordsmith.Proofs.NumberReading
import Recordsmith.Proofs.StringSpelling

/-!
# What JSON texts stand for

* `Json.Denotes depth t v`: the text `t` is JSON and stands for the value `v`, with arrays and objects
  nested at most `depth` deep;
* `Json.Sound`, `Json.sound_value`: what is read as a value is such a text;
* `Json.Finds`, `Json.finds_value`: such a text is read at the start of any input, as long as no number
  goes on behind it;
* `Json.parse_eq_ok_iff`: the texts that are read are the JSON texts.
-/

namespace Recordsmith.Json

/-! ## White space -/

/-- Nothing but white space. -/
def Space (t : Text) : Prop := ∀ c ∈ t, Input.isSpace c = true

/-- The text behind the white space at its start. -/
def dropSpace (t : Text) : Text := t.dropWhile Input.isSpace

theorem space_nil : Space [] := fun _ hc => absurd hc List.not_mem_nil

theorem rest_skipSpace (i : Input) : i.skipSpace.rest = dropSpace i.rest := rfl

theorem Space.dropSpace_append {s : Text} (h : Space s) (t : Text) :
    dropSpace (s ++ t) = dropSpace t :=
  List.dropWhile_append_of_pos h

theorem dropSpace_cons {c : Char} (hc : Input.isSpace c = false) (t : Text) :
    dropSpace (c :: t) = c :: t :=
  List.dropWhile_cons_of_neg (by simp [hc])

theorem exists_space (t : Text) : ∃ s, Space s ∧ t = s ++ dropSpace t :=
  ⟨t.takeWhile Input.isSpace, fun _ hc => List.mem_takeWhile_imp hc,
    List.takeWhile_append_dropWhile.symm⟩

theorem dropSpace_eq_nil_iff {t : Text} : dropSpace t = [] ↔ Space t :=
  List.dropWhile_eq_nil_iff

theorem dropSpace_dropSpace (t : Text) : dropSpace (dropSpace t) = dropSpace t := by
  obtain ⟨s, hs, ht⟩ := exists_space t
  rw [← hs.dropSpace_append, ← ht]

theorem next?_of_isSpace {c : Char} (hc : Input.isSpace c = true) (t : Text) :
    next? (c :: t) = none := by
  simp only [Input.isSpace, Bool.or_eq_true, decide_eq_true_eq] at hc
  rcases hc with ((rfl | rfl) | rfl) | rfl <;> rfl

theorem Space.next?_append {s t : Text} (h : Space s) (ht : next? t = none) :
    next? (s ++ t) = none := by
  cases s with
  | nil => exact ht
  | cons c s => exact next?_of_isSpace (h c List.mem_cons_self) (s ++ t)

/-! ## Lists of texts -/

/-- The texts, each behind a comma. -/
def commaed (ts : List Text) : Text := ts.flatMap (',' :: ·)

theorem join_eq_commaed (t : Text) (ts : List Text) :
    Text.join [','] (t :: ts) = t ++ commaed ts := by
  induction ts generalizing t with
  | nil => exact (List.append_nil t).symm
  | cons u ts ih =>
    rw [Text.join, ih, commaed, commaed, List.flatMap_cons]
    simp

theorem length_le_commaed (ts : List Text) : ts.length ≤ (commaed ts).length := by
  induction ts with
  | nil => exact Nat.zero_le _
  | cons t ts ih =>
    simp only [commaed, List.flatMap_cons, List.length_append, List.length_cons] at ih ⊢
    omega

theorem next?_commaed {c : Char} (hc : isNumberChar c = false) (ts : List Text) (rest : Text) :
    next? (commaed ts ++ c :: rest) = none := by
  cases ts with
  | nil =>
    change (some c).filter isNumberChar = none
    rw [Option.filter_some, hc]
    rfl
  | cons t ts => rfl

/-- No number goes on before such texts. -/
theorem next?_of_commaed {i : Input} {s rest : Text} {ts : List Text} {c : Char} (hs : Space s)
    (hc : isNumberChar c = false) (hi : i.rest = s ++ (commaed ts ++ c :: rest)) :
    next? i.rest = none := by
  rw [hi]
  exact hs.next?_append (next?_commaed hc ts rest)

theorem dropSpace_commaed {c : Char} (hc : Input.isSpace c = false) (ts : List Text)
    (rest : Text) : dropSpace (commaed ts ++ c :: rest) = commaed ts ++ c :: rest := by
  cases ts with
  | nil => exact dropSpace_cons hc rest
  | cons t ts => rfl

/-! ## Texts -/

/-- The text is read as a number of this value, to its end. -/
inductive Numeric : Text → Json → Prop
  | unsigned {i i' : Input} {v : Json} :
      number false i = .ok (v, i') → i'.rest = [] → Numeric i.rest v
  | negative {i i' : Input} {v : Json} :
      number true i = .ok (v, i') → i'.rest = [] → Numeric ('-' :: i.rest) v

/-- A member of an object as it is written: a key with white space around it, and the text of a
    value. -/
structure Entry where
  before : Text
  spelling : Text
  key : Text
  after : Text
  text : Text
  value : Json
  space_before : Space before
  spells : Spells spelling key
  space_after : Space after

/-- The text of a member. -/
def Entry.written (e : Entry) : Text :=
  e.before ++ '"' :: (e.spelling ++ '"' :: (e.after ++ ':' :: e.text))

/-- The members that are written, behind others. The last one with a key counts. -/
def putAll (before : Members) (entries : List Entry) : Members :=
  entries.foldl (fun members e => members.put e.key e.value) before

/-- The text stands for the value. Its arrays and objects are nested at most `depth` deep. -/
inductive Denotes : (depth : Nat) → Text → Json → Prop
  | null {depth : Nat} : Denotes depth ['n', 'u', 'l', 'l'] .null
  | true {depth : Nat} : Denotes depth ['t', 'r', 'u', 'e'] (.bool true)
  | false {depth : Nat} : Denotes depth ['f', 'a', 'l', 's', 'e'] (.bool false)
  | number {depth : Nat} {t : Text} {v : Json} : Numeric t v → Denotes depth t v
  | str {depth : Nat} {body t : Text} :
      Spells body t → Denotes depth ('"' :: (body ++ ['"'])) (.str t)
  | emptyArr {depth : Nat} {s : Text} :
      Space s → Denotes (depth + 1) ('[' :: (s ++ [']'])) (.arr [])
  | arr {depth : Nat} {parts : List (Text × Json)} : parts ≠ [] →
      (∀ p ∈ parts, Denotes depth p.1 p.2) →
      Denotes (depth + 1) ('[' :: (Text.join [','] (parts.map Prod.fst) ++ [']']))
        (.arr (parts.map Prod.snd))
  | emptyObj {depth : Nat} {s : Text} :
      Space s → Denotes (depth + 1) ('{' :: (s ++ ['}'])) (.obj [])
  | obj {depth : Nat} {entries : List Entry} : entries ≠ [] →
      (∀ e ∈ entries, Denotes depth e.text e.value) →
      Denotes (depth + 1) ('{' :: (Text.join [','] (entries.map Entry.written) ++ ['}']))
        (.obj (putAll [] entries))
  | pad {depth : Nat} {before t after : Text} {v : Json} :
      Space before → Space after → Denotes depth t v → Denotes depth (before ++ t ++ after) v

/-! ## What is read is such a text -/

variable {item : Input → Except Fault (Json × Input)} {depth fuel : Nat} {i i' : Input} {v : Json}

/-- What the reader takes off its input, where no number can go on, stands for what it reads. -/
def Sound (depth : Nat) (read : Input → Except Fault (Json × Input)) : Prop :=
  ∀ {i i' : Input} {v : Json}, read i = .ok (v, i') → next? i'.rest = none →
    ∃ t, Denotes depth t v ∧ i.rest = t ++ i'.rest

/-- White space behind a text belongs to it. -/
theorem Denotes.append_space {t s : Text} (h : Denotes depth t v) (hs : Space s) :
    Denotes depth (t ++ s) v := by
  have hpad := Denotes.pad space_nil hs h
  exact hpad

/-- The next items of an array. The white space before them belongs to the item that was read last. -/
theorem exists_parts_of_items (hitem : Sound depth item) (fuel : Nat) :
    ∀ {before : List Json} {i i' : Input} {v : Json}, before ≠ [] →
      items item fuel before i = .ok (v, i') → ∃ s, ∃ parts : List (Text × Json), Space s ∧
        (∀ p ∈ parts, Denotes depth p.1 p.2) ∧ v = .arr (before.reverse ++ parts.map Prod.snd) ∧
        i.rest = s ++ (commaed (parts.map Prod.fst) ++ ']' :: i'.rest) := by
  induction fuel with
  | zero => exact fun _ h => absurd h fail_ne_ok
  | succ fuel ih =>
    intro before i i' v hbefore h
    obtain ⟨s, hs, hi⟩ := exists_space i.rest
    obtain ⟨hclose, rfl⟩ | ⟨hempty, -⟩ | ⟨-, hcomma, u, k, hu, h⟩ := items_eq_ok h
    · exact ⟨s, [], hs, nofun, by simp, by rw [hi, ← rest_skipSpace, hclose]; rfl⟩
    · exact absurd hempty hbefore
    obtain ⟨s₁, parts, hs₁, hparts, rfl, hk⟩ := ih (List.cons_ne_nil u before) h
    obtain ⟨t, ht, hj⟩ := hitem hu (next?_of_commaed hs₁ rfl hk)
    obtain ⟨s₂, hs₂, hj'⟩ := exists_space i.skipSpace.skip.rest
    refine ⟨s, (s₂ ++ t ++ s₁, u) :: parts, hs, ?_, by simp, ?_⟩
    · exact List.forall_mem_cons.2 ⟨.pad hs₂ hs₁ ht, hparts⟩
    · rw [rest_skipSpace] at hj hcomma
      rw [hi, hcomma, hj', hj, hk]
      simp [commaed]

theorem exists_denotes_of_items (hitem : Sound depth item)
    (h : items item fuel [] i = .ok (v, i')) :
    ∃ t, Denotes (depth + 1) ('[' :: t) v ∧ i.rest = t ++ i'.rest := by
  cases fuel with
  | zero => exact absurd h fail_ne_ok
  | succ fuel =>
    obtain ⟨s, hs, hi⟩ := exists_space i.rest
    obtain ⟨hclose, rfl⟩ | ⟨-, u, k, hu, h⟩ | ⟨hne, -⟩ := items_eq_ok h
    · refine ⟨s ++ [']'], .emptyArr hs, ?_⟩
      rw [hi, ← rest_skipSpace, hclose]
      simp
    · obtain ⟨s₁, parts, hs₁, hparts, rfl, hk⟩ :=
        exists_parts_of_items hitem fuel (List.cons_ne_nil u []) h
      obtain ⟨t, ht, hj⟩ := hitem hu (next?_of_commaed hs₁ rfl hk)
      have hall : ∀ p ∈ (s ++ t ++ s₁, u) :: parts, Denotes depth p.1 p.2 :=
        List.forall_mem_cons.2 ⟨.pad hs hs₁ ht, hparts⟩
      refine ⟨_, .arr (List.cons_ne_nil _ _) hall, ?_⟩
      rw [rest_skipSpace] at hj
      rw [List.map_cons, join_eq_commaed, hi, hj, hk]
      simp
    · exact absurd rfl hne

/-- A member that is read is written so. -/
theorem exists_texts_of_member {key : Text} (hitem : Sound depth item)
    (hquote : i.rest.head? = some '"') (h : member item i = .ok ((key, v), i'))
    (hstop : next? i'.rest = none) :
    ∃ spelling s t, Spells spelling key ∧ Space s ∧ Denotes depth t v ∧
      i.rest = '"' :: (spelling ++ '"' :: (s ++ ':' :: (t ++ i'.rest))) := by
  obtain ⟨rest, hi⟩ := exists_rest_of_head? hquote
  unfold member at h
  obtain ⟨⟨name, j⟩, hname, h⟩ := bind_eq_ok h
  obtain ⟨spelling, hspells, hskip⟩ := exists_spells_of_string hname
  dsimp only at h
  split at h
  · rename_i rest' hcolon
    obtain ⟨⟨u, k⟩, hu, h⟩ := bind_eq_ok h
    obtain ⟨hp, rfl⟩ := Prod.mk.inj (Except.ok.inj h)
    obtain ⟨rfl, rfl⟩ := Prod.mk.inj hp
    obtain ⟨t, ht, hk⟩ := hitem hu hstop
    obtain ⟨s, hs, hj⟩ := exists_space j.rest
    refine ⟨spelling, s, t, hspells, hs, ht, ?_⟩
    rw [rest_of_skip hcolon] at hk
    rw [rest_of_skip hi] at hskip
    rw [hi, hskip, hj, ← rest_skipSpace, hcolon, hk]
  · exact absurd h failNext_ne_ok
  · exact absurd h failNext_ne_ok

/-- The next members of an object. The white space before them belongs to the value that was read
    last. -/
theorem exists_entries_of_members (hitem : Sound depth item) (fuel : Nat) :
    ∀ {before : Members} {i i' : Input} {v : Json},
      members item fuel false before i = .ok (v, i') → ∃ s, ∃ entries : List Entry, Space s ∧
        (∀ e ∈ entries, Denotes depth e.text e.value) ∧ v = .obj (putAll before entries) ∧
        i.rest = s ++ (commaed (entries.map Entry.written) ++ '}' :: i'.rest) := by
  induction fuel with
  | zero => exact fun h => absurd h fail_ne_ok
  | succ fuel ih =>
    intro before i i' v h
    obtain ⟨s, hs, hi⟩ := exists_space i.rest
    obtain ⟨hclose, rfl⟩ | ⟨hfirst, -⟩ | ⟨-, hcomma, hquote, key, u, k, hu, h⟩ := members_eq_ok h
    · exact ⟨s, [], hs, nofun, rfl, by rw [hi, ← rest_skipSpace, hclose]; rfl⟩
    · cases hfirst
    obtain ⟨s₁, entries, hs₁, hentries, rfl, hk⟩ := ih h
    obtain ⟨spelling, s₂, t, hspells, hs₂, ht, hj⟩ :=
      exists_texts_of_member hitem hquote hu (next?_of_commaed hs₁ rfl hk)
    obtain ⟨s₃, hs₃, hj'⟩ := exists_space i.skipSpace.skip.rest
    refine ⟨s, ⟨s₃, spelling, key, s₂, t ++ s₁, u, hs₃, hspells, hs₂⟩ :: entries, hs, ?_, rfl, ?_⟩
    · exact List.forall_mem_cons.2 ⟨ht.append_space hs₁, hentries⟩
    · rw [rest_skipSpace] at hj hcomma
      rw [hi, hcomma, hj', hj, hk]
      simp [commaed, Entry.written]

theorem exists_denotes_of_members (hitem : Sound depth item)
    (h : members item fuel true [] i = .ok (v, i')) :
    ∃ t, Denotes (depth + 1) ('{' :: t) v ∧ i.rest = t ++ i'.rest := by
  cases fuel with
  | zero => exact absurd h fail_ne_ok
  | succ fuel =>
    obtain ⟨s, hs, hi⟩ := exists_space i.rest
    obtain ⟨hclose, rfl⟩ | ⟨-, hquote, key, u, k, hu, h⟩ | ⟨hfirst, -⟩ := members_eq_ok h
    · refine ⟨s ++ ['}'], .emptyObj hs, ?_⟩
      rw [hi, ← rest_skipSpace, hclose]
      simp
    · obtain ⟨s₁, entries, hs₁, hentries, rfl, hk⟩ := exists_entries_of_members hitem fuel h
      obtain ⟨spelling, s₂, t, hspells, hs₂, ht, hj⟩ :=
        exists_texts_of_member hitem hquote hu (next?_of_commaed hs₁ rfl hk)
      have hall : ∀ e ∈ (⟨s, spelling, key, s₂, t ++ s₁, u, hs, hspells, hs₂⟩ : Entry) :: entries,
          Denotes depth e.text e.value :=
        List.forall_mem_cons.2 ⟨ht.append_space hs₁, hentries⟩
      refine ⟨_, .obj (List.cons_ne_nil _ _) hall, ?_⟩
      rw [rest_skipSpace] at hj
      rw [List.map_cons, join_eq_commaed, hi, hj, hk]
      simp [Entry.written]
    · cases hfirst

/-- A number that is read. -/
theorem exists_text_of_number {negative : Bool} (h : number negative i = .ok (v, i'))
    (hstop : next? i'.rest = none) :
    ∃ j j', number negative j = .ok (v, j') ∧ j'.rest = [] ∧ i.rest = j.rest ++ i'.rest := by
  obtain ⟨u, hi, -, hread⟩ := takes_of_number h
  obtain ⟨j', hj, hj'⟩ := hread (j := ⟨u, .start⟩) (List.append_nil u).symm hstop.symm
  exact ⟨⟨u, .start⟩, j', hj, hj', hi⟩

theorem exists_text_of_word {c : Char} {expected rest : Text} {u : Json}
    (hi : i.skipSpace.rest = c :: rest)
    (h : (do let (_, j) ← word expected i.skipSpace.skip; pure (u, j)) = .ok (v, i')) :
    v = u ∧ i.skipSpace.rest = c :: expected ++ i'.rest := by
  obtain ⟨⟨_, j⟩, hword, h⟩ := bind_eq_ok h
  obtain ⟨rfl, rfl⟩ := Prod.mk.inj (Except.ok.inj h)
  refine ⟨rfl, ?_⟩
  rw [hi, List.cons_append, ← rest_of_word expected hword, rest_of_skip hi]

/-- **What is read as a value stands for it.** -/
theorem sound_value (depth : Nat) : Sound depth (value depth) := by
  induction depth using Nat.strong_induction_on with
  | _ depth ih =>
    intro i i' v h hstop
    -- the white space before the value
    suffices hvalue : ∃ t, Denotes depth t v ∧ i.skipSpace.rest = t ++ i'.rest by
      obtain ⟨t, ht, hrest⟩ := hvalue
      obtain ⟨s, hs, hi⟩ := exists_space i.rest
      refine ⟨s ++ t ++ [], .pad hs space_nil ht, ?_⟩
      rw [hi, ← rest_skipSpace, hrest]
      simp
    unfold value at h
    dsimp only at h
    split at h
    case h_1 => exact absurd h failNext_ne_ok
    case h_2 hrest =>
      obtain ⟨rfl, hi⟩ := exists_text_of_word hrest h
      exact ⟨_, .null, hi⟩
    case h_3 hrest =>
      obtain ⟨rfl, hi⟩ := exists_text_of_word hrest h
      exact ⟨_, .true, hi⟩
    case h_4 hrest =>
      obtain ⟨rfl, hi⟩ := exists_text_of_word hrest h
      exact ⟨_, .false, hi⟩
    case h_5 hrest =>
      obtain ⟨j, j', hj, hj', hskip⟩ := exists_text_of_number h hstop
      rw [rest_of_skip hrest] at hskip
      exact ⟨_, .number (.negative hj hj'), by rw [hrest, hskip]; rfl⟩
    case h_6 hrest =>
      obtain ⟨⟨t, j⟩, ht, h⟩ := bind_eq_ok h
      obtain ⟨rfl, rfl⟩ := Prod.mk.inj (Except.ok.inj h)
      obtain ⟨body, hbody, hskip⟩ := exists_spells_of_string ht
      rw [rest_of_skip hrest] at hskip
      exact ⟨_, .str hbody, by rw [hrest, hskip]; simp⟩
    case h_7 hrest =>
      cases depth with
      | zero => exact absurd h failNext_ne_ok
      | succ depth =>
        obtain ⟨t, ht, hskip⟩ := exists_denotes_of_items (ih depth depth.lt_succ_self) h
        rw [rest_of_skip hrest] at hskip
        exact ⟨_, ht, by rw [hrest, hskip]; rfl⟩
    case h_8 hrest =>
      cases depth with
      | zero => exact absurd h failNext_ne_ok
      | succ depth =>
        obtain ⟨t, ht, hskip⟩ := exists_denotes_of_members (ih depth depth.lt_succ_self) h
        rw [rest_of_skip hrest] at hskip
        exact ⟨_, ht, by rw [hrest, hskip]; rfl⟩
    case h_9 =>
      split_ifs at h
      · obtain ⟨j, j', hj, hj', hi⟩ := exists_text_of_number h hstop
        exact ⟨_, .number (.unsigned hj hj'), hi⟩
      · exact absurd h failNext_ne_ok

/-! ## Such a text is read -/

/-- The reader finds the value where the input starts with the text, and leaves what follows, up to
    white space. -/
def Finds {α : Type} (read : Input → Except Fault (α × Input)) (t : Text) (a : α) : Prop :=
  ∀ {i : Input} {rest : Text}, dropSpace i.rest = dropSpace (t ++ rest) → next? rest = none →
    ∃ i', read i = .ok (a, i') ∧ dropSpace i'.rest = dropSpace rest

theorem Finds.pad {α : Type} {read : Input → Except Fault (α × Input)} {before t after : Text}
    {a : α} (hb : Space before) (ha : Space after) (h : Finds read t a) :
    Finds read (before ++ t ++ after) a := by
  intro i rest hi hstop
  rw [List.append_assoc, List.append_assoc, hb.dropSpace_append] at hi
  obtain ⟨i', hread, hi'⟩ := h hi (ha.next?_append hstop)
  exact ⟨i', hread, by rw [hi', ha.dropSpace_append]⟩

theorem word_eq (expected : Text) : ∀ {i : Input} {rest : Text}, i.rest = expected ++ rest →
    ∃ i', word expected i = .ok ((), i') ∧ i'.rest = rest := by
  induction expected with
  | nil => exact fun {i _} hi => ⟨i, by simp only [word], hi⟩
  | cons w ws ih =>
    intro i rest hi
    rw [List.cons_append] at hi
    obtain ⟨i', hword, hi'⟩ := ih (rest_of_skip hi)
    refine ⟨i', ?_, hi'⟩
    unfold word
    simp only [hi, if_true, hword]

theorem finds_word {c : Char} {expected : Text} (hc : Input.isSpace c = false)
    (hvalue : ∀ {i : Input} {rest : Text}, i.skipSpace.rest = c :: rest →
      value depth i = (do let (_, j) ← word expected i.skipSpace.skip; pure (v, j))) :
    Finds (value depth) (c :: expected) v := by
  intro i rest hi _
  rw [List.cons_append, dropSpace_cons hc, ← rest_skipSpace] at hi
  obtain ⟨i', hread, hi'⟩ := word_eq expected (rest_of_skip hi)
  refine ⟨i', ?_, by rw [hi']⟩
  rw [hvalue hi, hread]
  rfl

theorem finds_str {body t : Text} (h : Spells body t) :
    Finds (value depth) ('"' :: (body ++ ['"'])) (.str t) := by
  intro i rest hi _
  rw [List.cons_append, List.append_assoc, dropSpace_cons rfl, ← rest_skipSpace] at hi
  obtain ⟨i', hread, hi'⟩ := string_of_spells h (rest_of_skip hi)
  refine ⟨i', ?_, congrArg dropSpace hi'⟩
  unfold value
  simp only [hi, hread, ok_bind]
  rfl

/-- A number is read wherever it stands. -/
theorem number_eq {negative : Bool} {j j' : Input} (h : number negative j = .ok (v, j'))
    (hj' : j'.rest = []) {i : Input} {rest : Text} (hi : i.rest = j.rest ++ rest)
    (hstop : next? rest = none) : ∃ i', number negative i = .ok (v, i') ∧ i'.rest = rest := by
  obtain ⟨u, hj, -, hread⟩ := takes_of_number h
  rw [hj', List.append_nil] at hj
  rw [hj] at hi
  exact hread hi (by rw [hstop, hj']; rfl)

theorem exists_digit_of_number {negative : Bool} (h : number negative i = .ok (v, i')) :
    ∃ c rest, i.rest = c :: rest ∧ (Text.digit? c).isSome = true := by
  unfold number at h
  obtain ⟨⟨numeral, j⟩, hnumeral, -⟩ := bind_eq_ok h
  unfold unsignedNumber at hnumeral
  split at hnumeral
  · exact absurd hnumeral fail_ne_ok
  · rename_i c rest hrest
    refine ⟨c, rest, hrest, ?_⟩
    split at hnumeral
    · exact absurd hnumeral failNext_ne_ok
    · simp [*]
    · simp [*]

theorem isSpace_of_digit {c : Char} (h : (Text.digit? c).isSome = true) :
    Input.isSpace c = false := by
  rw [← Bool.not_eq_true]
  intro hspace
  simp only [Input.isSpace, Bool.or_eq_true, decide_eq_true_eq] at hspace
  rcases hspace with ((rfl | rfl) | rfl) | rfl <;> exact absurd h (by decide)

theorem finds_number {t : Text} (h : Numeric t v) : Finds (value depth) t v := by
  intro i rest hi hstop
  cases h with
  | @negative j j' _ hj hj' =>
    rw [List.cons_append, dropSpace_cons rfl, ← rest_skipSpace] at hi
    obtain ⟨i', hread, hi'⟩ := number_eq hj hj' (rest_of_skip hi) hstop
    refine ⟨i', ?_, by rw [hi']⟩
    unfold value
    simp only [hi, hread]
  | @unsigned j j' _ hj hj' =>
    obtain ⟨c, cs, hc, hdigit⟩ := exists_digit_of_number hj
    rw [hc, List.cons_append, dropSpace_cons (isSpace_of_digit hdigit), ← rest_skipSpace] at hi
    obtain ⟨i', hread, hi'⟩ := number_eq hj hj' (i := i.skipSpace) (by rw [hi, hc]; rfl) hstop
    refine ⟨i', ?_, by rw [hi']⟩
    -- a digit starts no other value
    have hne : ∀ d, Text.digit? d = none → c ≠ d := by
      rintro d hd rfl
      rw [hd] at hdigit
      cases hdigit
    have hn := hne 'n' rfl
    have ht := hne 't' rfl
    have hf := hne 'f' rfl
    have hminus := hne '-' rfl
    have hquote := hne '"' rfl
    have hbracket := hne '[' rfl
    have hbrace := hne '{' rfl
    unfold value
    simp only [hi, hdigit, if_true, hread]

/-- The text is more than white space, and does not start with the closing bracket of an array. -/
def Starts (t : Text) : Prop := ∃ c rest, dropSpace t = c :: rest ∧ c ≠ ']'

theorem Starts.append {t : Text} (h : Starts t) (rest : Text) : Starts (t ++ rest) := by
  obtain ⟨c, u, ht, hc⟩ := h
  refine ⟨c, u ++ rest, ?_, hc⟩
  unfold dropSpace at ht ⊢
  rw [List.dropWhile_append, ht]
  rfl

theorem starts_of_denotes {t : Text} (h : Denotes depth t v) : Starts t := by
  have hstarts : ∀ (c : Char) (t : Text), Input.isSpace c = false → c ≠ ']' → Starts (c :: t) :=
    fun c t hspace hc => ⟨c, t, dropSpace_cons hspace t, hc⟩
  induction h with
  | null => exact hstarts 'n' _ rfl (by decide)
  | true => exact hstarts 't' _ rfl (by decide)
  | false => exact hstarts 'f' _ rfl (by decide)
  | number hnumber =>
    cases hnumber with
    | negative => exact hstarts '-' _ rfl (by decide)
    | unsigned hread =>
      obtain ⟨c, rest, hc, hdigit⟩ := exists_digit_of_number hread
      rw [hc]
      refine hstarts c rest (isSpace_of_digit hdigit) ?_
      rintro rfl
      exact absurd hdigit (by decide)
  | str => exact hstarts '"' _ rfl (by decide)
  | emptyArr | arr => exact hstarts '[' _ rfl (by decide)
  | emptyObj | obj => exact hstarts '{' _ rfl (by decide)
  | pad hb _ _ ih =>
    have happend := ih.append
    unfold Starts at happend ⊢
    simp only [List.append_assoc, hb.dropSpace_append]
    exact happend _

/-- The next items of an array are read one after the other. -/
theorem items_commaed {parts : List (Text × Json)}
    (hparts : ∀ p ∈ parts, Starts p.1 ∧ Finds item p.1 p.2) :
    ∀ (fuel : Nat) (before : List Json) {i : Input} {rest : Text}, parts.length < fuel →
      before ≠ [] → dropSpace i.rest = commaed (parts.map Prod.fst) ++ ']' :: rest →
        ∃ i', items item fuel before i = .ok (.arr (before.reverse ++ parts.map Prod.snd), i') ∧
          i'.rest = rest := by
  induction parts with
  | nil =>
    intro fuel before i rest hfuel _ hi
    obtain ⟨fuel, rfl⟩ := Nat.exists_eq_succ_of_ne_zero (Nat.ne_zero_of_lt hfuel)
    have hspace : i.skipSpace.rest = ']' :: rest := hi
    refine ⟨i.skipSpace.skip, ?_, rest_of_skip hspace⟩
    simp only [items, hspace, if_true, List.map_nil, List.append_nil]
  | cons p parts ih =>
    intro fuel before i rest hfuel hbefore hi
    obtain ⟨fuel, rfl⟩ := Nat.exists_eq_succ_of_ne_zero (Nat.ne_zero_of_lt hfuel)
    obtain ⟨⟨hstarts, hp⟩, hparts⟩ := List.forall_mem_cons.1 hparts
    have hspace : i.skipSpace.rest =
        ',' :: (p.1 ++ (commaed (parts.map Prod.fst) ++ ']' :: rest)) := by
      rw [rest_skipSpace, hi]
      simp [commaed]
    obtain ⟨c, u, hc, hclose⟩ := hstarts.append (commaed (parts.map Prod.fst) ++ ']' :: rest)
    rw [← rest_of_skip hspace, ← rest_skipSpace] at hc
    obtain ⟨i₁, hread, hi₁⟩ := hp (i := i.skipSpace.skip.skipSpace)
      (by rw [rest_skipSpace, dropSpace_dropSpace, rest_of_skip hspace]) (next?_commaed rfl _ rest)
    rw [dropSpace_commaed rfl] at hi₁
    obtain ⟨i', hreads, hi'⟩ := ih hparts fuel (p.2 :: before) (Nat.lt_of_succ_lt_succ hfuel)
      (List.cons_ne_nil _ _) hi₁
    refine ⟨i', ?_, hi'⟩
    rw [List.reverse_cons, List.append_assoc] at hreads
    simp only [items, hspace, List.isEmpty_eq_false_iff.2 hbefore, hc, if_true]
    rw [if_neg (by decide), if_neg (by decide), hread]
    exact hreads

theorem finds_emptyArr {s : Text} (hs : Space s) :
    Finds (value (depth + 1)) ('[' :: (s ++ [']'])) (.arr []) := by
  intro i rest hi _
  rw [List.cons_append, List.append_assoc, dropSpace_cons rfl, ← rest_skipSpace] at hi
  have hspace : i.skipSpace.skip.skipSpace.rest = ']' :: rest := by
    rw [rest_skipSpace, rest_of_skip hi, hs.dropSpace_append]
    exact dropSpace_cons rfl rest
  refine ⟨i.skipSpace.skip.skipSpace.skip, ?_, congrArg dropSpace (rest_of_skip hspace)⟩
  unfold value
  simp only [hi, items, hspace, if_true, List.reverse_nil]

theorem finds_arr {parts : List (Text × Json)} (hne : parts ≠ [])
    (hparts : ∀ p ∈ parts, Starts p.1 ∧ Finds (value depth) p.1 p.2) :
    Finds (value (depth + 1)) ('[' :: (Text.join [','] (parts.map Prod.fst) ++ [']']))
      (.arr (parts.map Prod.snd)) := by
  intro i rest hi _
  obtain ⟨p, parts, rfl⟩ := List.exists_cons_of_ne_nil hne
  obtain ⟨⟨hstarts, hp⟩, hparts⟩ := List.forall_mem_cons.1 hparts
  rw [List.cons_append, List.append_assoc, dropSpace_cons rfl, List.map_cons, join_eq_commaed,
    List.append_assoc, ← rest_skipSpace] at hi
  change _ = '[' :: (p.1 ++ (commaed (parts.map Prod.fst) ++ ']' :: rest)) at hi
  obtain ⟨c, u, hc, hclose⟩ := hstarts.append (commaed (parts.map Prod.fst) ++ ']' :: rest)
  rw [← rest_of_skip hi, ← rest_skipSpace] at hc
  obtain ⟨i₁, hread, hi₁⟩ := hp (i := i.skipSpace.skip.skipSpace)
    (by rw [rest_skipSpace, dropSpace_dropSpace, rest_of_skip hi]) (next?_commaed rfl _ rest)
  rw [dropSpace_commaed rfl] at hi₁
  have hfuel : parts.length < i.skipSpace.rest.length := by
    have hle := length_le_commaed (parts.map Prod.fst)
    rw [hi]
    simp only [List.length_cons, List.length_append, List.length_map] at hle ⊢
    omega
  obtain ⟨i', hreads, hi'⟩ := items_commaed hparts _ [p.2] hfuel (List.cons_ne_nil _ _) hi₁
  refine ⟨i', ?_, by rw [hi']⟩
  unfold value
  simp only [hi]
  unfold items
  simp only [hc, if_neg hclose, List.isEmpty_nil, if_true, hread, ok_bind]
  rw [hi] at hreads
  exact hreads

/-- A member is read from its key on. -/
theorem member_eq {e : Entry} (he : Finds item e.text e.value) {i : Input} {rest : Text}
    (hi : dropSpace i.rest = dropSpace (e.written ++ rest)) (hstop : next? rest = none) :
    i.skipSpace.rest.head? = some '"' ∧ ∃ i', member item i.skipSpace = .ok ((e.key, e.value), i') ∧
      dropSpace i'.rest = dropSpace rest := by
  have hspace : i.skipSpace.rest =
      '"' :: (e.spelling ++ '"' :: (e.after ++ ':' :: (e.text ++ rest))) := by
    rw [rest_skipSpace, hi, Entry.written]
    simp only [List.append_assoc, List.cons_append]
    rw [e.space_before.dropSpace_append]
    exact dropSpace_cons rfl _
  obtain ⟨j, hkey, hj⟩ := string_of_spells e.spells (rest_of_skip hspace)
  have hcolon : j.skipSpace.rest = ':' :: (e.text ++ rest) := by
    rw [rest_skipSpace, hj, e.space_after.dropSpace_append]
    exact dropSpace_cons rfl _
  obtain ⟨i', hread, hi'⟩ := he (congrArg dropSpace (rest_of_skip hcolon)) hstop
  refine ⟨by rw [hspace]; rfl, i', ?_, hi'⟩
  simp only [member, hkey, ok_bind, hcolon, hread]
  rfl

/-- The next members of an object are read one after the other. -/
theorem members_commaed {entries : List Entry}
    (hentries : ∀ e ∈ entries, Finds item e.text e.value) :
    ∀ (fuel : Nat) (before : Members) {i : Input} {rest : Text}, entries.length < fuel →
      dropSpace i.rest = commaed (entries.map Entry.written) ++ '}' :: rest →
        ∃ i', members item fuel false before i = .ok (.obj (putAll before entries), i') ∧
          i'.rest = rest := by
  induction entries with
  | nil =>
    intro fuel before i rest hfuel hi
    obtain ⟨fuel, rfl⟩ := Nat.exists_eq_succ_of_ne_zero (Nat.ne_zero_of_lt hfuel)
    have hspace : i.skipSpace.rest = '}' :: rest := hi
    refine ⟨i.skipSpace.skip, ?_, rest_of_skip hspace⟩
    simp only [members, hspace, putAll, List.foldl_nil]
  | cons e entries ih =>
    intro fuel before i rest hfuel hi
    obtain ⟨fuel, rfl⟩ := Nat.exists_eq_succ_of_ne_zero (Nat.ne_zero_of_lt hfuel)
    obtain ⟨he, hentries⟩ := List.forall_mem_cons.1 hentries
    have hspace : i.skipSpace.rest =
        ',' :: (e.written ++ (commaed (entries.map Entry.written) ++ '}' :: rest)) := by
      rw [rest_skipSpace, hi]
      simp [commaed]
    obtain ⟨hhead, i₁, hread, hi₁⟩ := member_eq he (i := i.skipSpace.skip)
      (congrArg dropSpace (rest_of_skip hspace)) (next?_commaed rfl _ rest)
    obtain ⟨u, hquote⟩ := exists_rest_of_head? hhead
    rw [dropSpace_commaed rfl] at hi₁
    obtain ⟨i', hreads, hi'⟩ := ih hentries fuel (before.put e.key e.value)
      (Nat.lt_of_succ_lt_succ hfuel) hi₁
    refine ⟨i', ?_, hi'⟩
    simp only [members, hspace, hquote, hread, ok_bind]
    exact hreads

theorem finds_emptyObj {s : Text} (hs : Space s) :
    Finds (value (depth + 1)) ('{' :: (s ++ ['}'])) (.obj []) := by
  intro i rest hi _
  rw [List.cons_append, List.append_assoc, dropSpace_cons rfl, ← rest_skipSpace] at hi
  have hspace : i.skipSpace.skip.skipSpace.rest = '}' :: rest := by
    rw [rest_skipSpace, rest_of_skip hi, hs.dropSpace_append]
    exact dropSpace_cons rfl rest
  refine ⟨i.skipSpace.skip.skipSpace.skip, ?_, congrArg dropSpace (rest_of_skip hspace)⟩
  unfold value
  simp only [hi, members, hspace]

theorem finds_obj {entries : List Entry} (hne : entries ≠ [])
    (hentries : ∀ e ∈ entries, Finds (value depth) e.text e.value) :
    Finds (value (depth + 1)) ('{' :: (Text.join [','] (entries.map Entry.written) ++ ['}']))
      (.obj (putAll [] entries)) := by
  intro i rest hi _
  obtain ⟨e, entries, rfl⟩ := List.exists_cons_of_ne_nil hne
  obtain ⟨he, hentries⟩ := List.forall_mem_cons.1 hentries
  rw [List.cons_append, List.append_assoc, dropSpace_cons rfl, List.map_cons, join_eq_commaed,
    List.append_assoc, ← rest_skipSpace] at hi
  change _ = '{' :: (e.written ++ (commaed (entries.map Entry.written) ++ '}' :: rest)) at hi
  obtain ⟨hhead, i₁, hread, hi₁⟩ := member_eq he (i := i.skipSpace.skip)
    (congrArg dropSpace (rest_of_skip hi)) (next?_commaed rfl _ rest)
  obtain ⟨u, hquote⟩ := exists_rest_of_head? hhead
  rw [dropSpace_commaed rfl] at hi₁
  have hfuel : entries.length < i.skipSpace.rest.length := by
    have hle := length_le_commaed (entries.map Entry.written)
    rw [hi]
    simp only [List.length_cons, List.length_append, List.length_map] at hle ⊢
    omega
  obtain ⟨i', hreads, hi'⟩ := members_commaed hentries _ (Members.put e.key e.value []) hfuel hi₁
  refine ⟨i', ?_, by rw [hi']⟩
  unfold value
  simp only [hi]
  unfold members
  simp only [hquote, hread, ok_bind]
  rw [hi] at hreads
  exact hreads

/-- **A text that stands for a value is read as it**, wherever no number can go on behind it. -/
theorem finds_value {t : Text} (h : Denotes depth t v) : Finds (value depth) t v := by
  induction h with
  | null => exact finds_word rfl fun h => by unfold value; simp only [h]
  | true => exact finds_word rfl fun h => by unfold value; simp only [h]
  | false => exact finds_word rfl fun h => by unfold value; simp only [h]
  | number hnumber => exact finds_number hnumber
  | str hspells => exact finds_str hspells
  | emptyArr hs => exact finds_emptyArr hs
  | arr hne hparts ih =>
    exact finds_arr hne fun p hp => ⟨starts_of_denotes (hparts p hp), ih p hp⟩
  | emptyObj hs => exact finds_emptyObj hs
  | obj hne _ ih => exact finds_obj hne ih
  | pad hb ha _ ih => exact ih.pad hb ha

/-! ## Whole texts -/

/-- **The texts that are read are the JSON texts, and each is read as what it stands for.** -/
theorem parse_eq_ok_iff {t : Text} : parse t = .ok v ↔ Denotes maxDepth t v := by
  unfold parse
  constructor
  · intro h
    obtain ⟨⟨w, i⟩, hw, h⟩ := bind_eq_ok h
    dsimp only at h
    split at h
    · rename_i hend
      obtain rfl := Except.ok.inj h
      have hs : Space i.rest := dropSpace_eq_nil_iff.1 hend
      have hstop : next? i.rest = none := by
        rw [← List.append_nil i.rest]
        exact hs.next?_append rfl
      obtain ⟨u, hu, ht⟩ := sound_value maxDepth hw hstop
      change t = u ++ i.rest at ht
      rw [ht]
      exact hu.append_space hs
    · exact absurd h failNext_ne_ok
  · intro h
    have hstart : dropSpace (⟨t, .start⟩ : Input).rest = dropSpace (t ++ []) := by
      rw [List.append_nil]
    obtain ⟨i, hread, hi⟩ := finds_value h hstart rfl
    have hend : i.skipSpace.rest = [] := hi
    simp only [hread, ok_bind, hend]
    rfl

end Recordsmith.Json
