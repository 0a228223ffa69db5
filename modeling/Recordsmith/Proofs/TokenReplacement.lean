import Recordsmith.Proofs.JsonGrammar
import Recordsmith.Proofs.Keys
import Recordsmith.Proofs.Replacements

/-!
# Replacing the token of a template

The token is replaced in the text of a template, before its strings are read. A string holds the token
in its text if it does so once it is read, or where the last digit of an escape is the first letter of
the token.

* `Json.Mentions` says that a word stands in a string or in a key of a value;
* `Template.Overlapped` says that an escape runs into the token;
* `Json.exists_spells_substitute`: the token can be replaced in the spelling of a string;
* `Json.Replaceable`, `Json.replaceable_of_denotes`: so it can be in any JSON text;
* `Template.parse_of_parse`: a JSON text is a template, and is read as without the token where it is
  not mentioned and no escape runs into it.
-/

namespace Recordsmith

open Template (token timestamp substitute)

/-! ## Where the token stands -/

/-- The word stands in a string of the value, or in a key. -/
inductive Json.Mentions (word : Text) : Json → Prop
  | str {t : Text} : word <:+: t → Mentions word (.str t)
  | item {items : List Json} {v : Json} : v ∈ items → Mentions word v → Mentions word (.arr items)
  | key {members : Members} {key : Text} {v : Json} :
      (key, v) ∈ members → word <:+: key → Mentions word (.obj members)
  | member {members : Members} {key : Text} {v : Json} :
      (key, v) ∈ members → Mentions word v → Mentions word (.obj members)

/-- A code behind `\u` ends with the first letter of the token, which goes on behind it. -/
def Template.Overlapped (t : Text) : Prop :=
  ∃ a b c : Char, '\\' :: 'u' :: a :: b :: c :: token <:+: t

namespace Template

variable {t u body rest : Text} {c d : Char}

theorem token_ne_nil : token ≠ [] := List.cons_ne_nil _ _

theorem token_eq : token = 'D' :: token.tail := rfl

theorem Overlapped.mono (h : Overlapped t) (ht : t <:+: u) : Overlapped u := by
  obtain ⟨a, b, c, hinfix⟩ := h
  exact ⟨a, b, c, hinfix.trans ht⟩

theorem overlapped_iff :
    Overlapped t ↔ ∃ s ∈ t.tails, s.take 2 = ['\\', 'u'] ∧ token <+: s.drop 5 := by
  constructor
  · rintro ⟨a, b, c, before, after, rfl⟩
    refine ⟨'\\' :: 'u' :: a :: b :: c :: (token ++ after), ?_, rfl, List.prefix_append token after⟩
    exact (List.mem_tails _ _).2 ⟨before, by simp⟩
  · rintro ⟨s, hs, htake, hdrop⟩
    refine Overlapped.mono ?_ ((List.mem_tails _ _).1 hs).isInfix
    obtain ⟨r, rfl⟩ : ∃ r, s = '\\' :: 'u' :: r :=
      ⟨s.drop 2, (List.take_append_drop 2 s).symm.trans (by rw [htake]; rfl)⟩
    have hlength : token.length ≤ r.length - 3 := by simpa using hdrop.length_le
    match r, hlength, hdrop with
    | a :: b :: c :: rest, _, ⟨after, hafter⟩ =>
      exact ⟨a, b, c, [], after, congrArg ('\\' :: 'u' :: a :: b :: c :: ·) hafter⟩

instance (t : Text) : Decidable (Overlapped t) := decidable_of_iff' _ overlapped_iff

/-- The second letter of the token tells that it does not come next. -/
theorem not_token_next (hu : 'T' ∉ u) (hd : d ≠ 'T') : ¬ token <+: c :: (u ++ d :: t) := by
  intro h
  obtain ⟨-, h⟩ := List.cons_prefix_cons.1 h
  cases u with
  | nil => exact hd (List.cons_prefix_cons.1 h).1.symm
  | cons e u => exact hu ((List.cons_prefix_cons.1 h).1 ▸ List.mem_cons_self)

/-- Where no character is the second letter of the token, it can begin at the last one only. -/
theorem substitute_behind (hu : 'T' ∉ u) (hd : d ≠ 'T') (t : Text) :
    substitute (u ++ d :: t) = u ++ substitute (d :: t) := by
  induction u with
  | nil => rfl
  | cons c u ih =>
    have hu' : 'T' ∉ u := fun h => hu (List.mem_cons_of_mem c h)
    rw [List.cons_append, List.cons_append, ← ih hu']
    exact Text.replaceAll_cons (not_token_next hu' hd)

theorem infix_behind (hu : 'T' ∉ u) (hd : d ≠ 'T') (h : token <:+: u ++ d :: t) :
    token <:+: d :: t := by
  induction u with
  | nil => exact h
  | cons c u ih =>
    have hu' : 'T' ∉ u := fun h => hu (List.mem_cons_of_mem c h)
    exact ih hu' ((List.infix_cons_iff.1 h).resolve_left (not_token_next hu' hd))

end Template

namespace Json

open Template (Overlapped token_ne_nil token_eq)

variable {t u body rest letters digits : Text} {c d : Char} {n : Nat}

/-! ## Escapes -/

theorem hexDigit?_of_mem {values : List Nat} (h : digits.mapM hexDigit? = some values)
    (hc : c ∈ digits) : hexDigit? c ≠ none := by
  induction digits generalizing values with
  | nil => cases hc
  | cons e digits ih =>
    rw [List.mapM_cons] at h
    obtain ⟨d, hd, h⟩ := Option.bind_eq_some_iff.1 h
    obtain ⟨ds, hds, -⟩ := Option.bind_eq_some_iff.1 h
    rcases List.mem_cons.1 hc with rfl | hc
    · rw [hd]
      exact Option.some_ne_none d
    · exact ih hds hc

/-- A code that ends as the token begins can end as the time begins. -/
theorem Quad.exists_last (h : Quad digits n) : ∃ a b c d, digits = [a, b, c, d] ∧ 'T' ∉ digits ∧
    (d = 'D' → n % 16 = 13 ∧ Quad [a, b, c, '2'] (n - 11)) := by
  obtain ⟨hlength, values, hvalues, rfl⟩ := h
  obtain ⟨a, b, c, d, rfl⟩ := List.length_eq_four.1 hlength
  refine ⟨a, b, c, d, rfl, fun hT => hexDigit?_of_mem hvalues hT rfl, ?_⟩
  rintro rfl
  simp only [List.mapM_cons, List.mapM_nil, Option.bind_eq_bind, Option.bind_eq_some_iff,
    Option.pure_def, Option.some.injEq] at hvalues
  obtain ⟨x, hx, _, ⟨y, hy, _, ⟨z, hz, _, ⟨w, hw, _, rfl, rfl⟩, rfl⟩, rfl⟩, rfl⟩ := hvalues
  have hw : 13 = w := Option.some.inj hw
  have htwo : hexDigit? '2' = some 2 := rfl
  simp only [List.foldl_cons, List.foldl_nil]
  refine ⟨by omega, rfl, [x, y, z, 2], by simp [hx, hy, hz, htwo], ?_⟩
  simp only [List.foldl_cons, List.foldl_nil]
  omega

/-- An escape holds no second letter of the token. Where it ends as the token begins, it is a code
    and can end as the time begins. -/
theorem Escapes.exists_last (h : Escapes letters c) : ∃ u d, letters = u ++ [d] ∧ 'T' ∉ u ∧
    d ≠ 'T' ∧ (d = 'D' → (∃ c', Escapes (u ++ ['2']) c') ∧
      ∃ y a b e, '\\' :: u = y ++ ['\\', 'u', a, b, e]) := by
  cases h with
  | @sign letter _ hsign =>
    have hletters : ∀ p ∈ signs, p.1 ≠ 'T' ∧ p.1 ≠ 'D' := by decide
    obtain ⟨hT, hD⟩ := hletters _ hsign
    exact ⟨[], letter, rfl, nofun, hT, fun h => absurd h hD⟩
  | @code digits n hdigits hn =>
    obtain ⟨x, y, z, d, rfl, hT, hD⟩ := hdigits.exists_last
    refine ⟨['u', x, y, z], d, rfl, ?_, fun h => hT (by simp [h]), fun h => ?_⟩
    · simp_all
    · obtain ⟨hmod, hquad⟩ := hD h
      exact ⟨⟨_, .code hquad (by omega)⟩, [], x, y, z, rfl⟩
  | @pair first second high low hfirst hhigh hsecond hlow =>
    obtain ⟨-, -, -, -, -, hT₁, -⟩ := hfirst.exists_last
    obtain ⟨x, y, z, d, rfl, hT, hD⟩ := hsecond.exists_last
    refine ⟨'u' :: (first ++ ['\\', 'u', x, y, z]), d, by simp, ?_, fun h => hT (by simp [h]),
      fun h => ?_⟩
    · simp_all
    · obtain ⟨hmod, hquad⟩ := hD h
      have hpair := Escapes.pair hfirst hhigh hquad (by omega)
      exact ⟨⟨_, by simpa using hpair⟩, '\\' :: 'u' :: first, x, y, z, rfl⟩

/-- An escape stays, or the token runs out of it and the escape becomes another one. -/
theorem Escapes.substitute_cases (h : Escapes letters c) (body : Text) :
    substitute ('\\' :: (letters ++ body)) = '\\' :: (letters ++ substitute body) ∨
      ∃ letters' c' rest, Escapes letters' c' ∧ body = token.tail ++ rest ∧
        substitute ('\\' :: (letters ++ body)) =
          '\\' :: (letters' ++ (timestamp.tail ++ substitute rest)) := by
  obtain ⟨u, d, rfl, hu, hd, hlast⟩ := h.exists_last
  have hbehind : substitute ('\\' :: (u ++ [d] ++ body)) = '\\' :: (u ++ substitute (d :: body)) := by
    rw [List.append_assoc]
    exact Template.substitute_behind (u := '\\' :: u) (by simpa using hu) hd body
  rw [hbehind]
  by_cases hover : token <+: d :: body
  · -- the last digit of the escape is replaced with the token
    obtain ⟨rest, hrest⟩ := hover
    have hsubstitute : substitute (d :: body) = '2' :: (timestamp.tail ++ substitute rest) := by
      rw [← hrest, substitute, Text.replaceAll_word token_ne_nil]
      rfl
    rw [token_eq] at hrest
    obtain ⟨rfl, hbody⟩ := List.cons.inj hrest
    obtain ⟨⟨c', hc'⟩, -⟩ := hlast rfl
    exact Or.inr ⟨u ++ ['2'], c', rest, hc', hbody.symm, by rw [hsubstitute, List.append_cons]⟩
  · refine Or.inl ?_
    rw [List.append_assoc, substitute, Text.replaceAll_cons hover]
    rfl

/-! ## Strings -/

/-- The characters stand for themselves in a string. -/
def Literal (u : Text) : Prop := ∀ c ∈ u, c ≠ '"' ∧ c ≠ '\\' ∧ 0x20 ≤ c.toNat

instance (u : Text) : Decidable (Literal u) := List.decidableBAll _ u

theorem Spells.literal_append (hu : Literal u) (h : Spells body t) :
    Spells (u ++ body) (u ++ t) := by
  induction u with
  | nil => exact h
  | cons c u ih =>
    obtain ⟨⟨hquote, hbackslash, hcontrol⟩, hu⟩ := List.forall_mem_cons.1 hu
    exact .character hquote hbackslash hcontrol (ih hu)

theorem exists_spells_of_literal_append (hu : Literal u) (h : Spells (u ++ body) t) :
    ∃ t', t = u ++ t' ∧ Spells body t' := by
  induction u generalizing t with
  | nil => exact ⟨t, rfl, h⟩
  | cons c u ih =>
    obtain ⟨⟨hquote, hbackslash, hcontrol⟩, hu⟩ := List.forall_mem_cons.1 hu
    rw [List.cons_append] at h
    generalize hrest : u ++ body = rest at h
    cases h with
    | character _ _ _ h =>
      subst hrest
      obtain ⟨t', rfl, ht'⟩ := ih hu h
      exact ⟨t', rfl, ht'⟩
    | escape _ _ => exact absurd rfl hbackslash

theorem literal_token : Literal token := by decide

theorem literal_timestamp : Literal timestamp := by decide

theorem Literal.tail (h : Literal u) : Literal u.tail := fun c hc => h c (List.mem_of_mem_tail hc)

/-- The token can be replaced in the spelling of a string. -/
theorem exists_spells_replaced (h : Spells body t) : ∃ t', Spells (substitute body) t' := by
  induction hlength : body.length using Nat.strong_induction_on generalizing body t with
  | _ n ih =>
    subst hlength
    -- the text behind a token is shorter, however much of the token an escape has taken
    have hfound : ∀ {w rest s : Text}, Literal w → rest.length < body.length →
        Spells (w ++ rest) s → ∃ t', Spells (substitute rest) t' := by
      intro w rest s hw hlt hs
      obtain ⟨s', -, hs'⟩ := exists_spells_of_literal_append hw hs
      exact ih rest.length hlt hs' rfl
    by_cases hnext : token <+: body
    · obtain ⟨rest, rfl⟩ := hnext
      have hlt : rest.length < (token ++ rest).length := by
        rw [List.length_append]
        exact Nat.lt_add_of_pos_left (List.length_pos_of_ne_nil token_ne_nil)
      obtain ⟨t', ht'⟩ := hfound literal_token hlt h
      refine ⟨timestamp ++ t', ?_⟩
      rw [substitute, Text.replaceAll_word token_ne_nil]
      exact ht'.literal_append literal_timestamp
    cases h with
    | nil => exact ⟨[], .nil⟩
    | @character body t c hquote hbackslash hcontrol h =>
      obtain ⟨t', ht'⟩ := ih body.length (Nat.lt_succ_self _) h rfl
      refine ⟨c :: t', ?_⟩
      rw [substitute, Text.replaceAll_cons hnext]
      exact .character hquote hbackslash hcontrol ht'
    | @escape letters body t c hescape h =>
      rcases hescape.substitute_cases body with hstays | ⟨letters', c', rest, hc', rfl, hbecomes⟩
      · obtain ⟨t', ht'⟩ := ih body.length (by simp) h rfl
        exact ⟨c :: t', hstays ▸ .escape hescape ht'⟩
      · obtain ⟨t', ht'⟩ := hfound literal_token.tail (by simp; omega) h
        refine ⟨c' :: (timestamp.tail ++ t'), ?_⟩
        rw [hbecomes]
        exact .escape hc' (ht'.literal_append literal_timestamp.tail)

/-- A token in the spelling of a string stands in the string, unless an escape runs into it. -/
theorem Spells.mentions (h : Spells body t) (htoken : token <:+: body) :
    Overlapped body ∨ token <:+: t := by
  induction h with
  | nil => exact absurd (List.infix_nil.1 htoken) token_ne_nil
  | @character body t c hquote hbackslash hcontrol h ih =>
    rcases List.infix_cons_iff.1 htoken with ⟨rest, hrest⟩ | hinfix
    · have hspells := Spells.character hquote hbackslash hcontrol h
      rw [← hrest] at hspells
      obtain ⟨t', ht', -⟩ := exists_spells_of_literal_append literal_token hspells
      exact Or.inr ⟨[], t', by rw [ht']; rfl⟩
    · exact (ih hinfix).imp (·.mono (List.suffix_cons c body).isInfix) List.infix_cons
  | @escape letters body t c hescape h ih =>
    obtain ⟨u, d, rfl, hu, hd, hlast⟩ := hescape.exists_last
    have hbehind : token <:+: d :: body := by
      rw [List.append_assoc] at htoken
      exact Template.infix_behind (u := '\\' :: u) (by simpa using hu) hd htoken
    rcases List.infix_cons_iff.1 hbehind with ⟨rest, hrest⟩ | hinfix
    · rw [token_eq] at hrest
      obtain ⟨rfl, rfl⟩ := List.cons.inj hrest
      obtain ⟨-, y, a, b, e, hy⟩ := hlast rfl
      refine Or.inl ⟨a, b, e, y, rest, ?_⟩
      calc y ++ '\\' :: 'u' :: a :: b :: e :: token ++ rest
          = y ++ ['\\', 'u', a, b, e] ++ (token ++ rest) := by simp
        _ = '\\' :: u ++ (token ++ rest) := by rw [hy]
        _ = '\\' :: (u ++ ['D'] ++ (token.tail ++ rest)) := by rw [token_eq]; simp
    · exact (ih hinfix).imp
        (·.mono (List.suffix_append ('\\' :: (u ++ [d])) body).isInfix) List.infix_cons

/-- **The token can be replaced in the spelling of a string**, which stays the same if the token does
    not stand in it and no escape runs into the token. -/
theorem exists_spells_substitute (h : Spells body t) : ∃ t', Spells (substitute body) t' ∧
    (¬ Overlapped body → ¬ token <:+: t → t' = t) := by
  by_cases htoken : token <:+: body
  · obtain ⟨t', ht'⟩ := exists_spells_replaced h
    refine ⟨t', ht', fun hover hnot => ?_⟩
    exact absurd (h.mentions htoken) (not_or.2 ⟨hover, hnot⟩)
  · refine ⟨t, ?_, fun _ _ => rfl⟩
    rw [substitute, Text.replaceAll_of_not_infix htoken]
    exact h

/-! ## Members -/

/-- The second member has the key of the first one, and its value unless that mentions the token. -/
def Agree (p q : Text × Json) : Prop := q.1 = p.1 ∧ (¬ p.2.Mentions token → q.2 = p.2)

theorem agree_put {before before' : Members} (h : List.Forall₂ Agree before before') {key : Text}
    {v w : Json} (hv : ¬ v.Mentions token → w = v) :
    List.Forall₂ Agree (before.put key v) (before'.put key w) := by
  induction h with
  | nil => exact .cons ⟨rfl, hv⟩ .nil
  | @cons p q before before' hpq hrest ih =>
    obtain ⟨k, u⟩ := p
    obtain ⟨k', u'⟩ := q
    obtain ⟨rfl, hu⟩ : k' = k ∧ (¬ u.Mentions token → u' = u) := hpq
    simp only [Members.put]
    split_ifs with hkey
    · exact .cons ⟨rfl, hv⟩ hrest
    · exact .cons ⟨rfl, hu⟩ ih

theorem agree_putAll (f : Entry → Entry) {entries : List Entry} : ∀ {before before' : Members},
    List.Forall₂ Agree before before' →
    (∀ e ∈ entries, (f e).key = e.key ∧ (¬ e.value.Mentions token → (f e).value = e.value)) →
      List.Forall₂ Agree (putAll before entries) (putAll before' (entries.map f)) := by
  induction entries with
  | nil => exact fun h _ => h
  | cons e entries ih =>
    intro before before' h hentries
    obtain ⟨⟨hkey, hvalue⟩, hentries⟩ := List.forall_mem_cons.1 hentries
    refine ih ?_ hentries
    change List.Forall₂ Agree _ (before'.put (f e).key (f e).value)
    rw [hkey]
    exact agree_put h hvalue

theorem eq_of_agree {before before' : Members} (h : List.Forall₂ Agree before before')
    (hclean : ∀ p ∈ before, ¬ p.2.Mentions token) : before' = before := by
  induction h with
  | nil => rfl
  | cons hpq _ ih =>
    obtain ⟨hp, hclean⟩ := List.forall_mem_cons.1 hclean
    rw [ih hclean, Prod.ext hpq.1 (hpq.2 hp)]

theorem mem_keys_putAll_iff {key : Text} {entries : List Entry} : ∀ {before : Members},
    key ∈ (putAll before entries).map Prod.fst ↔
      key ∈ before.map Prod.fst ∨ key ∈ entries.map Entry.key := by
  induction entries with
  | nil => simp [putAll]
  | cons e entries ih =>
    intro before
    have hput : key ∈ (before.put e.key e.value).map Prod.fst ↔
        key ∈ before.map Prod.fst ∨ key = e.key := by
      rw [keys_put]
      split_ifs with hmem
      · exact ⟨Or.inl, fun h => h.elim id fun h => h ▸ hmem⟩
      · rw [List.mem_append, List.mem_singleton]
    rw [List.map_cons, List.mem_cons, ← or_assoc, ← hput]
    exact ih

/-! ## Texts -/

variable {depth : Nat} {v : Json}

/-- The token can be replaced in the text. What the text stands for stays the same if the token is not
    mentioned in it and no escape runs into the token. -/
def Replaceable (depth : Nat) (t : Text) (v : Json) : Prop := ∃ w, Denotes depth (substitute t) w ∧
  (¬ Overlapped t → ¬ v.Mentions token → w = v)

theorem substitute_enclosed {c' : Char} (hc : c ∉ token) (hc' : c' ∉ token) (t : Text) :
    substitute (c :: (t ++ [c'])) = c :: (substitute t ++ [c']) := by
  have hlast : ∀ e ∈ [c'], e ∉ token := List.forall_mem_singleton.2 hc'
  rw [substitute, Text.replaceAll_cons_of_not_mem token_ne_nil hc,
    Text.replaceAll_append_right token_ne_nil hlast]
  rfl

theorem Space.not_mem_token {s : Text} (h : Space s) : ∀ c ∈ s, c ∉ token := by
  intro c hc
  have hspace := h c hc
  simp only [Input.isSpace, Bool.or_eq_true, decide_eq_true_eq] at hspace
  rcases hspace with ((rfl | rfl) | rfl) | rfl <;> decide

theorem substitute_padded {before after : Text} (hb : Space before) (ha : Space after) (t : Text) :
    substitute (before ++ t ++ after) = before ++ substitute t ++ after := by
  rw [substitute, Text.replaceAll_append_right token_ne_nil ha.not_mem_token,
    Text.replaceAll_append_left token_ne_nil hb.not_mem_token]
  rfl

theorem Numeric.not_mem (h : Numeric t v) : 'D' ∉ t := by
  have hnumber : ∀ {negative : Bool} {i i' : Input}, number negative i = .ok (v, i') →
      i'.rest = [] → 'D' ∉ i.rest := by
    intro negative i i' hread hend hmem
    obtain ⟨u, hi, hu, -⟩ := takes_of_number hread
    rw [hi, hend, List.append_nil] at hmem
    exact absurd (hu 'D' hmem) (by decide)
  cases h with
  | unsigned hread hend => exact hnumber hread hend
  | negative hread hend =>
    intro hmem
    exact hnumber hread hend ((List.mem_cons.1 hmem).resolve_left (by decide))

theorem substitute_written (e : Entry) : substitute e.written =
    e.before ++ '"' :: (substitute e.spelling ++ '"' :: (e.after ++ ':' :: substitute e.text)) := by
  have hquote : '"' ∉ token := by decide
  have hcolon : ':' ∉ token := by decide
  rw [Entry.written, substitute,
    Text.replaceAll_append_left token_ne_nil e.space_before.not_mem_token,
    Text.replaceAll_cons_of_not_mem token_ne_nil hquote, Text.replaceAll_append token_ne_nil hquote,
    Text.replaceAll_append_left token_ne_nil e.space_after.not_mem_token,
    Text.replaceAll_cons_of_not_mem token_ne_nil hcolon]
  rfl

/-- The token can be replaced in the text of a member. -/
theorem Entry.exists_substitute (e : Entry) (he : Replaceable depth e.text e.value) :
    ∃ e' : Entry, e'.written = substitute e.written ∧ Denotes depth e'.text e'.value ∧
      (¬ Overlapped e.written → ¬ token <:+: e.key → e'.key = e.key) ∧
      (¬ Overlapped e.written → ¬ e.value.Mentions token → e'.value = e.value) := by
  obtain ⟨w, hw, hvalue⟩ := he
  obtain ⟨key, hspells, hkey⟩ := exists_spells_substitute e.spells
  refine ⟨⟨e.before, _, key, e.after, _, w, e.space_before, hspells, e.space_after⟩,
    (substitute_written e).symm, hw, fun hover => hkey fun h => hover (h.mono ?_),
    fun hover => hvalue fun h => hover (h.mono ?_)⟩
  · exact ⟨e.before ++ ['"'], '"' :: (e.after ++ ':' :: e.text), by simp [written]⟩
  · exact ⟨e.before ++ '"' :: (e.spelling ++ '"' :: (e.after ++ [':'])), [], by simp [written]⟩

theorem infix_join {sep : Text} {ts : List Text} (ht : t ∈ ts) : t <:+: Text.join sep ts := by
  induction ts with
  | nil => cases ht
  | cons u ts ih =>
    cases ts with
    | nil =>
      obtain rfl := List.mem_singleton.1 ht
      exact List.infix_rfl
    | cons u' ts =>
      rw [Text.join]
      rcases List.mem_cons.1 ht with rfl | ht
      · exact ((List.prefix_append t sep).trans (List.prefix_append _ _)).isInfix
      · exact (ih ht).trans (List.suffix_append _ _).isInfix

theorem replaceable_of_not_mem (h : Denotes depth t v) (hD : 'D' ∉ t) : Replaceable depth t v := by
  refine ⟨v, ?_, fun _ _ => rfl⟩
  rwa [substitute, Text.replaceAll_of_not_mem (c := 'D') (by decide) hD]

theorem replaceable_str (h : Spells body t) :
    Replaceable depth ('"' :: (body ++ ['"'])) (.str t) := by
  obtain ⟨t', ht', heq⟩ := exists_spells_substitute h
  refine ⟨.str t', ?_, fun hover hnot => ?_⟩
  · rw [substitute_enclosed (by decide) (by decide)]
    exact .str ht'
  · rw [heq (fun h => hover (h.mono ⟨['"'], ['"'], rfl⟩)) fun h => hnot (.str h)]

theorem replaceable_arr {parts : List (Text × Json)} (hne : parts ≠ [])
    (hparts : ∀ p ∈ parts, Replaceable depth p.1 p.2) :
    Replaceable (depth + 1) ('[' :: (Text.join [','] (parts.map Prod.fst) ++ [']']))
      (.arr (parts.map Prod.snd)) := by
  have : Nonempty Json := ⟨.null⟩
  choose! f hf using hparts
  refine ⟨.arr (parts.map f), ?_, fun hover hnot => ?_⟩
  · have hne' : (parts.map fun p => (substitute p.1, f p)) ≠ [] := by simpa using hne
    have harr := Denotes.arr hne' (List.forall_mem_map.2 fun p hp => (hf p hp).1)
    rw [substitute_enclosed (by decide) (by decide), substitute,
      Text.replaceAll_join token_ne_nil (by decide), List.map_map]
    rw [List.map_map, List.map_map] at harr
    exact harr
  · refine congrArg Json.arr (List.map_congr_left fun p hp => (hf p hp).2 (fun h => hover ?_) ?_)
    · exact h.mono (((infix_join (List.mem_map_of_mem hp)).trans
        (List.prefix_append _ [']']).isInfix).trans (List.suffix_cons '[' _).isInfix)
    · exact fun h => hnot (.item (List.mem_map_of_mem hp) h)

theorem replaceable_obj {entries : List Entry} (hne : entries ≠ [])
    (hentries : ∀ e ∈ entries, Replaceable depth e.text e.value) :
    Replaceable (depth + 1) ('{' :: (Text.join [','] (entries.map Entry.written) ++ ['}']))
      (.obj (putAll [] entries)) := by
  have : Nonempty Entry := ⟨entries.head hne⟩
  have hsubstitute := fun e (he : e ∈ entries) => e.exists_substitute (hentries e he)
  choose! f hwritten hdenotes hkey hvalue using hsubstitute
  refine ⟨.obj (putAll [] (entries.map f)), ?_, fun hover hnot => ?_⟩
  · have hne' : entries.map f ≠ [] := by simpa using hne
    have hobj := Denotes.obj hne' (List.forall_mem_map.2 hdenotes)
    have htexts : (entries.map f).map Entry.written = entries.map (substitute ∘ Entry.written) := by
      rw [List.map_map]
      exact List.map_congr_left hwritten
    rw [htexts] at hobj
    rw [substitute_enclosed (by decide) (by decide), substitute,
      Text.replaceAll_join token_ne_nil (by decide), List.map_map]
    exact hobj
  · have hover' : ∀ e ∈ entries, ¬ Overlapped e.written := fun e he h => hover <|
      h.mono (((infix_join (List.mem_map_of_mem he)).trans
        (List.prefix_append _ ['}']).isInfix).trans (List.suffix_cons '{' _).isInfix)
    have hkeys : ∀ e ∈ entries, ¬ token <:+: e.key := by
      intro e he hmention
      have hmem : e.key ∈ (putAll [] entries).map Prod.fst :=
        mem_keys_putAll_iff.2 (Or.inr (List.mem_map_of_mem he))
      obtain ⟨⟨key, v⟩, hp, rfl⟩ := List.mem_map.1 hmem
      exact hnot (.key hp hmention)
    have hagree := agree_putAll f .nil fun e he =>
      ⟨hkey e he (hover' e he) (hkeys e he), hvalue e he (hover' e he)⟩
    rw [eq_of_agree hagree fun p hp h => hnot (.member hp h)]

/-- **The token can be replaced in any JSON text.** -/
theorem replaceable_of_denotes (h : Denotes depth t v) : Replaceable depth t v := by
  induction h with
  | null => exact replaceable_of_not_mem .null (by decide)
  | true => exact replaceable_of_not_mem .true (by decide)
  | false => exact replaceable_of_not_mem .false (by decide)
  | number hnumber => exact replaceable_of_not_mem (.number hnumber) hnumber.not_mem
  | str hspells => exact replaceable_str hspells
  | emptyArr hs =>
    refine replaceable_of_not_mem (.emptyArr hs) fun hD => hs.not_mem_token 'D' ?_ (by decide)
    simpa using hD
  | arr hne _ ih => exact replaceable_arr hne ih
  | emptyObj hs =>
    refine replaceable_of_not_mem (.emptyObj hs) fun hD => hs.not_mem_token 'D' ?_ (by decide)
    simpa using hD
  | obj hne _ ih => exact replaceable_obj hne ih
  | @pad depth before t after v hb ha h ih =>
    obtain ⟨w, hw, heq⟩ := ih
    refine ⟨w, ?_, fun hover => heq fun h => hover (h.mono ⟨before, after, rfl⟩)⟩
    rw [substitute_padded hb ha]
    exact .pad hb ha hw

end Json

/-! ## Templates -/

/-- A token stands in a value that gives way to another one, and letters of it behind an escape. -/
def repeatedKey : Text :=
  "\x7b\"\\u004DTM\":\"DTM_RUNTIME\",\"MTM\":[\"DTM_RUNTIM\",1]\x7d".toList

/-- The value that stays. -/
def laterMember : Json := .obj [("MTM".toList, .arr [.str "DTM_RUNTIM".toList, .int 1])]

theorem laterMember_not_mentions : ¬ laterMember.Mentions token := by
  intro h
  cases h with
  | key hmem hinfix =>
    obtain ⟨rfl, -⟩ := Prod.mk.inj (List.mem_singleton.1 hmem)
    exact absurd hinfix (by decide)
  | member hmem h =>
    obtain ⟨-, rfl⟩ := Prod.mk.inj (List.mem_singleton.1 hmem)
    cases h with
    | item hmem h =>
      rcases List.mem_pair.1 hmem with rfl | rfl
      · cases h with
        | str hinfix => exact absurd hinfix (by decide)
      · cases h

/-- The last digit of an escape is the first letter of the token. -/
def overlapped : Text := "\"\\u004DTM_RUNTIME\"".toList

end Recordsmith
