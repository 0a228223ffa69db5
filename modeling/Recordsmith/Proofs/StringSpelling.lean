import Recordsmith.Proofs.Reading
import Recordsmith.Proofs.Scanning

/-!
# How strings are spelt

A string can be written in many ways: a character stands for itself, or an escape stands for it. The
reader accepts all of them and nothing else.

* `Json.Quad`, `Json.Escapes`: the escapes, and the characters that they stand for;
* `Json.Spells body t`: the text `t` is spelt as `body` between the quotes of a string;
* `Json.exists_escapes_of_escape`, `Json.escape_of_escapes`: the escapes are what is read behind a
  backslash;
* `Json.exists_spells_of_string`, `Json.string_of_spells`: a string is read from its spellings.
-/

namespace Recordsmith.Json

/-! ## Spellings -/

/-- Four hexadecimal digits, and their value. -/
def Quad (digits : Text) (n : Nat) : Prop :=
  digits.length = 4 ∧ ∃ values : List Nat, digits.mapM hexDigit? = some values ∧
    values.foldl (fun n d => n * 16 + d) 0 = n

/-- The escapes of one letter or sign. -/
def signs : List (Char × Char) :=
  [('"', '"'), ('\\', '\\'), ('/', '/'), ('b', '\x08'), ('f', '\x0c'), ('n', '\n'), ('r', '\r'),
    ('t', '\t')]

/-- The escape, whose backslash is left out, stands for the character. Characters beyond 16 bits have
    two codes. -/
inductive Escapes : (escape : Text) → Char → Prop
  | sign {letter c : Char} : (letter, c) ∈ signs → Escapes [letter] c
  | code {digits : Text} {n : Nat} :
      Quad digits n → ¬ (0xD800 ≤ n ∧ n ≤ 0xDFFF) → Escapes ('u' :: digits) (Char.ofNat n)
  | pair {first second : Text} {high low : Nat} :
      Quad first high → 0xD800 ≤ high ∧ high ≤ 0xDBFF →
      Quad second low → 0xDC00 ≤ low ∧ low ≤ 0xDFFF →
      Escapes ('u' :: (first ++ '\\' :: 'u' :: second))
        (Char.ofNat ((high - 0xD800) * 0x400 + (low - 0xDC00) + 0x10000))

/-- The text is spelt as `body` in a string. -/
inductive Spells : (body t : Text) → Prop
  | nil : Spells [] []
  | character {body t : Text} {c : Char} :
      c ≠ '"' → c ≠ '\\' → 0x20 ≤ c.toNat → Spells body t → Spells (c :: body) (c :: t)
  | escape {escape body t : Text} {c : Char} :
      Escapes escape c → Spells body t → Spells ('\\' :: (escape ++ body)) (c :: t)

variable {i i' : Input} {rest body t : Text} {c : Char} {n : Nat}

/-! ## Codes -/

theorem utf8Size_of_hexDigit? {d : Nat} (h : hexDigit? c = some d) : c.utf8Size = 1 := by
  have hascii : ∀ d : Char, d.val ≤ 127 → c ≤ d → c.val ≤ 127 :=
    fun d hd hc => UInt32.le_trans (Char.le_def.1 hc) hd
  rw [Char.utf8Size_eq_one_iff]
  unfold hexDigit? at h
  split_ifs at h with h₁ h₂ h₃
  · exact hascii '9' (by decide) h₁.2
  · exact hascii 'f' (by decide) h₂.2
  · exact hascii 'F' (by decide) h₃.2

/-- Hexadecimal digits take one byte each. -/
theorem utf8Size_of_mapM {digits : Text} : ∀ {values : List Nat},
    digits.mapM hexDigit? = some values → Text.utf8Size digits = digits.length := by
  induction digits with
  | nil => exact fun _ => rfl
  | cons c digits ih =>
    intro values h
    rw [List.mapM_cons] at h
    obtain ⟨d, hd, h⟩ := Option.bind_eq_some_iff.1 h
    obtain ⟨ds, hds, -⟩ := Option.bind_eq_some_iff.1 h
    rw [Text.utf8Size, utf8Size_of_hexDigit? hd, ih hds, List.length_cons, Nat.add_comm]

theorem exists_quad_of_hexQuad (h : hexQuad i = .ok (n, i')) :
    ∃ digits, Quad digits n ∧ i.rest = digits ++ i'.rest := by
  unfold hexQuad at h
  split_ifs at h with hsize
  · exact absurd h fail_ne_ok
  · split at h
    · rename_i values hvalues
      obtain ⟨rfl, rfl⟩ := Prod.mk.inj (Except.ok.inj h)
      refine ⟨i.rest.take 4, ⟨?_, values, hvalues, rfl⟩, (List.take_append_drop 4 i.rest).symm⟩
      -- fewer digits would take fewer bytes
      have hbytes := utf8Size_of_mapM hvalues
      by_contra hlength
      rw [List.length_take] at hlength
      rw [List.take_of_length_le (by omega)] at hbytes
      omega
    · cases h

theorem hexQuad_of_quad {digits : Text} (h : Quad digits n) (hi : i.rest = digits ++ rest) :
    ∃ i', hexQuad i = .ok (n, i') ∧ i'.rest = rest := by
  obtain ⟨hlength, values, hvalues, rfl⟩ := h
  have hsize : ¬ Text.utf8Size i.rest < 4 := by
    have hle := Text.length_le_utf8Size i.rest
    rw [hi, List.length_append, hlength] at hle
    rw [hi]
    omega
  refine ⟨i.pass (i.rest.take 4) (i.rest.drop 4), ?_, ?_⟩
  · unfold hexQuad
    rw [if_neg hsize, hi, List.take_left' hlength, hvalues]
  · change i.rest.drop 4 = rest
    rw [hi, List.drop_left' hlength]

/-! ## Escapes -/

theorem exists_pair_of_lowSurrogate {high : Nat} (h : lowSurrogate high i = .ok (c, i')) :
    ∃ second low, Quad second low ∧ (0xDC00 ≤ low ∧ low ≤ 0xDFFF) ∧
      c = Char.ofNat ((high - 0xD800) * 0x400 + (low - 0xDC00) + 0x10000) ∧
      i.rest = '\\' :: 'u' :: (second ++ i'.rest) := by
  unfold lowSurrogate at h
  split at h
  · exact absurd h fail_ne_ok
  · rename_i rest hrest
    dsimp only at h
    split at h
    · exact absurd h fail_ne_ok
    · rename_i rest' hrest'
      obtain ⟨⟨low, j⟩, hquad, h⟩ := bind_eq_ok h
      dsimp only at h
      split_ifs at h with hlow
      · obtain ⟨rfl, rfl⟩ := Prod.mk.inj (Except.ok.inj h)
        obtain ⟨second, hsecond, hskip⟩ := exists_quad_of_hexQuad hquad
        rw [rest_of_skip hrest'] at hskip
        rw [rest_of_skip hrest] at hrest'
        exact ⟨second, low, hsecond, hlow, rfl, by rw [hrest, hrest', hskip]⟩
      · exact absurd h fail_ne_ok
    · exact absurd h failNext_ne_ok
  · exact absurd h failNext_ne_ok

theorem exists_escapes_of_codeEscape (h : codeEscape i = .ok (c, i')) :
    ∃ codes, Escapes ('u' :: codes) c ∧ i.rest = codes ++ i'.rest := by
  unfold codeEscape at h
  obtain ⟨⟨n, j⟩, hquad, h⟩ := bind_eq_ok h
  obtain ⟨digits, hdigits, hi⟩ := exists_quad_of_hexQuad hquad
  dsimp only at h
  split_ifs at h with hlow hhigh
  · exact absurd h fail_ne_ok
  · obtain ⟨second, low, hsecond, hlow, hc, hj⟩ := exists_pair_of_lowSurrogate h
    refine ⟨digits ++ '\\' :: 'u' :: second, ?_, by rw [hi, hj]; simp⟩
    rw [hc]
    exact .pair hdigits hhigh hsecond hlow
  · obtain ⟨rfl, rfl⟩ := Prod.mk.inj (Except.ok.inj h)
    exact ⟨digits, .code hdigits (by omega), hi⟩

/-- **What is read behind a backslash is an escape.** -/
theorem exists_escapes_of_escape (h : escape i = .ok (c, i')) :
    ∃ letters, Escapes letters c ∧ i.rest = letters ++ i'.rest := by
  unfold escape at h
  split at h
  case h_1 => exact absurd h fail_ne_ok
  case h_10 rest hrest =>
    obtain ⟨codes, hcodes, hskip⟩ := exists_escapes_of_codeEscape h
    rw [rest_of_skip hrest] at hskip
    exact ⟨_, hcodes, by rw [hrest, hskip, List.cons_append]⟩
  case h_11 => exact absurd h failNext_ne_ok
  all_goals
    rename_i rest hrest
    obtain ⟨rfl, rfl⟩ := Prod.mk.inj (Except.ok.inj h)
    refine ⟨[_], .sign ?_, by rw [hrest, rest_of_skip hrest]; rfl⟩
    decide

/-- **Every escape is read behind a backslash.** -/
theorem escape_of_escapes {letters : Text} (h : Escapes letters c) (hi : i.rest = letters ++ rest) :
    ∃ i', escape i = .ok (c, i') ∧ i'.rest = rest := by
  cases h with
  | @sign letter _ hsign =>
    refine ⟨i.skip, ?_, rest_of_skip hi⟩
    simp only [signs, List.mem_cons, Prod.mk.injEq, List.not_mem_nil, or_false] at hsign
    rw [List.singleton_append] at hi
    rcases hsign with ⟨rfl, rfl⟩ | ⟨rfl, rfl⟩ | ⟨rfl, rfl⟩ | ⟨rfl, rfl⟩ | ⟨rfl, rfl⟩ |
      ⟨rfl, rfl⟩ | ⟨rfl, rfl⟩ | ⟨rfl, rfl⟩ <;> simp only [escape, hi]
  | @code digits n hdigits hn =>
    obtain ⟨j, hquad, hj⟩ := hexQuad_of_quad hdigits (rest_of_skip hi)
    refine ⟨j, ?_, hj⟩
    rw [List.cons_append] at hi
    simp only [escape, hi, codeEscape, hquad, ok_bind]
    rw [if_neg (by omega), if_neg (by omega)]
    rfl
  | @pair first second high low hfirst hhigh hsecond hlow =>
    have hcodes : i.skip.rest = first ++ '\\' :: 'u' :: (second ++ rest) := by
      rw [rest_of_skip hi]
      simp
    obtain ⟨j, hquad, hj⟩ := hexQuad_of_quad hfirst hcodes
    have hj' := rest_of_skip hj
    obtain ⟨k, hquad', hk⟩ := hexQuad_of_quad hsecond (rest_of_skip hj')
    refine ⟨k, ?_, hk⟩
    rw [List.cons_append] at hi
    simp only [escape, hi, codeEscape, hquad, ok_bind]
    rw [if_neg (by omega), if_pos hhigh]
    simp only [lowSurrogate, hj, hj', hquad', ok_bind]
    rw [if_pos hlow]
    rfl

/-! ## Strings -/

theorem exists_spells_of_stringFrom (fuel : Nat) : ∀ {before : Text} {i i' : Input} {t : Text},
    stringFrom fuel before i = .ok (t, i') →
      ∃ body u, Spells body u ∧ t = before.reverse ++ u ∧ i.rest = body ++ '"' :: i'.rest := by
  induction fuel with
  | zero => exact fun h => absurd h fail_ne_ok
  | succ fuel ih =>
    intro before i i' t h
    unfold stringFrom at h
    split at h
    · exact absurd h fail_ne_ok
    · rename_i rest hrest
      obtain ⟨rfl, rfl⟩ := Prod.mk.inj (Except.ok.inj h)
      exact ⟨[], [], .nil, (List.append_nil _).symm, by rw [hrest, rest_of_skip hrest]; rfl⟩
    · rename_i rest hrest
      obtain ⟨⟨c, j⟩, hescape, h⟩ := bind_eq_ok h
      obtain ⟨letters, hletters, hskip⟩ := exists_escapes_of_escape hescape
      obtain ⟨body, u, hbody, rfl, hj⟩ := ih h
      rw [rest_of_skip hrest] at hskip
      exact ⟨_, c :: u, .escape hletters hbody, by simp, by rw [hrest, hskip, hj]; simp⟩
    · rename_i c rest hquote hbackslash hrest
      split_ifs at h with hcontrol
      · exact absurd h failNext_ne_ok
      · obtain ⟨body, u, hbody, rfl, hj⟩ := ih h
        rw [rest_of_skip hrest] at hj
        exact ⟨c :: body, c :: u, .character hquote hbackslash (by omega) hbody, by simp,
          by rw [hrest, hj]; rfl⟩

theorem stringFrom_of_spells (h : Spells body t) : ∀ (fuel : Nat) (before : Text) {i : Input},
    t.length < fuel → i.rest = body ++ '"' :: rest →
      ∃ i', stringFrom fuel before i = .ok (before.reverse ++ t, i') ∧ i'.rest = rest := by
  induction h with
  | nil =>
    intro fuel before i hfuel hi
    obtain ⟨fuel, rfl⟩ := Nat.exists_eq_succ_of_ne_zero (Nat.ne_zero_of_lt hfuel)
    refine ⟨i.skip, ?_, rest_of_skip hi⟩
    rw [List.nil_append] at hi
    simp only [stringFrom, hi, List.append_nil]
  | @character body t c hquote hbackslash hcontrol _ ih =>
    intro fuel before i hfuel hi
    obtain ⟨fuel, rfl⟩ := Nat.exists_eq_succ_of_ne_zero (Nat.ne_zero_of_lt hfuel)
    obtain ⟨i', hread, hi'⟩ := ih fuel (c :: before) (Nat.lt_of_succ_lt_succ hfuel) (rest_of_skip hi)
    refine ⟨i', ?_, hi'⟩
    rw [List.cons_append] at hi
    rw [List.reverse_cons, List.append_assoc] at hread
    simp only [stringFrom, hi, if_neg (Nat.not_lt.2 hcontrol)]
    exact hread
  | @escape letters body t c hletters _ ih =>
    intro fuel before i hfuel hi
    obtain ⟨fuel, rfl⟩ := Nat.exists_eq_succ_of_ne_zero (Nat.ne_zero_of_lt hfuel)
    rw [List.cons_append, List.append_assoc] at hi
    have hskip := rest_of_skip hi
    obtain ⟨j, hescape, hj⟩ := escape_of_escapes hletters hskip
    obtain ⟨i', hread, hi'⟩ := ih fuel (c :: before) (Nat.lt_of_succ_lt_succ hfuel) hj
    refine ⟨i', ?_, hi'⟩
    rw [List.reverse_cons, List.append_assoc] at hread
    simp only [stringFrom, hi, hescape, ok_bind]
    exact hread

theorem Spells.length_le (h : Spells body t) : t.length ≤ body.length := by
  induction h with
  | nil => exact le_rfl
  | character _ _ _ _ ih => exact Nat.succ_le_succ ih
  | escape _ _ ih =>
    rw [List.length_cons, List.length_cons, List.length_append]
    omega

/-- **What is read as a string is a spelling, up to the next quote.** -/
theorem exists_spells_of_string (h : string i = .ok (t, i')) :
    ∃ body, Spells body t ∧ i.rest = body ++ '"' :: i'.rest := by
  obtain ⟨body, u, hbody, rfl, hi⟩ := exists_spells_of_stringFrom _ h
  exact ⟨body, hbody, hi⟩

/-- **A string is read from each of its spellings.** -/
theorem string_of_spells (h : Spells body t) (hi : i.rest = body ++ '"' :: rest) :
    ∃ i', string i = .ok (t, i') ∧ i'.rest = rest := by
  refine stringFrom_of_spells h _ [] ?_ hi
  have hle := h.length_le
  rw [hi, List.length_append]
  omega

end Recordsmith.Json
