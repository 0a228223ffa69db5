import Recordsmith.Proofs.Reading
import Recordsmith.Template

/-!
# Keys of objects

An object keeps one value for each key, and so does an object that is read.

* `Json.nodup_put`: setting a member keeps the keys distinct;
* `Json.distinctKeys_of_value`: an object that is read has distinct keys;
* `Template.keys_nodup`: so does a template.
-/

namespace Recordsmith

namespace Json

/-- The keys of an object are distinct. -/
def DistinctKeys : Json → Prop
  | obj members => (members.map (·.1)).Nodup
  | _ => True

theorem keys_put (key : Text) (v : Json) (before : Members) :
    (before.put key v).map (·.1) =
      if key ∈ before.map (·.1) then before.map (·.1) else before.map (·.1) ++ [key] := by
  induction before with
  | nil => rfl
  | cons p rest ih =>
    obtain ⟨k, u⟩ := p
    simp only [Members.put]
    by_cases hk : k = key
    · subst hk
      simp
    · simp only [if_neg hk, List.map_cons, ih, List.mem_cons, Ne.symm hk, false_or]
      split_ifs <;> rfl

theorem nodup_put (key : Text) (v : Json) {before : Members} (h : (before.map (·.1)).Nodup) :
    ((before.put key v).map (·.1)).Nodup := by
  rw [keys_put]
  split_ifs with hmem
  · exact h
  · refine List.nodup_append.2 ⟨h, List.nodup_singleton key, fun a ha b hb => ?_⟩
    rw [List.mem_singleton.1 hb]
    exact fun heq => hmem (heq ▸ ha)

variable {item : Input → Except Fault (Json × Input)}

theorem distinctKeys_of_items (fuel : Nat) : ∀ {before : List Json} {i i' : Input} {v : Json},
    items item fuel before i = .ok (v, i') → v.DistinctKeys := by
  induction fuel with
  | zero => exact fun h => absurd h fail_ne_ok
  | succ fuel ih =>
    intro before i i' v h
    obtain ⟨rfl, -⟩ | ⟨_, _, _, -, -, h⟩ := items_succ_eq_ok h
    · trivial
    · exact ih h

theorem distinctKeys_of_members (fuel : Nat) : ∀ {first : Bool} {before : Members} {i i' : Input}
    {v : Json}, members item fuel first before i = .ok (v, i') → (before.map (·.1)).Nodup →
      v.DistinctKeys := by
  induction fuel with
  | zero => exact fun h => absurd h fail_ne_ok
  | succ fuel ih =>
    intro first before i i' v h hbefore
    obtain ⟨rfl, -⟩ | ⟨_, key, u, _, -, -, h⟩ := members_succ_eq_ok h
    · exact hbefore
    · exact ih h (nodup_put key u hbefore)

theorem distinctKeys_of_number {negative : Bool} {i i' : Input} {v : Json}
    (h : number negative i = .ok (v, i')) : v.DistinctKeys := by
  unfold number at h
  obtain ⟨⟨numeral, i₁⟩, -, h⟩ := bind_eq_ok h
  simp only at h
  split at h
  · cases h
    trivial
  · split at h
    · cases h
      trivial
    · exact absurd h fail_ne_ok

/-- **An object that is read has distinct keys**: a key that is repeated keeps its first place. -/
theorem distinctKeys_of_value {depth : Nat} {i i' : Input} {v : Json}
    (h : value depth i = .ok (v, i')) : v.DistinctKeys := by
  have hword : ∀ {expected : Text} {j : Input} {c : Json}, c.DistinctKeys →
      (word expected j >>= fun p => pure (c, p.2)) = .ok (v, i') → v.DistinctKeys := by
    intro expected j c hc h
    rw [(spec_of_word h).2]
    exact hc
  unfold value at h
  dsimp only at h
  split at h
  · exact absurd h failNext_ne_ok
  · exact hword (c := .null) trivial h
  · exact hword (c := .bool true) trivial h
  · exact hword (c := .bool false) trivial h
  · exact distinctKeys_of_number h
  · obtain ⟨⟨u, j⟩, -, h⟩ := bind_eq_ok h
    obtain ⟨rfl, rfl⟩ := Prod.mk.inj (Except.ok.inj h)
    trivial
  · cases depth with
    | zero => exact absurd h failNext_ne_ok
    | succ depth => exact distinctKeys_of_items _ h
  · cases depth with
    | zero => exact absurd h failNext_ne_ok
    | succ depth => exact distinctKeys_of_members _ h List.nodup_nil
  · split at h
    · exact distinctKeys_of_number h
    · exact absurd h failNext_ne_ok

end Json

theorem Template.keys_nodup {t : Text} {members : Json.Members}
    (h : Template.parse t = .ok (.obj members)) : (members.map (·.1)).Nodup := by
  obtain ⟨i, hvalue⟩ := Json.value_of_parse (mapError_eq_ok h)
  exact Json.distinctKeys_of_value hvalue

end Recordsmith
