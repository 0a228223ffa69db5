import Recordsmith.Pattern.Parse
import Recordsmith.Proofs.Moments
import Recordsmith.Proofs.Outcomes

/-!
# The parts that a text shows

* `DateParts.tellAll` tells a list of parts one after the other, and `tellAll_eq_ok_iff` says that
  the result has exactly these parts;
* `Field.scan` is what a field at the start of a text tells, whatever was told before;
* `DateParts.readItems_eq_ok_iff` reads items as a scan of the text and a telling of the parts.
-/

namespace Recordsmith

/-! ## Parts by name -/

/-- A part of a date, a time of day or an offset. -/
inductive Slot where
  | year
  | yearOfCentury
  | month
  | day
  | dayOfYear
  | weekday
  | half
  | hourOfHalf
  | minute
  | second
  | nano
  | offset
deriving DecidableEq

namespace DateParts

/-- What has been told of a part. -/
def get (parts : DateParts) : Slot → Option Int
  | .year => parts.year
  | .yearOfCentury => parts.yearOfCentury
  | .month => parts.month
  | .day => parts.day
  | .dayOfYear => parts.dayOfYear
  | .weekday => parts.weekday
  | .half => parts.half
  | .hourOfHalf => parts.hourOfHalf
  | .minute => parts.minute
  | .second => parts.second
  | .nano => parts.nano
  | .offset => parts.offset

/-- Replaces what has been told of a part. -/
def put (parts : DateParts) (value : Option Int) : Slot → DateParts
  | .year => { parts with year := value }
  | .yearOfCentury => { parts with yearOfCentury := value }
  | .month => { parts with month := value }
  | .day => { parts with day := value }
  | .dayOfYear => { parts with dayOfYear := value }
  | .weekday => { parts with weekday := value }
  | .half => { parts with half := value }
  | .hourOfHalf => { parts with hourOfHalf := value }
  | .minute => { parts with minute := value }
  | .second => { parts with second := value }
  | .nano => { parts with nano := value }
  | .offset => { parts with offset := value }

theorem get_put (parts : DateParts) (value : Option Int) (s s' : Slot) :
    (parts.put value s).get s' = if s' = s then value else parts.get s' := by
  cases s <;> cases s' <;> rfl

theorem get_empty (s : Slot) : ({} : DateParts).get s = none := by
  cases s <;> rfl

theorem ext_get {parts parts' : DateParts} (h : ∀ s, parts.get s = parts'.get s) :
    parts = parts' := by
  cases parts
  cases parts'
  simp only [DateParts.mk.injEq]
  exact ⟨h .year, h .yearOfCentury, h .month, h .day, h .dayOfYear, h .weekday, h .half,
    h .hourOfHalf, h .minute, h .second, h .nano, h .offset⟩

/-! ## Telling -/

/-- Tells a part, which must not have been told with another value. -/
def tell (parts : DateParts) (s : Slot) (value : Int) : Except DateFault DateParts :=
  (setPart (parts.get s) value).map fun part => parts.put part s

/-- Tells parts one after the other. -/
def tellAll (parts : DateParts) : List (Slot × Int) → Except DateFault DateParts
  | [] => .ok parts
  | (s, value) :: tells => parts.tell s value >>= fun parts => parts.tellAll tells

theorem setPart_eq_ok_iff {part part' : Option Int} {value : Int} :
    setPart part value = .ok part' ↔ (∀ v, part = some v → v = value) ∧ part' = some value := by
  unfold setPart
  split
  · simp [eq_comm]
  · split <;> simp_all [eq_comm]

/-- A part can be told if it was not told with another value. -/
theorem tell_eq_ok_iff {parts parts' : DateParts} {s : Slot} {value : Int} :
    parts.tell s value = .ok parts' ↔
      (∀ v, parts.get s = some v → v = value) ∧ parts' = parts.put (some value) s := by
  unfold tell
  cases h : setPart (parts.get s) value with
  | error e =>
    refine ⟨fun h' => absurd h' (by simp [Except.map]), fun ⟨hsame, _⟩ => ?_⟩
    rw [setPart_eq_ok_iff.2 ⟨hsame, rfl⟩] at h
    exact absurd h (by simp)
  | ok part =>
    obtain ⟨hsame, rfl⟩ := setPart_eq_ok_iff.1 h
    rw [and_iff_right hsame, Except.map, Except.ok.injEq, eq_comm]

/-- A part that is told joins the parts told before. -/
theorem get_put_eq_some_iff {parts : DateParts} {s s' : Slot} {value v : Int}
    (hsame : ∀ v, parts.get s = some v → v = value) :
    (parts.put (some value) s).get s' = some v ↔
      parts.get s' = some v ∨ (s', v) = (s, value) := by
  rw [get_put]
  split
  · subst s'
    simp only [Option.some.injEq, Prod.mk.injEq, true_and]
    exact ⟨fun h => Or.inr h.symm, fun h => h.elim (fun h => (hsame v h).symm) Eq.symm⟩
  · rename_i hne
    simp [hne]

/-- **What is told is what was told before and what is told now.** -/
theorem tellAll_eq_ok_iff {tells : List (Slot × Int)} {parts parts' : DateParts} :
    parts.tellAll tells = .ok parts' ↔
      ∀ s v, parts'.get s = some v ↔ parts.get s = some v ∨ (s, v) ∈ tells := by
  induction tells generalizing parts with
  | nil =>
    simp only [tellAll, Except.ok.injEq, List.not_mem_nil, or_false]
    exact ⟨fun h => by simp [h], fun h => ext_get fun s => Option.ext fun v => (h s v).symm⟩
  | cons told tells ih =>
    obtain ⟨s, value⟩ := told
    simp only [tellAll, List.mem_cons]
    constructor
    · intro h s' v
      obtain ⟨between, hbetween, h⟩ := bind_eq_ok h
      obtain ⟨hsame, rfl⟩ := tell_eq_ok_iff.1 hbetween
      rw [ih.1 h, get_put_eq_some_iff hsame, or_assoc]
    · intro h
      have hsame : ∀ v, parts.get s = some v → v = value := by
        intro v hv
        have hnew := (h s value).2 (Or.inr (Or.inl rfl))
        rw [(h s v).2 (Or.inl hv)] at hnew
        exact Option.some.inj hnew
      rw [tell_eq_ok_iff.2 ⟨hsame, rfl⟩, ok_bind, ih]
      intro s' v
      rw [h, get_put_eq_some_iff hsame, or_assoc]

end DateParts

/-! ## What a field tells -/

namespace Field

/-- What a number tells that is written for a field. -/
def ofNumber (f : Field) (n : Int) : Except DateFault (List (Slot × Int)) :=
  match f with
  | .year => (partWithin (-2147483648) 2147483647 n).map fun n => [(.year, n)]
  | .yearOfCentury => (partWithin 0 99 n).map fun n => [(.yearOfCentury, n)]
  | .month _ => (partWithin 1 12 n).map fun n => [(.month, n)]
  | .day _ => (partWithin 1 31 n).map fun n => [(.day, n)]
  | .dayOfYear => (partWithin 1 366 n).map fun n => [(.dayOfYear, n)]
  | .hour _ => (partWithin 0 23 n).map fun n => [(.half, n / 12), (.hourOfHalf, n % 12)]
  | .hourOfHalf _ => (partWithin 1 12 n).map fun n => [(.hourOfHalf, n % 12)]
  | .minute _ => (partWithin 0 59 n).map fun n => [(.minute, n)]
  | .second _ => (partWithin 0 60 n).map fun n => [(.second, n)]
  | .milliseconds | .microseconds | .nanoseconds =>
    (partWithin 0 999999999 n).map fun n => [(.nano, n)]
  | _ => .ok []

/-- What a field at the start of a text tells, and the rest of the text. -/
def scan (f : Field) (t : Text) : Except DateFault (List (Slot × Int) × Text) :=
  match f with
  | .year => do
    let (n, t) ← readDateYear (Text.trimStart t)
    pure (← f.ofNumber n, t)
  | .yearOfCentury | .month _ | .day _ | .hour _ | .hourOfHalf _ | .minute _ | .second _ => do
    let (n, t) ← readDateNumber 2 (Text.trimStart t)
    pure (← f.ofNumber n, t)
  | .dayOfYear => do
    let (n, t) ← readDateNumber 3 (Text.trimStart t)
    pure (← f.ofNumber n, t)
  | .milliseconds => do
    let (n, t) ← readDateFraction 3 t
    pure (← f.ofNumber (n * 1000000), t)
  | .microseconds => do
    let (n, t) ← readDateFraction 6 t
    pure (← f.ofNumber (n * 1000), t)
  | .nanoseconds => do
    let (n, t) ← readDateFraction 9 t
    pure (← f.ofNumber n, t)
  | .monthAbbreviated => (readShortName monthNames t).map fun (n, t) => ([(.month, n + 1)], t)
  | .monthName => (readName monthNames t).map fun (n, t) => ([(.month, n + 1)], t)
  | .weekdayAbbreviated => (readShortName weekdayNames t).map fun (n, t) => ([(.weekday, n)], t)
  | .weekdayName => (readName weekdayNames t).map fun (n, t) => ([(.weekday, n)], t)
  | .half => (readHalf t).map fun (n, t) => ([(.half, n)], t)
  | .offset | .offsetWithColon => (readOffset t).map fun (n, t) => ([(.offset, n)], t)
  | .zoneAbbreviation => .ok ([], t.dropWhile fun c => !Text.isBlank c)

end Field

namespace DateParts

theorem setHour_eq (parts : DateParts) (half : Option Int) (hour : Int) :
    parts.setHour half hour =
      parts.tellAll ((half.toList.map fun half => (.half, half)) ++ [(.hourOfHalf, hour)]) := by
  cases half with
  | none =>
    simp only [setHour, tellAll, tell, get, Option.toList, List.map_nil, List.nil_append]
    change (setPart parts.hourOfHalf hour >>= _) = _
    cases setPart parts.hourOfHalf hour <;> rfl
  | some half =>
    simp only [setHour, tellAll, tell, get, Option.toList, List.map_cons, List.map_nil,
      List.cons_append, List.nil_append]
    cases setPart parts.half half with
    | error e => rfl
    | ok part =>
      simp only [ok_bind, Except.map, put]
      cases setPart parts.hourOfHalf hour <;> rfl

theorem setNumber_eq (parts : DateParts) (f : Field) (n : Int) :
    parts.setNumber f n = f.ofNumber n >>= parts.tellAll := by
  -- a number that is refused is refused on both sides, and so is a part told otherwise before
  cases f <;> (try rfl) <;> simp only [setNumber, Field.ofNumber] <;>
    generalize partWithin _ _ n = admitted <;> rcases admitted with e | n <;> (try rfl)
  case hour.ok => exact setHour_eq parts (some (n / 12)) (n % 12)
  case hourOfHalf.ok => exact setHour_eq parts none (n % 12)
  all_goals
    simp only [ok_bind, Except.map, tellAll, tell, get]
    generalize setPart _ _ = part
    cases part <;> rfl

/-- **A field tells the same, whatever was told before.** -/
theorem readField_eq (parts : DateParts) (f : Field) (t : Text) :
    parts.readField f t =
      f.scan t >>= fun (tells, rest) => (parts.tellAll tells).map fun parts => (parts, rest) := by
  have hnumber : ∀ {α : Type} (f : Field) (value : α → Int) (x : Except DateFault (α × Text)),
      (x >>= fun (n, t) => parts.setNumber f (value n) >>= fun parts => pure (parts, t)) =
        (x >>= fun (n, t) => f.ofNumber (value n) >>= fun tells => pure (tells, t)) >>=
          fun (tells, rest) => (parts.tellAll tells).map fun parts => (parts, rest) := by
    intro α f value x
    rcases x with e | ⟨n, t⟩
    · rfl
    · simp only [ok_bind, setNumber_eq]
      cases f.ofNumber (value n) <;> rfl
  have hpart : ∀ {α : Type} (s : Slot) (value : α → Int) (x : Except DateFault (α × Text)),
      (x >>= fun (n, t) =>
        setPart (parts.get s) (value n) >>= fun part => pure (parts.put part s, t)) =
        x.map (fun (n, t) => ([(s, value n)], t)) >>=
          fun (tells, rest) => (parts.tellAll tells).map fun parts => (parts, rest) := by
    intro α s value x
    rcases x with e | ⟨n, t⟩
    · rfl
    · simp only [ok_bind, Except.map, tellAll, tell]
      cases setPart (parts.get s) (value n) <;> rfl
  cases f with
  | year => exact hnumber _ (fun n : Int => n) _
  | yearOfCentury | month | day | dayOfYear | hour | hourOfHalf | minute | second | nanoseconds =>
    exact hnumber _ (fun n : Nat => (n : Int)) _
  | milliseconds => exact hnumber _ (fun n : Nat => (n : Int) * 1000000) _
  | microseconds => exact hnumber _ (fun n : Nat => (n : Int) * 1000) _
  | monthAbbreviated | monthName => exact hpart .month (fun n : Nat => (n : Int) + 1) _
  | weekdayAbbreviated | weekdayName => exact hpart .weekday (fun n : Nat => (n : Int)) _
  | half => exact hpart .half (fun n : Nat => (n : Int)) _
  | offset | offsetWithColon => exact hpart .offset (fun n : Int => n) _
  | zoneAbbreviation => rfl

/-! ## Scanning items -/

end DateParts

/-- What items at the start of a text tell; nothing may be left of the text. -/
def scanItems : List Item → Text → Except DateFault (List (Slot × Int))
  | [], [] => .ok []
  | [], _ :: _ => .error .tooLong
  | .field f :: items, t => do
    let (tells, t) ← f.scan t
    pure (tells ++ (← scanItems items t))
  | .literal literal :: items, t => do scanItems items (← readDateLiteral literal t)
  | .percent :: items, t => do scanItems items (← readDateLiteral ['%'] t)
  | .space _ :: items, t => scanItems items (Text.trimStart t)
  | .invalid :: _, _ => .error .invalid

namespace DateParts

theorem tellAll_append (parts : DateParts) (tells tells' : List (Slot × Int)) :
    parts.tellAll (tells ++ tells') =
      parts.tellAll tells >>= fun parts => parts.tellAll tells' := by
  induction tells generalizing parts with
  | nil => rfl
  | cons told tells ih =>
    simp only [List.cons_append, tellAll, ih]
    cases parts.tell told.1 told.2 <;> rfl

/-- To read items is to scan the text and to tell what it shows. -/
theorem readItems_eq_ok_iff_tellAll {items : List Item} {parts parts' : DateParts} {t : Text} :
    readItems parts items t = .ok parts' ↔
      ∃ tells, scanItems items t = .ok tells ∧ parts.tellAll tells = .ok parts' := by
  induction items generalizing parts t with
  | nil =>
    cases t with
    | nil => simp [readItems, scanItems, tellAll]
    | cons c cs => simp [readItems, scanItems]
  | cons item items ih =>
    have hliteral : ∀ read : Except DateFault Text,
        (read >>= fun t => readItems parts items t) = .ok parts' ↔
          ∃ tells, (read >>= fun t => scanItems items t) = .ok tells ∧
            parts.tellAll tells = .ok parts' := by
      intro read
      cases read with
      | error e => simp [bind, Except.bind]
      | ok rest => exact ih
    cases item with
    | field f =>
      simp only [readItems, scanItems, readField_eq]
      constructor
      · intro h
        obtain ⟨⟨between, rest⟩, hbetween, h⟩ := bind_eq_ok h
        obtain ⟨⟨tells, _⟩, hscan, hbetween⟩ := bind_eq_ok hbetween
        obtain ⟨_, htold, hpair⟩ := map_eq_ok hbetween
        cases hpair
        obtain ⟨later, hlater, hparts⟩ := ih.1 h
        refine ⟨tells ++ later, ?_, ?_⟩
        · simp only [hscan, ok_bind, hlater]
          rfl
        · rw [tellAll_append, htold, ok_bind, hparts]
      · rintro ⟨tells, hscan, hparts⟩
        obtain ⟨⟨now, rest⟩, hnow, hscan⟩ := bind_eq_ok hscan
        obtain ⟨later, hlater, hscan⟩ := bind_eq_ok hscan
        cases hscan
        rw [tellAll_append] at hparts
        obtain ⟨between, hbetween, hparts⟩ := bind_eq_ok hparts
        simp only [hnow, ok_bind, hbetween, Except.map]
        exact ih.2 ⟨later, hlater, hparts⟩
    | literal literal => exact hliteral (readDateLiteral literal t)
    | percent => exact hliteral (readDateLiteral ['%'] t)
    | space blanks => exact ih
    | invalid => simp [readItems, scanItems]

/-- **The parts that are read are those that the text shows.** -/
theorem readItems_eq_ok_iff {items : List Item} {parts : DateParts} {t : Text} :
    readItems {} items t = .ok parts ↔
      ∃ tells, scanItems items t = .ok tells ∧ ∀ s v, parts.get s = some v ↔ (s, v) ∈ tells := by
  simp only [readItems_eq_ok_iff_tellAll, tellAll_eq_ok_iff, get_empty, reduceCtorEq, false_or]

end DateParts

/-! ## Which parts are told -/

/-- The parts that a field tells. -/
def Field.slots : Field → List Slot
  | .year => [.year]
  | .yearOfCentury => [.yearOfCentury]
  | .month _ | .monthAbbreviated | .monthName => [.month]
  | .day _ => [.day]
  | .dayOfYear => [.dayOfYear]
  | .hour _ => [.half, .hourOfHalf]
  | .hourOfHalf _ => [.hourOfHalf]
  | .minute _ => [.minute]
  | .second _ => [.second]
  | .milliseconds | .microseconds | .nanoseconds => [.nano]
  | .half => [.half]
  | .weekdayAbbreviated | .weekdayName => [.weekday]
  | .offset | .offsetWithColon => [.offset]
  | .zoneAbbreviation => []

/-- The parts that an item tells. -/
def Item.slots : Item → List Slot
  | .field f => f.slots
  | _ => []

/-- The values that a text can tell of the time of day, and of a year without its century. -/
def Slot.Admits (value : Int) : Slot → Prop
  | .yearOfCentury => 0 ≤ value ∧ value ≤ 99
  | .half => 0 ≤ value ∧ value ≤ 1
  | .hourOfHalf => 0 ≤ value ∧ value ≤ 11
  | .minute => 0 ≤ value ∧ value ≤ 59
  | .second => 0 ≤ value ∧ value ≤ 60
  | .nano => 0 ≤ value ∧ value ≤ 999999999
  | _ => True

/-- A text has told just these parts, with admitted values. -/
def Tells (slots : List Slot) (tells : List (Slot × Int)) : Prop :=
  tells.map Prod.fst = slots ∧ ∀ told ∈ tells, told.1.Admits told.2

theorem tells_one {s : Slot} {value : Int} (h : s.Admits value) : Tells [s] [(s, value)] :=
  ⟨rfl, by simpa using h⟩

theorem Tells.append {slots slots' : List Slot} {tells tells' : List (Slot × Int)}
    (h : Tells slots tells) (h' : Tells slots' tells') :
    Tells (slots ++ slots') (tells ++ tells') := by
  refine ⟨by rw [List.map_append, h.1, h'.1], fun told htold => ?_⟩
  rcases List.mem_append.1 htold with htold | htold
  · exact h.2 told htold
  · exact h'.2 told htold

theorem partWithin_eq_ok {low high value v : Int} (h : partWithin low high value = .ok v) :
    v = value ∧ low ≤ v ∧ v ≤ high := by
  unfold partWithin at h
  split at h
  · obtain rfl := Except.ok.inj h
    exact ⟨rfl, ‹_›⟩
  · exact absurd h (by simp)

theorem readHalf_le {t rest : Text} {n : Nat} (h : readHalf t = .ok (n, rest)) : n ≤ 1 := by
  unfold readHalf at h
  split at h
  · exact absurd h (by simp)
  · split at h <;> cases h <;> decide

/-- A field tells its parts, with values that they admit. -/
theorem Field.scan_tells {f : Field} {t rest : Text} {tells : List (Slot × Int)}
    (h : f.scan t = .ok (tells, rest)) : Tells f.slots tells := by
  have hnumber : ∀ {α : Type} (value : α → Int) {x : Except DateFault (α × Text)} {low high : Int}
      {told : Int → List (Slot × Int)}, (∀ v, low ≤ v → v ≤ high → Tells f.slots (told v)) →
      (x >>= fun (n, t) => (partWithin low high (value n)).map told >>= fun tells =>
        pure (tells, t)) = .ok (tells, rest) → Tells f.slots tells := by
    intro α value x low high told htold h
    obtain ⟨⟨n, t⟩, -, h⟩ := bind_eq_ok h
    obtain ⟨now, hnow, h⟩ := bind_eq_ok h
    cases h
    obtain ⟨v, hv, rfl⟩ := map_eq_ok hnow
    obtain ⟨-, hlow, hhigh⟩ := partWithin_eq_ok hv
    exact htold v hlow hhigh
  have hone : ∀ {α : Type} {s : Slot} (value : α → Int) {x : Except DateFault (α × Text)},
      (∀ n rest, x = .ok (n, rest) → s.Admits (value n)) →
      x.map (fun (n, t) => ([(s, value n)], t)) = .ok (tells, rest) → Tells [s] tells := by
    intro α s value x hadmits h
    obtain ⟨⟨n, t⟩, hx, h⟩ := map_eq_ok h
    cases h
    exact tells_one (hadmits n _ hx)
  cases f with
  | year => exact hnumber (fun n : Int => n) (fun v _ _ => tells_one trivial) h
  | month | day | dayOfYear =>
    exact hnumber (fun n : Nat => (n : Int)) (fun v _ _ => tells_one trivial) h
  | yearOfCentury | minute | second | nanoseconds =>
    exact hnumber (fun n : Nat => (n : Int)) (fun v h₁ h₂ => tells_one ⟨h₁, h₂⟩) h
  | milliseconds =>
    exact hnumber (fun n : Nat => (n : Int) * 1000000)
      (fun v h₁ h₂ => tells_one ⟨h₁, h₂⟩) h
  | microseconds =>
    exact hnumber (fun n : Nat => (n : Int) * 1000) (fun v h₁ h₂ => tells_one ⟨h₁, h₂⟩) h
  | hour fill =>
    refine hnumber (fun n : Nat => (n : Int)) (fun v h₁ h₂ => ?_) h
    have hhalf : Slot.half.Admits (v / 12) := by constructor <;> omega
    have hhour : Slot.hourOfHalf.Admits (v % 12) := by constructor <;> omega
    exact (tells_one hhalf).append (tells_one hhour)
  | hourOfHalf fill =>
    refine hnumber (fun n : Nat => (n : Int)) (fun v h₁ h₂ => tells_one ?_) h
    constructor <;> omega
  | monthAbbreviated | monthName =>
    exact hone (fun n : Nat => (n : Int) + 1) (fun _ _ _ => trivial) h
  | weekdayAbbreviated | weekdayName =>
    exact hone (fun n : Nat => (n : Int)) (fun _ _ _ => trivial) h
  | half =>
    refine hone (fun n : Nat => (n : Int)) (fun n rest hn => ?_) h
    have hle := readHalf_le hn
    constructor <;> omega
  | offset | offsetWithColon => exact hone (fun n : Int => n) (fun _ _ _ => trivial) h
  | zoneAbbreviation => cases h; exact ⟨rfl, by simp⟩

theorem scanItems_tells {items : List Item} {t : Text} {tells : List (Slot × Int)}
    (h : scanItems items t = .ok tells) : Tells (items.flatMap Item.slots) tells := by
  induction items generalizing t tells with
  | nil =>
    cases t with
    | nil => cases h; exact ⟨rfl, by simp⟩
    | cons c cs => cases h
  | cons item items ih =>
    cases item with
    | field f =>
      obtain ⟨⟨now, rest⟩, hnow, h⟩ := bind_eq_ok h
      obtain ⟨later, hlater, h⟩ := bind_eq_ok h
      cases h
      exact (Field.scan_tells hnow).append (ih hlater)
    | literal literal | percent =>
      obtain ⟨rest, -, h⟩ := bind_eq_ok h
      exact ih h
    | space blanks => exact ih h
    | invalid => cases h

end Recordsmith
