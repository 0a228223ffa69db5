import Mathlib.Data.Nat.Bitwise
import Mathlib.Tactic
import Recordsmith.Engine

/-!
# Seeds of workers

A worker's random source is seeded with a hash of the seed of the run and of the worker's key. Each
byte of the key is one step of the hash: an exclusive or, and a multiplication by an odd number.

* `Hash.mix` is the step, which can be undone, so that for each key there is one seed to each hash
  (`Hash.hashSeed_eq_iff`);
* `Hash.nearlyFixed` lists the words that the multiplication changes by given low bits only, and
  `Hash.mem_nearlyFixed_iff`: it misses none;
* `Hash.hashSeed_ne_of_lt_ten`, `Hash.hashSeed_ne_of_ten_le`: keys with as many digits never meet;
* `workers_alike_iff`: a key with one digit meets a key with two from a few seeds, which are listed.
-/

namespace Recordsmith

namespace Hash

/-! ## One step -/

/-- The multiplier of a step. -/
def prime : UInt64 := 0x100000001b3

/-- The multiplier that undoes a step. -/
def primeInverse : UInt64 := 0xce965057aff6957b

/-- One step of the hash. -/
def mix (hash byte : UInt64) : UInt64 := (hash ^^^ byte) * prime

/-- One step back. -/
def unmix (hash byte : UInt64) : UInt64 := hash * primeInverse ^^^ byte

theorem prime_mul_inverse : prime * primeInverse = 1 := by decide

theorem xor_xor_cancel (x y : UInt64) : x ^^^ y ^^^ y = x := by
  rw [UInt64.xor_assoc, UInt64.xor_self, UInt64.xor_zero]

theorem xor_eq_xor_of_eq {x y b c : UInt64} (h : x ^^^ b = y ^^^ c) : x ^^^ y = b ^^^ c := by
  have hx : x = y ^^^ c ^^^ b := by rw [← h, xor_xor_cancel]
  rw [hx, UInt64.xor_comm, ← UInt64.xor_assoc, ← UInt64.xor_assoc, UInt64.xor_self,
    UInt64.zero_xor, UInt64.xor_comm]

/-- **A step can be undone.** -/
theorem mix_eq_iff {hash byte next : UInt64} : mix hash byte = next ↔ hash = unmix next byte := by
  unfold mix unmix
  constructor
  · rintro rfl
    rw [UInt64.mul_assoc, prime_mul_inverse, UInt64.mul_one, xor_xor_cancel]
  · rintro rfl
    rw [xor_xor_cancel, UInt64.mul_assoc, UInt64.mul_comm primeInverse, prime_mul_inverse,
      UInt64.mul_one]

theorem mix_eq_mix_iff {x y b c : UInt64} : mix x b = mix y c ↔ x ^^^ b = y ^^^ c := by
  rw [mix_eq_iff, unmix, mix, UInt64.mul_assoc, prime_mul_inverse, UInt64.mul_one]
  constructor
  · rintro rfl
    exact xor_xor_cancel _ b
  · intro h
    rw [← h, xor_xor_cancel]

/-! ## Keys -/

/-- The bytes of a key, as words. -/
def keyBytes (key : Text) : List UInt64 := (Csv.utf8Bytes key).map UInt8.toUInt64

theorem keyBytes_append (key more : Text) : keyBytes (key ++ more) = keyBytes key ++ keyBytes more := by
  simp only [keyBytes, Csv.utf8Bytes, List.flatMap_append, List.map_append]

/-- The number that a seed is combined with before the first step. -/
def basis : UInt64 := 0xcbf29ce484222325

theorem hashSeed_eq (seed : UInt64) (key : Text) :
    hashSeed seed key = (keyBytes key).foldl mix (seed ^^^ basis) := by
  rw [keyBytes, List.foldl_map]
  rfl

theorem hashSeed_append (seed : UInt64) (key more : Text) :
    hashSeed seed (key ++ more) = (keyBytes more).foldl mix (hashSeed seed key) := by
  rw [hashSeed_eq, hashSeed_eq, keyBytes_append, List.foldl_append]

/-- The seed that a key hashes to the given word. -/
def seedOf (key : Text) (hash : UInt64) : UInt64 :=
  (keyBytes key).foldr (fun byte hash => unmix hash byte) hash ^^^ basis

/-- **For each key there is one seed to each hash.** -/
theorem hashSeed_eq_iff {seed hash : UInt64} {key : Text} :
    hashSeed seed key = hash ↔ seed = seedOf key hash := by
  have hfold : ∀ (bytes : List UInt64) (start : UInt64), bytes.foldl mix start = hash ↔
      start = bytes.foldr (fun byte hash => unmix hash byte) hash := by
    intro bytes
    induction bytes with
    | nil => exact fun start => Iff.rfl
    | cons byte rest ih =>
      intro start
      rw [List.foldl_cons, ih, mix_eq_iff]
      rfl
  rw [hashSeed_eq, hfold, seedOf]
  constructor
  · intro h
    rw [← h, xor_xor_cancel]
  · rintro rfl
    exact xor_xor_cancel _ basis

/-- The byte of a decimal digit. -/
def digitByte (d : Nat) : UInt64 := UInt64.ofNat (48 + d)

theorem keyBytes_ofNat_of_lt_ten : ∀ n < 10, keyBytes (Text.ofNat n) = [digitByte n] := by
  decide +kernel

theorem keyBytes_ofNat_of_ten_le : ∀ n < 100, 10 ≤ n →
    keyBytes (Text.ofNat n) = [digitByte (n / 10), digitByte (n % 10)] := by
  decide +kernel

theorem digitByte_injective : ∀ c < 10, ∀ d < 10, digitByte c = digitByte d → c = d := by
  decide +kernel

theorem xor_digitByte_lt : ∀ c < 10, ∀ d < 10, (digitByte c ^^^ digitByte d).toNat < 2 ^ 4 := by
  decide +kernel

/-- What the keys of all workers begin with. -/
def workerPrefix : Text := "worker-".toList

theorem workerKey_eq (i : Nat) : workerKey i = workerPrefix ++ Text.ofNat i := rfl

theorem hashSeed_workerKey_of_lt_ten (seed : UInt64) {i : Nat} (hi : i < 10) :
    hashSeed seed (workerKey i) = mix (hashSeed seed workerPrefix) (digitByte i) := by
  rw [workerKey_eq, hashSeed_append, keyBytes_ofNat_of_lt_ten i hi, List.foldl_cons, List.foldl_nil]

theorem hashSeed_workerKey_of_ten_le (seed : UInt64) {i : Nat} (hi : i < 100) (hten : 10 ≤ i) :
    hashSeed seed (workerKey i) =
      mix (mix (hashSeed seed workerPrefix) (digitByte (i / 10))) (digitByte (i % 10)) := by
  rw [workerKey_eq, hashSeed_append, keyBytes_ofNat_of_ten_le i hi hten, List.foldl_cons,
    List.foldl_cons, List.foldl_nil]

/-! ## Keys with as many digits -/

theorem div_eq_of_xor_lt {k x y : Nat} (h : x ^^^ y < 2 ^ k) : x / 2 ^ k = y / 2 ^ k := by
  rw [← Nat.shiftRight_eq_div_pow, ← Nat.shiftRight_eq_div_pow, ← Nat.xor_eq_zero_iff,
    ← Nat.shiftRight_xor_distrib, Nat.shiftRight_eq_div_pow, Nat.div_eq_of_lt h]

/-- Small multiples of the multiplier are not small, not even modulo a word. -/
theorem eq_zero_of_mul_prime {d b k : Int} (hd : -15 ≤ d ∧ d ≤ 15) (hb : -15 ≤ b ∧ b ≤ 15)
    (h : d * 1099511628211 = b + 18446744073709551616 * k) : d = 0 := by
  have hk : k = 0 := by
    have hlow : -1 < k := by linarith
    have hhigh : k < 1 := by linarith
    omega
  omega

theorem eq_of_div_mul_prime {x y : Nat} (hxy : x / 2 ^ 4 = y / 2 ^ 4)
    (h : x * 1099511628211 % 2 ^ 64 / 2 ^ 4 = y * 1099511628211 % 2 ^ 64 / 2 ^ 4) : x = y := by
  have hzero : (x - y : Int) = 0 := eq_zero_of_mul_prime
    (b := (x * 1099511628211 % 2 ^ 64 : Nat) - (y * 1099511628211 % 2 ^ 64 : Nat))
    (k := (x * 1099511628211 / 2 ^ 64 : Nat) - (y * 1099511628211 / 2 ^ 64 : Nat))
    (by omega) (by omega) (by omega)
  omega

/-- **Words that differ in their last four bits only are driven apart**: their products do not. -/
theorem eq_of_xor_mul_prime_lt {x y : UInt64} (hxy : (x ^^^ y).toNat < 2 ^ 4)
    (h : (x * prime ^^^ y * prime).toNat < 2 ^ 4) : x = y := by
  rw [UInt64.toNat_xor] at hxy h
  have hproducts := div_eq_of_xor_lt h
  rw [UInt64.toNat_mul, UInt64.toNat_mul] at hproducts
  exact UInt64.toNat_inj.1 (eq_of_div_mul_prime (div_eq_of_xor_lt hxy) hproducts)

/-- Workers whose keys have one digit are seeded differently. -/
theorem hashSeed_ne_of_lt_ten (seed : UInt64) {i j : Nat} (hi : i < 10) (hj : j < 10)
    (hne : i ≠ j) : hashSeed seed (workerKey i) ≠ hashSeed seed (workerKey j) := by
  rw [hashSeed_workerKey_of_lt_ten seed hi, hashSeed_workerKey_of_lt_ten seed hj]
  intro h
  rw [mix_eq_mix_iff, UInt64.xor_right_inj] at h
  exact hne (digitByte_injective i hi j hj h)

/-- Workers whose keys have two digits are seeded differently. -/
theorem hashSeed_ne_of_ten_le (seed : UInt64) {i j : Nat} (hi : i < 100) (hj : j < 100)
    (hi10 : 10 ≤ i) (hj10 : 10 ≤ j) (hne : i ≠ j) :
    hashSeed seed (workerKey i) ≠ hashSeed seed (workerKey j) := by
  rw [hashSeed_workerKey_of_ten_le seed hi hi10, hashSeed_workerKey_of_ten_le seed hj hj10]
  generalize hashSeed seed workerPrefix = start
  intro h
  rw [mix_eq_mix_iff, mix, mix] at h
  have hunits := xor_digitByte_lt (i % 10) (by omega) (j % 10) (by omega)
  have htens := xor_digitByte_lt (i / 10) (by omega) (j / 10) (by omega)
  -- what the tens leave different, the units would have to make equal again
  have hproducts := xor_eq_xor_of_eq h
  have hstart : start ^^^ digitByte (i / 10) ^^^ (start ^^^ digitByte (j / 10)) =
      digitByte (i / 10) ^^^ digitByte (j / 10) := by
    rw [UInt64.xor_comm start, UInt64.xor_assoc, ← UInt64.xor_assoc start, UInt64.xor_self,
      UInt64.zero_xor]
  have hsame := eq_of_xor_mul_prime_lt (hstart ▸ htens) (hproducts ▸ hunits)
  rw [hsame, UInt64.xor_right_inj] at h
  rw [UInt64.xor_right_inj] at hsame
  have hten := digitByte_injective (i / 10) (by omega) (j / 10) (by omega) hsame
  have hunit := digitByte_injective (i % 10) (by omega) (j % 10) (by omega) h
  omega

/-! ## Keys with one digit and with two -/

/-- An exclusive or with a number below 64 moves a word by as much as its last six bits. -/
theorem xor_eq_add {x e : UInt64} (he : e.toNat < 2 ^ 6) :
    x ^^^ e = x + ((x % 64 ^^^ e) - x % 64) := by
  have hlow : (x % 64 ^^^ e).toNat < 2 ^ 6 := by
    rw [UInt64.toNat_xor]
    exact Nat.xor_lt_two_pow (Nat.mod_lt _ (by decide)) he
  have hhigh : (x ^^^ e).toNat / 2 ^ 6 = x.toNat / 2 ^ 6 := by
    refine div_eq_of_xor_lt ?_
    rw [UInt64.toNat_xor, Nat.xor_comm, ← Nat.xor_assoc, Nat.xor_self, Nat.zero_xor]
    exact he
  have hmod : (x ^^^ e).toNat % 2 ^ 6 = (x % 64 ^^^ e).toNat := by
    rw [UInt64.toNat_xor, UInt64.toNat_xor, Nat.xor_mod_two_pow, Nat.mod_eq_of_lt he]
    rfl
  have hr : (x % 64).toNat = x.toNat % 2 ^ 6 := rfl
  have hx := x.toNat_lt
  refine UInt64.toNat_inj.1 ?_
  rw [UInt64.toNat_add, UInt64.toNat_sub, hr]
  omega

/-- The inverse of one half of what the multiplication adds to a word. -/
def halfInverse : UInt64 := 0x740975a3fb47f69

theorem add_self_eq {x d : UInt64} (h : x * prime = x + d) : x + x = d * halfInverse := by
  have hunit : (prime - 1) * halfInverse = 2 := by decide
  grind

/-- The two words that are `c` when they are doubled, if `c` is even. -/
def halves (c : UInt64) : List UInt64 := [c / 2, c / 2 + 0x8000000000000000]

theorem mem_halves {x c : UInt64} (h : x + x = c) : x ∈ halves c := by
  have hx := x.toNat_lt
  have hhalf : x = c / 2 ∨ x = c / 2 + 0x8000000000000000 := by
    simp only [← UInt64.toNat_inj, UInt64.toNat_add, UInt64.toNat_div, ← h, UInt64.reduceToNat]
    omega
  simpa [halves] using hhalf

/-- The words that the multiplication changes just as an exclusive or with `e` does. Their last six
    bits decide what they are doubled. -/
def nearlyFixed (e : UInt64) : List UInt64 :=
  (List.range 64).flatMap fun low =>
    (halves (((UInt64.ofNat low ^^^ e) - UInt64.ofNat low) * halfInverse)).filter fun x =>
      x % 64 = UInt64.ofNat low ∧ x * prime = x ^^^ e

/-- **The list misses no word.** -/
theorem mem_nearlyFixed_iff {x e : UInt64} (he : e.toNat < 2 ^ 6) :
    x ∈ nearlyFixed e ↔ x * prime = x ^^^ e := by
  unfold nearlyFixed
  simp only [List.mem_flatMap, List.mem_filter, decide_eq_true_eq, List.mem_range]
  constructor
  · rintro ⟨low, -, -, -, h⟩
    exact h
  · intro h
    have hlow : UInt64.ofNat (x % 64).toNat = x % 64 := UInt64.ofNat_toNat
    refine ⟨(x % 64).toNat, Nat.mod_lt _ (by decide), ?_, hlow.symm, h⟩
    rw [hlow]
    exact mem_halves (add_self_eq (h.trans (xor_eq_add he)))

theorem length_nearlyFixed_le :
    ∀ k < 16, (nearlyFixed (UInt64.ofNat (48 + k))).length ≤ 8 := by
  decide +kernel

/-- What three digits combine to. -/
theorem xor_digits_bounds : ∀ b < 10, ∀ c < 10, ∀ d < 10,
    48 ≤ (digitByte b ^^^ digitByte c ^^^ digitByte d).toNat ∧
      (digitByte b ^^^ digitByte c ^^^ digitByte d).toNat < 64 := by
  decide +kernel

/-- The exclusive or of the digits of a worker `i` with one digit and a worker `j` with two. -/
def difference (i j : Nat) : UInt64 := digitByte (j / 10) ^^^ digitByte i ^^^ digitByte (j % 10)

theorem difference_bounds {i j : Nat} (hi : i < 10) (hj : j < 100) :
    48 ≤ (difference i j).toNat ∧ (difference i j).toNat < 64 :=
  xor_digits_bounds (j / 10) (by omega) i hi (j % 10) (by omega)

/-- The seeds from which a worker `i` with one digit is seeded like a worker `j` with two. -/
def sharedSeeds (i j : Nat) : List UInt64 :=
  if i < 10 ∧ 10 ≤ j then
    (nearlyFixed (difference i j)).map fun x => seedOf workerPrefix (x ^^^ digitByte (j / 10))
  else []

theorem length_sharedSeeds_le {i j : Nat} (hj : j < 100) : (sharedSeeds i j).length ≤ 8 := by
  unfold sharedSeeds
  split
  · rename_i h
    obtain ⟨hlow, hhigh⟩ := difference_bounds h.1 hj
    have hk : difference i j = UInt64.ofNat (48 + ((difference i j).toNat - 48)) := by
      rw [Nat.add_sub_cancel' hlow, UInt64.ofNat_toNat]
    rw [List.length_map, hk]
    exact length_nearlyFixed_le _ (by omega)
  · exact Nat.zero_le 8

/-- **A worker with one digit meets one with two from the seeds that are listed.** With the first
    digit of the latter combined, the hash must be a word that the next multiplication changes by the
    other two digits only. -/
theorem hashSeed_eq_iff_mem (seed : UInt64) {i j : Nat} (hi : i < 10) (hj : j < 100)
    (hj10 : 10 ≤ j) :
    hashSeed seed (workerKey i) = hashSeed seed (workerKey j) ↔ seed ∈ sharedSeeds i j := by
  have hfixed : ∀ x : UInt64, x ^^^ digitByte (j / 10) ^^^ digitByte i =
      x * prime ^^^ digitByte (j % 10) ↔ x * prime = x ^^^ difference i j := by
    intro x
    unfold difference
    constructor
    · intro h
      rw [← UInt64.xor_assoc, ← UInt64.xor_assoc, h, xor_xor_cancel]
    · intro h
      rw [h, ← UInt64.xor_assoc, ← UInt64.xor_assoc, xor_xor_cancel]
  rw [hashSeed_workerKey_of_lt_ten seed hi, hashSeed_workerKey_of_ten_le seed hj hj10,
    mix_eq_mix_iff, sharedSeeds, if_pos ⟨hi, hj10⟩, List.mem_map]
  constructor
  · intro h
    refine ⟨hashSeed seed workerPrefix ^^^ digitByte (j / 10), ?_, ?_⟩
    · rw [mem_nearlyFixed_iff (difference_bounds hi hj).2, ← hfixed, xor_xor_cancel]
      exact h
    · rw [xor_xor_cancel]
      exact (hashSeed_eq_iff.1 rfl).symm
  · rintro ⟨x, hx, rfl⟩
    rw [hashSeed_eq_iff.2 rfl, (hfixed x).2 ((mem_nearlyFixed_iff (difference_bounds hi hj).2).1 hx),
      mix, xor_xor_cancel]

theorem not_mem_sharedSeeds {seed : UInt64} {i j : Nat} (h : ¬ (i < 10 ∧ 10 ≤ j)) :
    seed ∉ sharedSeeds i j := by
  rw [sharedSeeds, if_neg h]
  exact List.not_mem_nil

end Hash

open Hash

/-- **Two workers are seeded alike from a few seeds only.** Let their keys have at most two digits, as
    in every batch of at most a hundred workers. They are seeded alike just if one key has one digit,
    the other one has two, and the seed of the run is one of at most eight that are listed. -/
theorem workers_alike_iff (seed : UInt64) {i j : Nat} (hi : i < 100) (hj : j < 100) (hne : i ≠ j) :
    (hashSeed seed (workerKey i) = hashSeed seed (workerKey j) ↔
      seed ∈ sharedSeeds i j ∨ seed ∈ sharedSeeds j i) ∧
    (sharedSeeds i j).length ≤ 8 ∧ (sharedSeeds i j ≠ [] → i < 10 ∧ 10 ≤ j) := by
  refine ⟨?_, length_sharedSeeds_le hj, fun h => ?_⟩
  · rcases Nat.lt_or_ge i 10 with hi10 | hi10 <;> rcases Nat.lt_or_ge j 10 with hj10 | hj10
    · simp only [hashSeed_ne_of_lt_ten seed hi10 hj10 hne, false_iff, not_or]
      exact ⟨not_mem_sharedSeeds (by omega), not_mem_sharedSeeds (by omega)⟩
    · rw [hashSeed_eq_iff_mem seed hi10 hj hj10]
      exact (or_iff_left (not_mem_sharedSeeds (by omega))).symm
    · rw [eq_comm, hashSeed_eq_iff_mem seed hj10 hi hi10]
      exact (or_iff_right (not_mem_sharedSeeds (by omega))).symm
    · simp only [hashSeed_ne_of_ten_le seed hi hj hi10 hj10 hne, false_iff, not_or]
      exact ⟨not_mem_sharedSeeds (by omega), not_mem_sharedSeeds (by omega)⟩
  · by_contra hcases
    exact h (if_neg hcases)

/-- A seed from which two of eleven workers are seeded alike. -/
def sharedSeed : UInt64 := 908853360719875296

theorem workers_alike_iff_three_ten :
    3 < 100 ∧ 10 < 100 ∧ 3 ≠ 10 ∧
    (hashSeed sharedSeed (workerKey 3) = hashSeed sharedSeed (workerKey 10) ↔
      sharedSeed ∈ sharedSeeds 3 10 ∨ sharedSeed ∈ sharedSeeds 10 3) ∧
    sharedSeed ∈ sharedSeeds 3 10 :=
  ⟨by decide, by decide, by decide,
    (workers_alike_iff sharedSeed (by decide) (by decide) (by decide)).1, by decide +kernel⟩

/-- A batch of eleven workers. -/
def elevenWorkers : Options := { recordCount := 1, workerCount := 11, seed := some 908853360719875296 }

/-- **Two of eleven workers can have the same random source.** -/
theorem workers_alike_eleven :
    3 < elevenWorkers.workerCount ∧ 10 < elevenWorkers.workerCount ∧
    hashSeed sharedSeed (workerKey 3) = hashSeed sharedSeed (workerKey 10) ∧
    sourceFor elevenWorkers ⟨.midnight .epoch, fun _ => 0⟩ (workerKey 3) 3 =
      sourceFor elevenWorkers ⟨.midnight .epoch, fun _ => 0⟩ (workerKey 10) 10 := by
  have hhash : hashSeed sharedSeed (workerKey 3) = hashSeed sharedSeed (workerKey 10) := by
    decide +kernel
  exact ⟨by decide, by decide, hhash, congrArg ChaCha.ofSeed hhash⟩

end Recordsmith
