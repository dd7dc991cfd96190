import Kvnet.ByteOrder
import Kvnet.OnesComplement
import Kvnet.Reading
import Kvnet.UserMemory
import Mathlib.Algebra.BigOperators.Intervals
import Mathlib.Algebra.BigOperators.ModEq
import Mathlib.Algebra.BigOperators.Ring.Finset
import Mathlib.Algebra.Order.BigOperators.Group.Finset
import Mathlib.Order.Bounds.Basic

/-!
# The checksum of a buffer

checksum adds up the words of a buffer in the order of the host, folds the
carries in at the end and pads an odd last byte with a zero. As long as its
32-bit sum does not wrap, the bytes of the result are those of the Internet
checksum, which is defined on big-endian words with a carry at each addition.
-/

namespace Kvnet

open OnesComplement ByteOrder

/-- *(unsigned short *) at an offset of the buffer. -/
def loadWord (order : ByteOrder) (ptr : Nat) : Reading Nat UInt8 UInt16 := do
  let first ← Reading.load ptr
  let second ← Reading.load (ptr + 1)
  return order.word first second

/-- The loop over the words of the buffer, and the odd byte behind them. -/
def sumWords (order : ByteOrder) : Nat → Nat → UInt32 → Reading Nat UInt8 UInt32
  | nbytes + 2, ptr, sum => do
    let word ← loadWord order ptr
    sumWords order nbytes (ptr + 2) (sum + word.toUInt32)
  | 1, ptr, sum => do
    let oddbyte ← Reading.load ptr
    return sum + (order.word oddbyte 0).toUInt32
  | 0, _, sum => return sum

/-- The carries are folded in twice before the complement is taken. -/
def foldSum (sum : UInt32) : UInt16 :=
  let sum := (sum >>> 16) + (sum &&& 0xffff)
  let sum := sum + (sum >>> 16)
  (~~~sum).toUInt16

def checksum (order : ByteOrder) (len : UInt32) : Reading Nat UInt8 UInt16 := do
  let sum ← sumWords order len.toNat 0 0
  return foldSum sum

/-- The buffer with a zero byte wherever it has ended. -/
def padded (buff : Nat → UInt8) (len i : Nat) : UInt8 := if i < len then buff i else 0

def wordAt (order : ByteOrder) (buff : Nat → UInt8) (len ptr : Nat) : UInt16 :=
  order.word (padded buff len ptr) (padded buff len (ptr + 1))

/-- The exact sum of the words. -/
def wordSum (order : ByteOrder) (buff : Nat → UInt8) (len : Nat) : Nat :=
  ∑ k ∈ Finset.range ((len + 1) / 2), (wordAt order buff len (2 * k)).toNat

theorem padded_of_lt {buff : Nat → UInt8} {len i : Nat} (inside : i < len) :
    padded buff len i = buff i := if_pos inside

theorem padded_of_le {buff : Nat → UInt8} {len i : Nat} (behind : len ≤ i) :
    padded buff len i = 0 := if_neg (Nat.not_lt.mpr behind)

theorem wordAt_inside {buff : Nat → UInt8} {len ptr : Nat} (order : ByteOrder)
    (inside : ptr + 1 < len) :
    wordAt order buff len ptr = order.word (buff ptr) (buff (ptr + 1)) := by
  rw [wordAt, padded_of_lt (Nat.lt_of_succ_lt inside), padded_of_lt inside]

theorem wordAt_last (order : ByteOrder) (buff : Nat → UInt8) (ptr : Nat) :
    wordAt order buff (ptr + 1) ptr = order.word (buff ptr) 0 := by
  rw [wordAt, padded_of_lt (Nat.lt_succ_self ptr), padded_of_le (Nat.le_refl _)]

/-- The sum of n bytes' words from ptr on, in a buffer of length len. -/
def wordSumFrom (order : ByteOrder) (buff : Nat → UInt8) (len n ptr : Nat) : Nat :=
  ∑ k ∈ Finset.range ((n + 1) / 2), (wordAt order buff len (ptr + 2 * k)).toNat

theorem wordSumFrom_step (order : ByteOrder) (buff : Nat → UInt8) (len n ptr : Nat) :
    wordSumFrom order buff len (n + 2) ptr =
      (wordAt order buff len ptr).toNat + wordSumFrom order buff len n (ptr + 2) := by
  have words : (n + 2 + 1) / 2 = (n + 1) / 2 + 1 := by omega
  rw [wordSumFrom, words, Finset.sum_range_succ', Nat.add_comm]
  refine congrArg _ (Finset.sum_congr rfl fun k _ => ?_)
  rw [show ptr + 2 * (k + 1) = ptr + 2 + 2 * k by omega]

theorem wordSumFrom_last (order : ByteOrder) (buff : Nat → UInt8) (len ptr : Nat) :
    wordSumFrom order buff len 1 ptr = (wordAt order buff len ptr).toNat :=
  Finset.sum_range_one _

theorem wordSumFrom_zero (order : ByteOrder) (buff : Nat → UInt8) (len : Nat) :
    wordSumFrom order buff len len 0 = wordSum order buff len := by
  simp only [wordSumFrom, wordSum, Nat.zero_add]

theorem sumWords_value (order : ByteOrder) (buff : Nat → UInt8) (n ptr : Nat) (sum : UInt32) :
    (sumWords order n ptr sum).value buff =
      sum + UInt32.ofNat (wordSumFrom order buff (ptr + n) n ptr) := by
  induction n, ptr, sum using sumWords.induct with
  | case1 n ptr sum ih =>
    have next : ptr + (n + 2) = ptr + 2 + n := by omega
    rw [wordSumFrom_step, wordAt_inside order (by omega), UInt32.ofNat_add, next,
      ← UInt32.add_assoc, UInt32.ofNat_uInt16ToNat]
    simp only [sumWords, loadWord, Reading.value_bind, Reading.value_load, Reading.value_pure, ih]
  | case2 ptr sum =>
    rw [wordSumFrom_last, wordAt_last, UInt32.ofNat_uInt16ToNat]
    simp only [sumWords, Reading.value_bind, Reading.value_load, Reading.value_pure]
  | case3 ptr sum => simp [sumWords, wordSumFrom]

/-- Two foldings leave no carry, whatever the sum. -/
theorem fold_twice {s f : Nat} (word : s < 2 ^ 32) (once : f = s / 2 ^ 16 + s % 2 ^ 16) :
    (f + f / 2 ^ 16) % 2 ^ 16 = norm 65535 s := by
  have sum : s = 65535 * (s / 2 ^ 16) + f := by omega
  have same : f ≡ s [MOD 65535] := by
    rw [sum, Nat.ModEq, Nat.mul_add_mod]
  have none : f = 0 ↔ s = 0 := by omega
  by_cases carry : f < 2 ^ 16
  · rw [Nat.div_eq_of_lt carry, Nat.add_zero, Nat.mod_eq_of_lt carry]
    exact norm_unique (Nat.le_of_lt_succ carry) none same
  · have one : f / 2 ^ 16 = 1 := by omega
    have folded : (f + 1) % 2 ^ 16 = f - 65535 := by omega
    rw [one, folded]
    refine norm_unique (by omega) (by omega) ?_
    have carried : f - 65535 ≡ f [MOD 65535] := (Nat.mod_eq_sub_mod (by omega)).symm
    exact carried.trans same

theorem toNat_foldSum (sum : UInt32) : (foldSum sum).toNat = 65535 - norm 65535 sum.toNat := by
  have word : sum.toNat < 2 ^ 32 := sum.toNat_lt
  have low : (sum &&& 0xffff).toNat = sum.toNat % 2 ^ 16 := by
    rw [UInt32.toNat_and]
    exact Nat.and_two_pow_sub_one_eq_mod sum.toNat 16
  have high (s : UInt32) : (s >>> 16).toNat = s.toNat / 2 ^ 16 := by
    rw [UInt32.toNat_shiftRight]
    exact Nat.shiftRight_eq_div_pow s.toNat 16
  obtain ⟨folded, hf⟩ : ∃ folded, folded = (sum >>> 16) + (sum &&& 0xffff) := ⟨_, rfl⟩
  have once : folded.toNat = sum.toNat / 2 ^ 16 + sum.toNat % 2 ^ 16 := by
    rw [hf, UInt32.toNat_add, high, low]
    omega
  have twice : (folded + (folded >>> 16)).toNat % 2 ^ 16 = norm 65535 sum.toNat := by
    rw [← fold_twice word once, UInt32.toNat_add, high]
    omega
  have answer : foldSum sum = ~~~(folded + (folded >>> 16)).toUInt16 := by
    rw [hf, ← UInt32.toUInt16_not]
    rfl
  rw [answer, UInt16.toNat_not, UInt32.toNat_toUInt16, twice]
  rfl

/-- Whatever the length, the checksum is that of the sum modulo 2^32. -/
theorem checksum_value (order : ByteOrder) (buff : Nat → UInt8) (len : UInt32) :
    ((checksum order len).value buff).toNat =
      65535 - norm 65535 (wordSum order buff len.toNat % 2 ^ 32) := by
  rw [checksum, Reading.value_bind, Reading.value_pure, toNat_foldSum, sumWords_value,
    Nat.zero_add, wordSumFrom_zero, UInt32.zero_add, UInt32.toNat_ofNat']

theorem wordSum_le (order : ByteOrder) (buff : Nat → UInt8) (len : Nat) :
    wordSum order buff len ≤ (len + 1) / 2 * 65535 := by
  have words := Finset.sum_le_card_nsmul (Finset.range ((len + 1) / 2))
    (fun k => (wordAt order buff len (2 * k)).toNat) 65535 fun k _ =>
      Nat.le_of_lt_succ (wordAt order buff len (2 * k)).toNat_lt
  rw [Finset.card_range] at words
  exact words

/-- 65537 words come to 2^32 - 1 at most. -/
theorem wordSum_lt (order : ByteOrder) (buff : Nat → UInt8) {len : Nat} (short : len ≤ 131074) :
    wordSum order buff len < 2 ^ 32 := by
  have sum := wordSum_le order buff len
  omega

theorem checksum_short (order : ByteOrder) (buff : Nat → UInt8) {len : UInt32}
    (short : len.toNat ≤ 131074) :
    ((checksum order len).value buff).toNat =
      65535 - norm 65535 (wordSum order buff len.toNat) := by
  rw [checksum_value, Nat.mod_eq_of_lt (wordSum_lt order buff short)]

/-- The big-endian words of a buffer, its last byte padded with a zero. -/
def bigWords (buff : Nat → UInt8) (len : Nat) : List Nat :=
  (List.range ((len + 1) / 2)).map fun k => (wordAt .big buff len (2 * k)).toNat

/-- The complement of the one's complement sum of the big-endian words. -/
def internetChecksum (buff : Nat → UInt8) (len : Nat) : UInt16 :=
  ~~~UInt16.ofNat (onesSum 65535 (bigWords buff len))

theorem toNat_internetChecksum (buff : Nat → UInt8) (len : Nat) :
    (internetChecksum buff len).toNat = 65535 - norm 65535 (wordSum .big buff len) := by
  have words : ∀ w ∈ bigWords buff len, w ≤ 65535 := by
    intro w hw
    obtain ⟨k, _, rfl⟩ := List.mem_map.mp hw
    exact Nat.le_of_lt_succ (wordAt .big buff len (2 * k)).toNat_lt
  have sum : (bigWords buff len).sum = wordSum .big buff len := rfl
  have fits : norm 65535 (wordSum .big buff len) < 2 ^ 16 :=
    Nat.lt_succ_of_le (norm_le (by decide) _)
  rw [internetChecksum, onesSum_eq_norm (by decide) _ words, sum, UInt16.toNat_not,
    UInt16.toNat_ofNat_of_lt' fits]
  rfl

theorem ntohs_wordAt (order : ByteOrder) (buff : Nat → UInt8) (len ptr : Nat) :
    order.ntohs (wordAt order buff len ptr) = wordAt .big buff len ptr :=
  order.ntohs_word _ _

/-- In the other order the sum is multiplied as each word is. -/
theorem wordSum_modEq (order : ByteOrder) (buff : Nat → UInt8) (len : Nat) :
    wordSum .big buff len ≡ order.scale * wordSum order buff len [MOD 65535] := by
  rw [wordSum, wordSum, Finset.mul_sum]
  refine Nat.ModEq.sum fun k _ => ?_
  rw [← ntohs_wordAt order]
  exact order.ntohs_modEq _

theorem wordSum_eq_zero_iff (order : ByteOrder) (buff : Nat → UInt8) (len : Nat) :
    wordSum order buff len = 0 ↔ ∀ i, i < len → buff i = 0 := by
  simp only [wordSum, Finset.sum_eq_zero_iff, Finset.mem_range, wordAt, word_eq_zero_iff]
  constructor
  · intro zero i inside
    have both := zero (i / 2) (by omega)
    rcases Nat.mod_two_eq_zero_or_one i with even | odd
    · rw [show 2 * (i / 2) = i by omega, padded_of_lt inside] at both
      exact both.1
    · rw [show 2 * (i / 2) + 1 = i by omega, padded_of_lt inside] at both
      exact both.2
  · intro zero k below
    have byte : ∀ i, padded buff len i = 0 := by
      intro i
      by_cases inside : i < len
      · rw [padded_of_lt inside, zero i inside]
      · exact padded_of_le (Nat.le_of_not_lt inside)
    exact ⟨byte _, byte _⟩

/-- Both orders come to the same one's complement sum. -/
theorem ntohs_norm (order : ByteOrder) (buff : Nat → UInt8) (len : Nat) {v : UInt16}
    (sum : v.toNat = norm 65535 (wordSum order buff len)) :
    (order.ntohs v).toNat = norm 65535 (wordSum .big buff len) := by
  have zero : (order.ntohs v).toNat = 0 ↔ wordSum .big buff len = 0 := by
    rw [order.ntohs_eq_zero_iff, sum, norm_eq_zero_iff, wordSum_eq_zero_iff, wordSum_eq_zero_iff]
  refine norm_unique (Nat.le_of_lt_succ (order.ntohs v).toNat_lt) zero ?_
  have swapped := order.ntohs_modEq v
  rw [sum] at swapped
  have scaled : order.scale * norm 65535 (wordSum order buff len) ≡
      order.scale * wordSum order buff len [MOD 65535] := (norm_modEq _).mul_left _
  exact (swapped.trans scaled).trans (wordSum_modEq order buff len).symm

/-- The host's checksum, read in network order, is the Internet checksum. -/
theorem ntohs_checksum (order : ByteOrder) (buff : Nat → UInt8) {len : UInt32}
    (short : len.toNat ≤ 131074) :
    order.ntohs ((checksum order len).value buff) = internetChecksum buff len.toNat := by
  have upTo := norm_le (m := 65535) (by decide) (wordSum order buff len.toNat)
  have value := checksum_short order buff short
  have sum : (UInt16.ofNat (norm 65535 (wordSum order buff len.toNat))).toNat =
      norm 65535 (wordSum order buff len.toNat) :=
    UInt16.toNat_ofNat_of_lt' (Nat.lt_succ_of_le upTo)
  have whole : ((checksum order len).value buff).toNat +
      (UInt16.ofNat (norm 65535 (wordSum order buff len.toNat))).toNat = 65535 := by
    rw [value, sum]
    exact Nat.sub_add_cancel upTo
  have complement := order.toNat_ntohs_sub whole
  rw [ntohs_norm order buff len.toNat sum] at complement
  refine UInt16.toNat_inj.mp ?_
  rw [toNat_internetChecksum]
  omega

/-- 65537 words of ones come to 2^32 - 1; one more byte of them makes the sum wrap. -/
theorem wordSum_ones (order : ByteOrder) :
    wordSum order (fun _ => 0xff) 131075 = 65537 * 65535 + (order.word 0xff 0).toNat := by
  have inner : ∀ k ∈ Finset.range 65537,
      (wordAt order (fun _ => 0xff) 131075 (2 * k)).toNat = 65535 := by
    intro k hk
    have below := Finset.mem_range.mp hk
    rw [wordAt_inside order (by omega)]
    cases order with
    | little => rfl
    | big => rfl
  have last : wordAt order (fun _ => 0xff) 131075 (2 * 65537) = order.word 0xff 0 :=
    wordAt_last order (fun _ => 0xff) 131074
  rw [wordSum, show (131075 + 1) / 2 = 65537 + 1 from rfl, Finset.sum_range_succ,
    Finset.sum_congr rfl inner, Finset.sum_const, Finset.card_range, last]
  rfl

theorem ones_checksum (order : ByteOrder) :
    ((checksum order 131075).value fun _ => 0xff).toNat = 65536 - (order.word 0xff 0).toNat := by
  rw [checksum_value, show (131075 : UInt32).toNat = 131075 from rfl, wordSum_ones]
  cases order with
  | little => rfl
  | big => rfl

theorem ones_internetChecksum : (internetChecksum (fun _ => 0xff) 131075).toNat = 255 := by
  rw [toNat_internetChecksum, wordSum_ones]
  rfl

/-- The bytes of a host's checksum are the Internet checksum of every buffer up
to 131074 bytes, which is as far as this goes. -/
theorem checksum_internet (order : ByteOrder) :
    IsGreatest {bound : Nat | ∀ (buff : Nat → UInt8) (len : UInt32), len.toNat ≤ bound →
      order.bytes ((checksum order len).value buff) =
        big.bytes (internetChecksum buff len.toNat)} 131074 := by
  constructor
  · intro buff len short
    rw [← ntohs_checksum order buff short, bytes_ntohs]
  · intro bound exact
    by_contra beyond
    have same := exact (fun _ => 0xff) 131075 (Nat.lt_of_not_le beyond)
    have network : internetChecksum (fun _ => 0xff) 131075 = 255 :=
      UInt16.toNat_inj.mp ones_internetChecksum
    have host := ones_checksum order
    rw [show (131075 : UInt32).toNat = 131075 from rfl, network] at same
    cases order with
    | little =>
      have value : (checksum .little 131075).value (fun _ => 0xff) = 0xff01 :=
        UInt16.toNat_inj.mp host
      rw [value] at same
      exact absurd same (by decide)
    | big =>
      have value : (checksum .big 131075).value (fun _ => 0xff) = 0x0100 :=
        UInt16.toNat_inj.mp host
      rw [value] at same
      exact absurd same (by decide)

/-- The buffer with a word stored at an offset. -/
def storeWord (order : ByteOrder) (buff : Nat → UInt8) (field : Nat) (v : UInt16) : Nat → UInt8 :=
  storeBytes buff field (order.bytes v)

theorem storeWord_outside {order : ByteOrder} {buff : Nat → UInt8} {field i : Nat} {v : UInt16}
    (outside : i < field ∨ field + 2 ≤ i) : storeWord order buff field v i = buff i :=
  storeBytes_outside buff (by rwa [bytes_length])

theorem storeWord_congr {order : ByteOrder} {buff buff' : Nat → UInt8} {field i : Nat} {v : UInt16}
    (same : i < field ∨ field + 2 ≤ i → buff i = buff' i) :
    storeWord order buff field v i = storeWord order buff' field v i := by
  by_cases inside : field ≤ i ∧ i < field + (order.bytes v).length
  · rw [storeWord, storeWord, storeBytes, storeBytes, if_pos inside, if_pos inside]
  · rw [bytes_length] at inside
    have outside : i < field ∨ field + 2 ≤ i := by omega
    rw [storeWord_outside outside, storeWord_outside outside, same outside]

theorem storeWord_word (order : ByteOrder) (buff : Nat → UInt8) (field : Nat) (v : UInt16) :
    order.word (storeWord order buff field v field) (storeWord order buff field v (field + 1)) =
      v := by
  have first : field ≤ field ∧ field < field + (order.bytes v).length := by
    rw [bytes_length]
    omega
  have second : field ≤ field + 1 ∧ field + 1 < field + (order.bytes v).length := by
    rw [bytes_length]
    omega
  rw [storeWord, storeBytes, storeBytes, if_pos first, if_pos second, Nat.sub_self,
    Nat.add_sub_cancel_left, word_bytes]

/-- A 16-bit field that lies whole in the buffer, at an even offset. -/
structure FieldAt (field len : Nat) : Prop where
  even : field % 2 = 0
  whole : field + 2 ≤ len

namespace FieldAt

variable {field len : Nat} (at_ : FieldAt field len) (order : ByteOrder) (buff : Nat → UInt8)

include at_

theorem wordAt_field (v : UInt16) :
    wordAt order (storeWord order buff field v) len field = v := by
  have whole := at_.whole
  rw [wordAt_inside order (by omega), storeWord_word]

theorem wordAt_other {k : Nat} (other : 2 * k ≠ field) (v : UInt16) :
    wordAt order (storeWord order buff field v) len (2 * k) = wordAt order buff len (2 * k) := by
  have even := at_.even
  have kept : ∀ i, i = 2 * k ∨ i = 2 * k + 1 →
      padded (storeWord order buff field v) len i = padded buff len i := by
    intro i hi
    rw [padded, padded, storeWord_outside (by omega)]
  rw [wordAt, wordAt, kept _ (Or.inl rfl), kept _ (Or.inr rfl)]

/-- What is stored in the field is added to the sum of the rest. -/
theorem wordSum_store (v : UInt16) :
    wordSum order (storeWord order buff field v) len =
      v.toNat + wordSum order (storeWord order buff field 0) len := by
  have even := at_.even
  have whole := at_.whole
  have index : 2 * (field / 2) = field := by omega
  have inside : field / 2 ∈ Finset.range ((len + 1) / 2) := Finset.mem_range.mpr (by omega)
  have rest (w : UInt16) : wordSum order (storeWord order buff field w) len =
      w.toNat + ∑ k ∈ (Finset.range ((len + 1) / 2)).erase (field / 2),
        (wordAt order buff len (2 * k)).toNat := by
    rw [wordSum, ← Finset.add_sum_erase _ _ inside, index, at_.wordAt_field order buff w]
    refine congrArg _ (Finset.sum_congr rfl fun k hk => ?_)
    have other := Finset.ne_of_mem_erase hk
    rw [at_.wordAt_other order buff (by omega) w]
  rw [rest v, rest 0, UInt16.toNat_zero, Nat.zero_add]

end FieldAt

/-- A buffer verifies to 0 exactly when its field holds the checksum of the rest,
up to the two zeros, and some byte of the buffer is not zero. The checksum
itself always does. -/
theorem checksum_verifies (order : ByteOrder) (buff : Nat → UInt8) (len : UInt32) (field : Nat)
    (short : len.toNat ≤ 131074) (at_ : FieldAt field len.toNat) :
    (∀ v : UInt16, (checksum order len).value (storeWord order buff field v) = 0 ↔
      v.toNat ≡ ((checksum order len).value (storeWord order buff field 0)).toNat [MOD 65535] ∧
        ¬ ∀ i, i < len.toNat → storeWord order buff field v i = 0) ∧
    (checksum order len).value
      (storeWord order buff field ((checksum order len).value (storeWord order buff field 0))) =
        0 := by
  have value (v : UInt16) : ((checksum order len).value (storeWord order buff field v)).toNat =
      65535 - norm 65535 (v.toNat + wordSum order (storeWord order buff field 0) len.toNat) := by
    rw [checksum_short order _ short, at_.wordSum_store]
  have rest := value 0
  rw [UInt16.toNat_zero, Nat.zero_add] at rest
  have verifies (v : UInt16) : (checksum order len).value (storeWord order buff field v) = 0 ↔
      v.toNat ≡ ((checksum order len).value (storeWord order buff field 0)).toNat [MOD 65535] ∧
        ¬ ∀ i, i < len.toNat → storeWord order buff field v i = 0 := by
    have upTo := norm_le (m := 65535) (by decide)
      (v.toNat + wordSum order (storeWord order buff field 0) len.toNat)
    have zero : (checksum order len).value (storeWord order buff field v) = 0 ↔
        norm 65535 (v.toNat + wordSum order (storeWord order buff field 0) len.toNat) = 65535 := by
      rw [← UInt16.toNat_inj, value v, UInt16.toNat_zero]
      omega
    rw [zero, norm_eq_max_iff (by decide), add_modEq_zero_iff (by decide), ← rest, and_comm,
      ← at_.wordSum_store, ne_eq, wordSum_eq_zero_iff]
  refine ⟨verifies, (verifies _).mpr ⟨rfl, fun zeros => ?_⟩⟩
  -- a buffer of zeros has a checksum of ones
  have sum := (wordSum_eq_zero_iff order _ _).mpr zeros
  rw [at_.wordSum_store, rest] at sum
  have none : wordSum order (storeWord order buff field 0) len.toNat = 0 := by omega
  rw [none, norm_zero] at sum
  omega

theorem checksum_verifies_ones :
    (checksum .little 4).value (storeWord .little (fun _ => 1) 2
      ((checksum .little 4).value (storeWord .little (fun _ => 1) 2 0))) = 0 :=
  (checksum_verifies .little (fun _ => 1) 4 2 (by decide) ⟨rfl, by decide⟩).2

end Kvnet
