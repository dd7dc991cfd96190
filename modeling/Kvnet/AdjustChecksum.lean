import Kvnet.Checksum

/-!
# Adjusting a checksum

adjust_checksum takes the words of one string out of a checksum and puts those
of another in, on big-endian words with a borrow or a carry at each step. Every
step leaves a word from 1 to 65535 if it starts from one, so that a run of the
two loops is one subtraction and one addition modulo 65535.
-/

namespace Kvnet

open OnesComplement ByteOrder

/-- The strings adjust_checksum is given pointers to. -/
inductive Operand where
  | odata
  | ndata
  deriving DecidableEq, Repr

/-- (ptr[0] << 8) + ptr[1] -/
def loadPair (operand : Operand) (i : Nat) : Reading (Operand × Nat) UInt8 Int := do
  let high ← Reading.load (operand, i)
  let low ← Reading.load (operand, i + 1)
  return 256 * high.toNat + low.toNat

/-- x -= word, with the end-around borrow. -/
def subtractWord (x word : Int) : Int :=
  let x := x - word
  if x ≤ 0 then (x - 1) % 2 ^ 16 else x

/-- x += word, with the end-around carry out of bit 16. -/
def addWord (x word : Int) : Int :=
  let x := x + word
  if x / 2 ^ 16 % 2 = 1 then (x + 1) % 2 ^ 16 else x

/-- The first loop, with n passes to go. -/
def subtractLoop : Nat → Nat → Int → Reading (Operand × Nat) UInt8 Int
  | 0, _, x => return x
  | n + 1, i, x => do
    let word ← loadPair .odata i
    subtractLoop n (i + 2) (subtractWord x word)

/-- The second loop, with n passes to go. -/
def addLoop : Nat → Nat → Int → Reading (Operand × Nat) UInt8 Int
  | 0, _, x => return x
  | n + 1, i, x => do
    let word ← loadPair .ndata i
    addLoop n (i + 2) (addWord x word)

/-- The passes of `for (i = 0; i < len; i += 2)`. An int i does not overflow
unless len is 2^31 - 1. -/
def passes (len : Int) : Nat := ((len + 1) / 2).toNat

/-- adjust_checksum, returning what it stores in *sum. -/
def adjustChecksum (order : ByteOrder) (sum : UInt16) (len : Int) :
    Reading (Operand × Nat) UInt8 UInt16 := do
  let x ← subtractLoop (passes len) 0 (~~~order.ntohs sum).toNat
  let x ← addLoop (passes len) 0 x
  return order.htons (UInt16.ofInt (~~~x))

def operands (odata ndata : Nat → UInt8) : Operand × Nat → UInt8
  | (.odata, i) => odata i
  | (.ndata, i) => ndata i

/-- The checksum once the bytes behind odata are taken for those behind ndata. -/
def adjusted (order : ByteOrder) (sum : UInt16) (odata ndata : Nat → UInt8) (len : Int) : UInt16 :=
  (adjustChecksum order sum len).value (operands odata ndata)

theorem toNat_le_max (word : UInt16) : (word.toNat : Int) ≤ 65535 :=
  Int.ofNat_le.mpr (Nat.le_of_lt_succ word.toNat_lt)

theorem subtractWord_eq_rep {x word : Int} (above : 0 < x) (upTo : x ≤ 65535)
    (nonneg : 0 ≤ word) (fits : word ≤ 65535) : subtractWord x word = rep 65535 (x - word) := by
  rw [subtractWord, rep]
  by_cases borrow : x - word ≤ 0
  · rw [if_pos borrow]
    omega
  · rw [if_neg borrow]
    omega

theorem addWord_eq_rep {x word : Int} (above : 0 < x) (upTo : x ≤ 65535) (nonneg : 0 ≤ word)
    (fits : word ≤ 65535) : addWord x word = rep 65535 (x + word) := by
  rw [addWord, rep]
  by_cases carry : (x + word) / 2 ^ 16 % 2 = 1
  · rw [if_pos carry]
    omega
  · rw [if_neg carry]
    omega

/-- The words of n pairs of bytes from offset i on. -/
def pairSum (data : Nat → UInt8) (n i : Nat) : Nat :=
  ∑ k ∈ Finset.range n, (big.word (data (i + 2 * k)) (data (i + 2 * k + 1))).toNat

theorem pairSum_succ (data : Nat → UInt8) (n i : Nat) :
    pairSum data (n + 1) i =
      (big.word (data i) (data (i + 1))).toNat + pairSum data n (i + 2) := by
  rw [pairSum, Finset.sum_range_succ', Nat.add_comm]
  refine congrArg _ (Finset.sum_congr rfl fun k _ => ?_)
  rw [show i + 2 * (k + 1) = i + 2 + 2 * k by omega]

section Loops

variable (odata ndata : Nat → UInt8)

theorem loadPair_odata (i : Nat) : (loadPair .odata i).value (operands odata ndata) =
    (big.word (odata i) (odata (i + 1))).toNat := by
  rw [toNat_word_big]
  simp only [loadPair, Reading.value_bind, Reading.value_load, Reading.value_pure, operands]
  push_cast
  rfl

theorem loadPair_ndata (i : Nat) : (loadPair .ndata i).value (operands odata ndata) =
    (big.word (ndata i) (ndata (i + 1))).toNat :=
  loadPair_odata ndata ndata i

theorem subtractLoop_value (n i : Nat) {x : Int} (above : 0 < x) (upTo : x ≤ 65535) :
    (subtractLoop n i x).value (operands odata ndata) = rep 65535 (x - pairSum odata n i) := by
  induction n generalizing i x with
  | zero =>
    rw [pairSum, Finset.sum_range_zero, Nat.cast_zero, Int.sub_zero, rep_of_mem above upTo]
    rfl
  | succ n ih =>
    rw [subtractLoop, Reading.value_bind, loadPair_odata,
      subtractWord_eq_rep above upTo (Int.natCast_nonneg _) (toNat_le_max _),
      ih (i + 2) (rep_pos (by decide) _) (rep_le (by decide) _), rep_sub_left, pairSum_succ,
      Nat.cast_add, Int.sub_sub]

/-- From 0 it does too, if the first word taken out is a zero. -/
theorem subtractLoop_value_zero (n i : Nat)
    (first : (big.word (odata i) (odata (i + 1))).toNat = 0) :
    (subtractLoop (n + 1) i 0).value (operands odata ndata) =
      rep 65535 (0 - pairSum odata (n + 1) i) := by
  have borrowed : subtractWord 0 0 = rep 65535 0 := by decide
  rw [subtractLoop, Reading.value_bind, loadPair_odata, first, Nat.cast_zero, borrowed,
    subtractLoop_value odata ndata _ _ (rep_pos (by decide) _) (rep_le (by decide) _), rep_sub_left,
    pairSum_succ, first, Nat.zero_add]

theorem addLoop_value (n i : Nat) {x : Int} (above : 0 < x) (upTo : x ≤ 65535) :
    (addLoop n i x).value (operands odata ndata) = rep 65535 (x + pairSum ndata n i) := by
  induction n generalizing i x with
  | zero =>
    rw [pairSum, Finset.sum_range_zero, Nat.cast_zero, Int.add_zero, rep_of_mem above upTo]
    rfl
  | succ n ih =>
    rw [addLoop, Reading.value_bind, loadPair_ndata,
      addWord_eq_rep above upTo (Int.natCast_nonneg _) (toNat_le_max _),
      ih (i + 2) (rep_pos (by decide) _) (rep_le (by decide) _), rep_add_left, pairSum_succ,
      Nat.cast_add, Int.add_assoc]

end Loops

def sumOf (order : ByteOrder) (sum : UInt16) : Nat := (~~~order.ntohs sum).toNat

theorem toNat_ntohs_add_sumOf (order : ByteOrder) (sum : UInt16) :
    (order.ntohs sum).toNat + sumOf order sum = 65535 := by
  have word := (order.ntohs sum).toNat_lt
  rw [sumOf, UInt16.toNat_not]
  change _ + (65535 - _) = 65535
  omega

theorem sumOf_le (order : ByteOrder) (sum : UInt16) : sumOf order sum ≤ 65535 :=
  toNat_ntohs_add_sumOf order sum ▸ Nat.le_add_left _ _

theorem sumOf_inj (order : ByteOrder) {s t : UInt16}
    (same : (sumOf order s : Int) = sumOf order t) : s = t := by
  have hs := toNat_ntohs_add_sumOf order s
  have ht := toNat_ntohs_add_sumOf order t
  have words : order.ntohs s = order.ntohs t := UInt16.toNat_inj.mp (by omega)
  rw [← order.ntohs_ntohs s, words, order.ntohs_ntohs]

theorem sumOf_pos_iff (order : ByteOrder) (sum : UInt16) : 0 < sumOf order sum ↔ sum ≠ 0xffff := by
  constructor
  · rintro above rfl
    cases order with
    | little => exact absurd above (by decide)
    | big => exact absurd above (by decide)
  · intro other
    refine Nat.pos_of_ne_zero fun none => other (sumOf_inj order ?_)
    rw [none]
    cases order with
    | little => rfl
    | big => rfl

/-- The sum is what the loops leave in x. -/
theorem sumOf_stored (order : ByteOrder) {x : Int} (nonneg : 0 ≤ x) (upTo : x ≤ 65535) :
    (sumOf order (order.htons (UInt16.ofInt (~~~x))) : Int) = x := by
  obtain ⟨n, rfl⟩ := Int.eq_ofNat_of_zero_le nonneg
  have complement : ~~~(n : Int) = -n - 1 := by
    change Int.negSucc n = -n - 1
    omega
  have word : ((-n - 1 : Int) % 2 ^ 16).toNat = 65535 - n := by omega
  have fits : 65535 - n < 2 ^ 16 := by omega
  rw [sumOf, order.ntohs_htons, UInt16.toNat_not, complement, UInt16.ofInt, word,
    UInt16.toNat_ofNat_of_lt' fits]
  change ((65535 - (65535 - n) : Nat) : Int) = n
  omega

theorem passes_natCast (n : Nat) : passes n = (n + 1) / 2 := by
  rw [passes]
  omega

/-- Where the first loop subtracts, an adjustment is one subtraction and one addition. -/
theorem sumOf_adjusted_of (order : ByteOrder) (sum : UInt16) (odata ndata : Nat → UInt8) (n : Nat)
    (subtracted : (subtractLoop ((n + 1) / 2) 0 (sumOf order sum)).value (operands odata ndata) =
      rep 65535 (sumOf order sum - pairSum odata ((n + 1) / 2) 0)) :
    (sumOf order (adjusted order sum odata ndata n) : Int) =
      rep 65535 (sumOf order sum - pairSum odata ((n + 1) / 2) 0 +
        pairSum ndata ((n + 1) / 2) 0) := by
  rw [adjusted, adjustChecksum, Reading.value_bind, Reading.value_bind, Reading.value_pure,
    passes_natCast, ← sumOf, subtracted,
    addLoop_value odata ndata _ _ (rep_pos (by decide) _) (rep_le (by decide) _), rep_add_left,
    sumOf_stored order (Int.le_of_lt (rep_pos (by decide) _)) (rep_le (by decide) _)]

/-- It does for every sum but 0. -/
theorem sumOf_adjusted (order : ByteOrder) {sum : UInt16} (other : sum ≠ 0xffff)
    (odata ndata : Nat → UInt8) (n : Nat) :
    (sumOf order (adjusted order sum odata ndata n) : Int) =
      rep 65535 (sumOf order sum - pairSum odata ((n + 1) / 2) 0 +
        pairSum ndata ((n + 1) / 2) 0) :=
  sumOf_adjusted_of order sum odata ndata n (subtractLoop_value odata ndata _ _
    (Int.natCast_pos.mpr ((sumOf_pos_iff order sum).mpr other))
    (Int.ofNat_le.mpr (sumOf_le order sum)))

theorem adjusted_ne (order : ByteOrder) {sum : UInt16} (other : sum ≠ 0xffff)
    (odata ndata : Nat → UInt8) (n : Nat) : adjusted order sum odata ndata n ≠ 0xffff := by
  rw [← sumOf_pos_iff order]
  have sums := sumOf_adjusted order other odata ndata n
  have above := rep_pos (m := 65535) (by decide)
    (sumOf order sum - pairSum odata ((n + 1) / 2) 0 + pairSum ndata ((n + 1) / 2) 0)
  omega

/-- n bytes of one string, followed by another. -/
def joined (first : Nat → UInt8) (n : Nat) (second : Nat → UInt8) : Nat → UInt8 :=
  fun i => if i < n then first i else second (i - n)

theorem pairSum_joined {n : Nat} (even : n % 2 = 0) (first second : Nat → UInt8) (k : Nat) :
    pairSum (joined first n second) ((n + k + 1) / 2) 0 =
      pairSum first ((n + 1) / 2) 0 + pairSum second ((k + 1) / 2) 0 := by
  have split : (n + k + 1) / 2 = (n + 1) / 2 + (k + 1) / 2 := by omega
  have before : ∀ i, i < n → joined first n second i = first i := fun i below => if_pos below
  have behind : ∀ i, joined first n second (n + i) = second i := by
    intro i
    rw [joined, if_neg (by omega), Nat.add_sub_cancel_left]
  simp only [pairSum, split, Finset.sum_range_add, Nat.zero_add]
  congr 1
  · refine Finset.sum_congr rfl fun j hj => ?_
    have below := Finset.mem_range.mp hj
    rw [before _ (by omega), before _ (by omega)]
  · refine Finset.sum_congr rfl fun j _ => ?_
    rw [show 2 * ((n + 1) / 2 + j) = n + 2 * j by omega, Nat.add_assoc, behind, behind]

/-- How adjustments of one checksum compose, for strings of even length. -/
structure AdjustAlgebra (order : ByteOrder) (sum : UInt16) : Prop where
  undone : ∀ a b (n : Nat), n % 2 = 0 →
    adjusted order (adjusted order sum a b n) b a n = sum
  same : ∀ a (n : Nat), n % 2 = 0 → adjusted order sum a a n = sum
  commute : ∀ a b c d (n k : Nat), n % 2 = 0 → k % 2 = 0 →
    adjusted order (adjusted order sum a b n) c d k =
      adjusted order (adjusted order sum c d k) a b n
  joined : ∀ a b c d (n k : Nat), n % 2 = 0 → k % 2 = 0 →
    adjusted order (adjusted order sum a b n) c d k =
      adjusted order sum (joined a n c) (joined b n d) (n + k : Nat)
  difference : ∀ (valid : UInt16) a b (n : Nat), valid ≠ 0xffff → n % 2 = 0 →
    ((order.ntohs (adjusted order sum a b n)).toNat : Int) -
        (order.ntohs (adjusted order valid a b n)).toNat ≡
      (order.ntohs sum).toNat - (order.ntohs valid).toNat [ZMOD 65535]

section Algebra

variable {order : ByteOrder} {sum : UInt16} (other : sum ≠ 0xffff)

include other

theorem rep_sumOf : rep 65535 (sumOf order sum) = sumOf order sum :=
  rep_of_mem (Int.natCast_pos.mpr ((sumOf_pos_iff order sum).mpr other))
    (Int.ofNat_le.mpr (sumOf_le order sum))

theorem sumOf_adjusted_twice (a b c d : Nat → UInt8) (n k : Nat) :
    (sumOf order (adjusted order (adjusted order sum a b n) c d k) : Int) =
      rep 65535 (sumOf order sum - pairSum a ((n + 1) / 2) 0 + pairSum b ((n + 1) / 2) 0 -
        pairSum c ((k + 1) / 2) 0 + pairSum d ((k + 1) / 2) 0) := by
  rw [sumOf_adjusted order (adjusted_ne order other a b n), sumOf_adjusted order other,
    ← rep_add_left (rep 65535 _ - _), rep_sub_left, rep_add_left]

end Algebra

theorem sumOf_adjusted_modEq (order : ByteOrder) {sum : UInt16} (other : sum ≠ 0xffff)
    (a b : Nat → UInt8) (n : Nat) :
    (sumOf order (adjusted order sum a b n) : Int) ≡
      sumOf order sum - pairSum a ((n + 1) / 2) 0 + pairSum b ((n + 1) / 2) 0 [ZMOD 65535] := by
  rw [sumOf_adjusted order other]
  exact rep_modEq _

theorem ntohs_eq_sub (order : ByteOrder) (sum : UInt16) :
    ((order.ntohs sum).toNat : Int) = 65535 - sumOf order sum := by
  have whole := toNat_ntohs_add_sumOf order sum
  omega

/-- Adjustments of every checksum but 0xffff form an algebra. -/
theorem adjust_algebra (order : ByteOrder) (sum : UInt16) (other : sum ≠ 0xffff) :
    AdjustAlgebra order sum := by
  constructor
  · intro a b n _
    refine sumOf_inj order ?_
    rw [sumOf_adjusted_twice other, Int.add_sub_cancel, Int.sub_add_cancel, rep_sumOf other]
  · intro a n _
    refine sumOf_inj order ?_
    rw [sumOf_adjusted order other, Int.sub_add_cancel, rep_sumOf other]
  · intro a b c d n k _ _
    refine sumOf_inj order ?_
    rw [sumOf_adjusted_twice other, sumOf_adjusted_twice other]
    congr 1
    omega
  · intro a b c d n k even _
    refine sumOf_inj order ?_
    rw [sumOf_adjusted_twice other, sumOf_adjusted order other, pairSum_joined even,
      pairSum_joined even]
    congr 1
    omega
  · intro valid a b n otherValid _
    have first := (sumOf_adjusted_modEq order other a b n).sub_left 65535
    have second := (sumOf_adjusted_modEq order otherValid a b n).sub_left 65535
    have both := first.sub second
    have cancel (s v p q : Int) :
        65535 - (s - p + q) - (65535 - (v - p + q)) = 65535 - s - (65535 - v) := by omega
    rw [cancel] at both
    rw [ntohs_eq_sub, ntohs_eq_sub, ntohs_eq_sub, ntohs_eq_sub]
    exact both

theorem adjust_algebra_zero : AdjustAlgebra .little 0 :=
  adjust_algebra .little 0 (by decide)

/-- The first n offsets of an operand from offset i on. -/
def offsets (operand : Operand) (n i : Nat) : List (Operand × Nat) :=
  (List.range n).map fun j => (operand, i + j)

theorem offsets_step (operand : Operand) (n i : Nat) :
    offsets operand (n + 2) i = (operand, i) :: (operand, i + 1) :: offsets operand n (i + 2) := by
  rw [offsets, List.range_succ_eq_map, List.range_succ_eq_map, List.map_cons, List.map_cons,
    List.map_cons, List.map_map, List.map_map]
  refine congrArg (List.cons _) (congrArg (List.cons _) (List.map_congr_left fun j _ => ?_))
  rw [show i + 2 + j = i + (j + 1 + 1) by omega]
  rfl

theorem mem_offsets {operand : Operand} {n i : Nat} {loc : Operand × Nat} :
    loc ∈ offsets operand n i ↔ loc.1 = operand ∧ i ≤ loc.2 ∧ loc.2 < i + n := by
  constructor
  · intro h
    obtain ⟨j, hj, rfl⟩ := List.mem_map.mp h
    have below := List.mem_range.mp hj
    exact ⟨rfl, Nat.le_add_right i j, Nat.add_lt_add_left below i⟩
  · rintro ⟨rfl, from_i, below⟩
    refine List.mem_map.mpr ⟨loc.2 - i, List.mem_range.mpr (by omega), ?_⟩
    rw [Nat.add_sub_cancel' from_i]

theorem subtractLoop_touched (m : Operand × Nat → UInt8) (n i : Nat) (x : Int) :
    (subtractLoop n i x).touched m = offsets .odata (2 * n) i := by
  induction n generalizing i x with
  | zero => rfl
  | succ n ih =>
    rw [subtractLoop, Reading.touched_bind, ih, Nat.mul_succ, offsets_step]
    rfl

theorem addLoop_touched (m : Operand × Nat → UInt8) (n i : Nat) (x : Int) :
    (addLoop n i x).touched m = offsets .ndata (2 * n) i := by
  induction n generalizing i x with
  | zero => rfl
  | succ n ih =>
    rw [addLoop, Reading.touched_bind, ih, Nat.mul_succ, offsets_step]
    rfl

/-- Both strings are read up to the next even offset. -/
theorem adjustChecksum_touched (order : ByteOrder) (sum : UInt16) (m : Operand × Nat → UInt8)
    (n : Nat) : (adjustChecksum order sum n).touched m =
      offsets .odata (2 * ((n + 1) / 2)) 0 ++ offsets .ndata (2 * ((n + 1) / 2)) 0 := by
  rw [adjustChecksum, Reading.touched_bind, Reading.touched_bind, Reading.touched_pure,
    subtractLoop_touched, addLoop_touched, passes_natCast, List.append_nil]

/-- The bytes of two strings of even length are all an adjustment depends on. -/
theorem adjusted_congr (order : ByteOrder) (sum : UInt16) {a b c d : Nat → UInt8} {n : Nat}
    (even : n % 2 = 0) (taken : ∀ j, j < n → a j = c j) (put : ∀ j, j < n → b j = d j) :
    adjusted order sum a b n = adjusted order sum c d n := by
  refine Reading.value_congr _ fun loc touched => ?_
  rw [adjustChecksum_touched, List.mem_append, mem_offsets, mem_offsets] at touched
  obtain ⟨operand, j⟩ := loc
  rcases touched with ⟨rfl, _, below⟩ | ⟨rfl, _, below⟩
  · exact taken j (by omega)
  · exact put j (by omega)

/-- A sum that checksum returned stands for the words it was computed from. -/
theorem sumOf_checksum (order : ByteOrder) (buff : Nat → UInt8) {len : UInt32}
    (short : len.toNat ≤ 131074) :
    sumOf order ((checksum order len).value buff) =
      norm 65535 (wordSum .big buff len.toNat) := by
  have whole := toNat_ntohs_add_sumOf order ((checksum order len).value buff)
  have upTo := norm_le (m := 65535) (by decide) (wordSum .big buff len.toNat)
  rw [ntohs_checksum order buff short, toNat_internetChecksum] at whole
  omega

/-- The sum of a buffer is that of an even region and that of the words around it. -/
theorem wordSum_region (buff : Nat → UInt8) {len region n : Nat} (evenAt : region % 2 = 0)
    (even : n % 2 = 0) (inside : region + n ≤ len) :
    wordSum .big buff len =
      ∑ k ∈ Finset.range ((len + 1) / 2) \ Finset.Ico (region / 2) (region / 2 + (n + 1) / 2),
        (wordAt .big buff len (2 * k)).toNat +
          pairSum (fun j => buff (region + j)) ((n + 1) / 2) 0 := by
  have words : Finset.Ico (region / 2) (region / 2 + (n + 1) / 2) ⊆
      Finset.range ((len + 1) / 2) := by
    intro k hk
    have bounds := Finset.mem_Ico.mp hk
    exact Finset.mem_range.mpr (by omega)
  rw [wordSum, ← Finset.sum_sdiff words, Finset.sum_Ico_eq_sum_range, Nat.add_sub_cancel_left]
  refine congrArg _ (Finset.sum_congr rfl fun k hk => ?_)
  have below := Finset.mem_range.mp hk
  rw [wordAt_inside .big (by omega), show 2 * (region / 2 + k) = region + (0 + 2 * k) by omega,
    Nat.add_assoc]

/-- Replacing an even region changes the sum by what is taken out and put in. -/
theorem wordSum_replaced {old new : Nat → UInt8} {len region n : Nat} (evenAt : region % 2 = 0)
    (even : n % 2 = 0) (inside : region + n ≤ len)
    (kept : ∀ i, i < len → i < region ∨ region + n ≤ i → new i = old i) :
    wordSum .big new len + pairSum (fun j => old (region + j)) ((n + 1) / 2) 0 =
      wordSum .big old len + pairSum (fun j => new (region + j)) ((n + 1) / 2) 0 := by
  have around : ∀ k, k ∈ Finset.range ((len + 1) / 2) \
      Finset.Ico (region / 2) (region / 2 + (n + 1) / 2) →
      wordAt .big new len (2 * k) = wordAt .big old len (2 * k) := by
    intro k hk
    have outside := Finset.mem_sdiff.mp hk
    rw [Finset.mem_Ico] at outside
    have same : ∀ i, i = 2 * k ∨ i = 2 * k + 1 → padded new len i = padded old len i := by
      intro i hi
      by_cases within : i < len
      · rw [padded_of_lt within, padded_of_lt within, kept i within (by omega)]
      · rw [padded_of_le (Nat.le_of_not_lt within), padded_of_le (Nat.le_of_not_lt within)]
    rw [wordAt, wordAt, same _ (Or.inl rfl), same _ (Or.inr rfl)]
  rw [wordSum_region old evenAt even inside, wordSum_region new evenAt even inside,
    Finset.sum_congr rfl fun k hk => congrArg UInt16.toNat (around k hk)]
  omega

/-- Taking a region out of the checksum of its own buffer works from the sum 0
as well, which is that of a buffer of zeros. -/
theorem sumOf_adjusted_checksum (order : ByteOrder) (buff ndata : Nat → UInt8) {len : UInt32}
    {region n : Nat} (short : len.toNat ≤ 131074) (inside : region + n ≤ len.toNat)
    (even : n % 2 = 0) (some_bytes : 0 < n ∨ 0 < wordSum .big buff len.toNat) :
    (sumOf order (adjusted order ((checksum order len).value buff) (fun j => buff (region + j))
        ndata n) : Int) =
      rep 65535 (sumOf order ((checksum order len).value buff) -
        pairSum (fun j => buff (region + j)) ((n + 1) / 2) 0 + pairSum ndata ((n + 1) / 2) 0) := by
  by_cases other : (checksum order len).value buff = 0xffff
  · have none : sumOf order ((checksum order len).value buff) = 0 :=
      Nat.eq_zero_of_not_pos fun above => (sumOf_pos_iff order _).mp above other
    have no_words := none
    rw [sumOf_checksum order buff short, norm_eq_zero_iff] at no_words
    have zeros := (wordSum_eq_zero_iff .big buff len.toNat).mp no_words
    have first : (big.word (buff (region + 0)) (buff (region + (0 + 1)))).toNat = 0 := by
      rw [zeros _ (by omega), zeros _ (by omega)]
      rfl
    obtain ⟨k, hk⟩ : ∃ k, (n + 1) / 2 = k + 1 := ⟨(n + 1) / 2 - 1, by omega⟩
    refine sumOf_adjusted_of order _ _ ndata n ?_
    rw [none, hk]
    exact subtractLoop_value_zero _ ndata k 0 first
  · exact sumOf_adjusted order other _ ndata n

/-- Adjusting the checksum of a buffer for a replaced region gives the checksum
of the new buffer, unless nothing but zeros is left of it. -/
theorem adjust_recomputes (order : ByteOrder) (old new odata ndata : Nat → UInt8) (len : UInt32)
    (field region n : Nat) (short : len.toNat ≤ 131074)
    (valid : order.word (old field) (old (field + 1)) =
      (checksum order len).value (storeWord order old field 0))
    (evenAt : region % 2 = 0) (even : n % 2 = 0) (inside : region + n ≤ len.toNat)
    (apart : region + n ≤ field ∨ field + 2 ≤ region)
    (held : ∀ j, j < n → odata j = old (region + j))
    (holds : ∀ j, j < n → ndata j = new (region + j))
    (kept : ∀ i, i < len.toNat → i < region ∨ region + n ≤ i → new i = old i)
    (nonzero : ∃ i, i < len.toNat ∧ (i < field ∨ field + 2 ≤ i) ∧ new i ≠ 0) :
    adjusted order (order.word (old field) (old (field + 1))) odata ndata n =
      (checksum order len).value (storeWord order new field 0) := by
  have region_of : ∀ (buff : Nat → UInt8) (j : Nat), j < n →
      buff (region + j) = storeWord order buff field 0 (region + j) :=
    fun buff j below => (storeWord_outside (by omega)).symm
  have kept' : ∀ i, i < len.toNat → i < region ∨ region + n ≤ i →
      storeWord order new field 0 i = storeWord order old field 0 i := by
    intro i below outside
    exact storeWord_congr fun _ => kept i below outside
  have sums := wordSum_replaced evenAt even inside kept'
  have some_left : 0 < wordSum .big (storeWord order new field 0) len.toNat := by
    obtain ⟨i, below, beside, byte⟩ := nonzero
    refine Nat.pos_of_ne_zero fun none => byte ?_
    have zero := (wordSum_eq_zero_iff .big _ _).mp none i below
    rwa [storeWord_outside beside] at zero
  have some_bytes : 0 < n ∨ 0 < wordSum .big (storeWord order old field 0) len.toNat := by
    rcases Nat.eq_zero_or_pos n with rfl | some_bytes
    · refine Or.inr ?_
      rw [pairSum, pairSum, Finset.sum_range_zero, Finset.sum_range_zero] at sums
      omega
    · exact Or.inl some_bytes
  rw [valid, adjusted_congr order _ even
    (fun j below => (held j below).trans (region_of old j below))
    (fun j below => (holds j below).trans (region_of new j below))]
  refine sumOf_inj order ?_
  rw [sumOf_checksum order (storeWord order new field 0) short, norm_natCast some_left,
    sumOf_adjusted_checksum order _ _ short inside even some_bytes,
    sumOf_checksum order (storeWord order old field 0) short]
  refine rep_congr ?_
  generalize storeWord order old field 0 = before at sums ⊢
  generalize storeWord order new field 0 = after at sums ⊢
  have words : (norm 65535 (wordSum .big before len.toNat) : Int) ≡
      wordSum .big before len.toNat [ZMOD 65535] := Int.natCast_modEq_iff.mpr (norm_modEq _)
  have exact_sum : (wordSum .big after len.toNat : Int) = wordSum .big before len.toNat -
      pairSum (fun j => before (region + j)) ((n + 1) / 2) 0 +
        pairSum (fun j => after (region + j)) ((n + 1) / 2) 0 := by omega
  rw [exact_sum]
  exact (words.sub_right _).add_right _

/-- Two bytes of data and the checksum of them. -/
def fourBytes (first second : UInt8) : Nat → UInt8 := fun i => [first, second, 0xfe, 0xfd].getD i 0

theorem adjust_recomputes_four :
    adjusted .little (ByteOrder.little.word 0xfe 0xfd) (fourBytes 1 2) (fourBytes 3 4) 2 =
      (checksum .little 4).value (storeWord .little (fourBytes 3 4) 2 0) :=
  adjust_recomputes .little (fourBytes 1 2) (fourBytes 3 4) (fourBytes 1 2) (fourBytes 3 4) 4 2 0 2
    (by decide) (by decide +kernel) rfl rfl (by decide) (Or.inl (by decide))
    (fun j _ => congrArg _ (Nat.zero_add j).symm) (fun j _ => congrArg _ (Nat.zero_add j).symm)
    (by decide +kernel) ⟨0, by decide, Or.inl (by decide), by decide⟩

/-- The length means what it means to checksum: nothing behind it is read, and
an odd tail is padded with a zero byte. -/
structure LengthHonoured (order : ByteOrder) (sum : UInt16) (odata ndata : Nat → UInt8)
    (len : Nat) : Prop where
  within : (adjustChecksum order sum len).Within (operands odata ndata) (·.2 < len)
  tail : len % 2 = 1 → adjusted order sum odata ndata len =
    adjusted order sum (padded odata len) (padded ndata len) (len + 1 : Nat)

/-- The length is honoured exactly when it is even. -/
theorem length_honoured_iff (order : ByteOrder) (sum : UInt16) (odata ndata : Nat → UInt8)
    (len : Nat) : LengthHonoured order sum odata ndata len ↔ len % 2 = 0 := by
  constructor
  · intro honoured
    by_contra odd
    have behind : (Operand.odata, len) ∈
        (adjustChecksum order sum len).touched (operands odata ndata) := by
      rw [adjustChecksum_touched]
      refine List.mem_append_left _ (mem_offsets.mpr ⟨rfl, Nat.zero_le len, ?_⟩)
      change len < 0 + 2 * ((len + 1) / 2)
      omega
    exact Nat.lt_irrefl len (honoured.within _ behind)
  · intro even
    constructor
    · intro loc h
      rw [adjustChecksum_touched, List.mem_append, mem_offsets, mem_offsets] at h
      omega
    · intro odd
      omega

/-- One byte is adjusted, with the bytes 0 and 1 behind it. -/
theorem odd_length_reads_behind :
    ¬ LengthHonoured .little 0 (fun _ => 0) (fun i => if i = 1 then 1 else 0) 1 := by
  intro honoured
  exact absurd (honoured.tail rfl) (by decide +kernel)

end Kvnet
