import Mathlib.Data.Int.ModEq

/-!
# 16-bit words in memory

A host reads two bytes as one word in its own order; the network order is the
big-endian one. Reading in the other order swaps the bytes of a word, which is
to multiply it by 256 modulo 65535.
-/

inductive ByteOrder where
  | little
  | big
  deriving DecidableEq, Repr

namespace ByteOrder

/-- The word whose bytes are `a` and `b` in memory. -/
def word : ByteOrder → UInt8 → UInt8 → UInt16
  | little, a, b => UInt16.ofNat (256 * b.toNat + a.toNat)
  | big, a, b => UInt16.ofNat (256 * a.toNat + b.toNat)

/-- The bytes a word is stored as. -/
def bytes : ByteOrder → UInt16 → List UInt8
  | little, v => [UInt8.ofNat v.toNat, UInt8.ofNat (v.toNat / 256)]
  | big, v => [UInt8.ofNat (v.toNat / 256), UInt8.ofNat v.toNat]

def swap (v : UInt16) : UInt16 := UInt16.ofNat (256 * (v.toNat % 256) + v.toNat / 256)

def ntohs : ByteOrder → UInt16 → UInt16
  | little, v => swap v
  | big, v => v

def htons : ByteOrder → UInt16 → UInt16 := ntohs

theorem toNat_word_big (a b : UInt8) : (big.word a b).toNat = 256 * a.toNat + b.toNat := by
  have high := a.toNat_lt
  have low := b.toNat_lt
  have fits : 256 * a.toNat + b.toNat < 2 ^ 16 := by omega
  exact UInt16.toNat_ofNat_of_lt' fits

theorem toNat_word_little (a b : UInt8) : (little.word a b).toNat = 256 * b.toNat + a.toNat :=
  toNat_word_big b a

theorem word_eq_zero_iff (order : ByteOrder) (a b : UInt8) :
    (order.word a b).toNat = 0 ↔ a = 0 ∧ b = 0 := by
  rw [← UInt8.toNat_inj, ← UInt8.toNat_inj, UInt8.toNat_zero]
  cases order with
  | little =>
    rw [toNat_word_little]
    omega
  | big =>
    rw [toNat_word_big]
    omega

@[simp] theorem bytes_length (order : ByteOrder) (v : UInt16) : (order.bytes v).length = 2 := by
  cases order with
  | little => rfl
  | big => rfl

theorem word_bytes (order : ByteOrder) (v : UInt16) :
    order.word ((order.bytes v).getD 0 0) ((order.bytes v).getD 1 0) = v := by
  have fits := v.toNat_lt
  have low : (UInt8.ofNat v.toNat).toNat = v.toNat % 256 := UInt8.toNat_ofNat'
  have high : (UInt8.ofNat (v.toNat / 256)).toNat = v.toNat / 256 :=
    UInt8.toNat_ofNat_of_lt' (Nat.div_lt_of_lt_mul fits)
  refine UInt16.toNat_inj.mp ?_
  cases order with
  | little =>
    rw [toNat_word_little]
    change 256 * (UInt8.ofNat (v.toNat / 256)).toNat + (UInt8.ofNat v.toNat).toNat = v.toNat
    omega
  | big =>
    rw [toNat_word_big]
    change 256 * (UInt8.ofNat (v.toNat / 256)).toNat + (UInt8.ofNat v.toNat).toNat = v.toNat
    omega

theorem toNat_swap (v : UInt16) : (swap v).toNat = 256 * (v.toNat % 256) + v.toNat / 256 := by
  have word := v.toNat_lt
  have fits : 256 * (v.toNat % 256) + v.toNat / 256 < 2 ^ 16 := by omega
  exact UInt16.toNat_ofNat_of_lt' fits

theorem swap_swap (v : UInt16) : swap (swap v) = v := by
  have fits := v.toNat_lt
  refine UInt16.toNat_inj.mp ?_
  rw [toNat_swap, toNat_swap]
  omega

@[simp] theorem ntohs_ntohs (order : ByteOrder) (v : UInt16) : order.ntohs (order.ntohs v) = v := by
  cases order with
  | little => exact swap_swap v
  | big => rfl

@[simp] theorem ntohs_htons (order : ByteOrder) (v : UInt16) : order.ntohs (order.htons v) = v :=
  order.ntohs_ntohs v

theorem ntohs_word (order : ByteOrder) (a b : UInt8) :
    order.ntohs (order.word a b) = big.word a b := by
  cases order with
  | little =>
    have high := b.toNat_lt
    have low := a.toNat_lt
    refine UInt16.toNat_inj.mp ?_
    rw [ntohs, toNat_swap, toNat_word_little, toNat_word_big]
    omega
  | big => rfl

theorem bytes_ntohs (order : ByteOrder) (v : UInt16) :
    big.bytes (order.ntohs v) = order.bytes v := by
  cases order with
  | little =>
    have byte : v.toNat / 256 < 256 := Nat.div_lt_of_lt_mul v.toNat_lt
    have high : UInt8.ofNat (swap v).toNat = UInt8.ofNat (v.toNat / 256) := by
      refine UInt8.toNat_inj.mp ?_
      rw [UInt8.toNat_ofNat', UInt8.toNat_ofNat', toNat_swap]
      omega
    have low : UInt8.ofNat ((swap v).toNat / 256) = UInt8.ofNat v.toNat := by
      refine UInt8.toNat_inj.mp ?_
      rw [UInt8.toNat_ofNat', UInt8.toNat_ofNat', toNat_swap, Nat.mul_add_div (by decide),
        Nat.div_eq_of_lt byte, Nat.add_zero, Nat.mod_mod]
    simp only [ntohs, bytes, high, low]
  | big => rfl

/-- The complement of a word may be taken in either order. -/
theorem toNat_ntohs_sub (order : ByteOrder) {v w : UInt16} (sum : v.toNat + w.toNat = 65535) :
    (order.ntohs v).toNat + (order.ntohs w).toNat = 65535 := by
  have fits := v.toNat_lt
  cases order with
  | little =>
    rw [ntohs, ntohs, toNat_swap, toNat_swap]
    omega
  | big => exact sum

theorem ntohs_eq_zero_iff (order : ByteOrder) (v : UInt16) :
    (order.ntohs v).toNat = 0 ↔ v.toNat = 0 := by
  have fits := v.toNat_lt
  cases order with
  | little =>
    rw [ntohs, toNat_swap]
    omega
  | big => rfl

/-- What the bytes of a word are worth in this order, modulo 65535. -/
def scale : ByteOrder → Nat
  | little => 256
  | big => 1

theorem ntohs_modEq (order : ByteOrder) (v : UInt16) :
    (order.ntohs v).toNat ≡ order.scale * v.toNat [MOD 65535] := by
  have fits := v.toNat_lt
  cases order with
  | little =>
    rw [ntohs, toNat_swap, scale, Nat.ModEq]
    omega
  | big =>
    rw [scale, Nat.one_mul]
    rfl

end ByteOrder
