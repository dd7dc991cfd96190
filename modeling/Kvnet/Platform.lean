import Kvnet.SkBuff

/-!
# Word sizes, error codes and user memory

The driver is built for 64-bit and for 32-bit kernels; what differs is the size
of a pointer and the width of size_t. Conversions between the C integer types
that can change a value are written out, the others are not. User memory is a
byte image; an access that faults is decided by the caller of these functions,
never by the image.
-/

namespace Kvnet

structure Arch where
  ptrSize : Nat
  wordBits : Nat
  wide : 32 ≤ wordBits

def lp64 : Arch := ⟨8, 64, by decide⟩

def ilp32 : Arch := ⟨4, 32, by decide⟩

namespace Arch

/-- Conversion to size_t. -/
def toSizeT (arch : Arch) (x : Int) : Nat := (x % 2 ^ arch.wordBits).toNat

/-- Conversion to ssize_t. -/
def toSsizeT (arch : Arch) (x : Int) : Int :=
  (x + 2 ^ (arch.wordBits - 1)) % 2 ^ arch.wordBits - 2 ^ (arch.wordBits - 1)

/-- sizeof(struct kvnet_header), packed: a 32-bit count and one pointer. -/
def sizeofHeader (arch : Arch) : Nat := 4 + arch.ptrSize

theorem toSsizeT_add (arch : Arch) (x y : Int) :
    arch.toSsizeT (arch.toSsizeT x + y) = arch.toSsizeT (x + y) := by
  have shift (z h : Int) : z - h + y + h = z + y := by omega
  simp only [toSsizeT, shift, Int.emod_add_emod]
  rw [Int.add_right_comm]

theorem toSsizeT_succ (arch : Arch) (x : Int) :
    arch.toSsizeT (arch.toSsizeT x + 1) = arch.toSsizeT (x + 1) :=
  arch.toSsizeT_add x 1

theorem two_pow_wordBits (arch : Arch) :
    (2 : Int) ^ arch.wordBits = 2 * 2 ^ (arch.wordBits - 1) ∧
      (2 : Int) ^ 31 ≤ 2 ^ (arch.wordBits - 1) := by
  have wide := arch.wide
  constructor
  · rw [← Int.pow_succ']
    congr 1
    omega
  · exact_mod_cast Nat.pow_le_pow_right (by decide : 0 < 2) (by omega : 31 ≤ arch.wordBits - 1)

theorem toSsizeT_of_lt (arch : Arch) {x : Int} (nonneg : 0 ≤ x)
    (fits : x < 2 ^ (arch.wordBits - 1)) : arch.toSsizeT x = x := by
  obtain ⟨double, _⟩ := arch.two_pow_wordBits
  rw [toSsizeT, Int.emod_eq_of_lt (by omega) (by omega)]
  omega

/-- An ssize_t is negative exactly when the value lies in the upper half of size_t. -/
theorem toSsizeT_natCast (arch : Arch) (n : Nat) :
    arch.toSsizeT n = (n % 2 ^ arch.wordBits : Nat) ∧
        n % 2 ^ arch.wordBits < 2 ^ (arch.wordBits - 1) ∨
      arch.toSsizeT n < 0 ∧ 2 ^ (arch.wordBits - 1) ≤ n % 2 ^ arch.wordBits := by
  obtain ⟨double, _⟩ := arch.two_pow_wordBits
  have residue : arch.toSsizeT n = arch.toSsizeT (n % 2 ^ arch.wordBits : Nat) := by
    rw [toSsizeT, toSsizeT]
    push_cast
    rw [Int.emod_add_emod]
  have bound : n % 2 ^ arch.wordBits < 2 ^ arch.wordBits := Nat.mod_lt _ (Nat.two_pow_pos _)
  rw [residue]
  generalize n % 2 ^ arch.wordBits = r at bound ⊢
  have bound' : (r : Int) < 2 ^ arch.wordBits := by exact_mod_cast bound
  by_cases low : r < 2 ^ (arch.wordBits - 1)
  · exact Or.inl ⟨arch.toSsizeT_of_lt (Int.natCast_nonneg r) (by exact_mod_cast low), low⟩
  · have high : (2 : Int) ^ (arch.wordBits - 1) ≤ r := by exact_mod_cast Nat.le_of_not_lt low
    have wraps : (r : Int) + 2 ^ (arch.wordBits - 1) =
        r - 2 ^ (arch.wordBits - 1) + 2 ^ arch.wordBits := by omega
    refine Or.inr ⟨?_, Nat.le_of_not_lt low⟩
    rw [toSsizeT, wraps, Int.add_emod_right, Int.emod_eq_of_lt (by omega) (by omega)]
    omega

theorem toSizeT_of_lt (arch : Arch) {x : Int} (nonneg : 0 ≤ x) (fits : x < 2 ^ arch.wordBits) :
    arch.toSizeT x = x.toNat := by
  rw [toSizeT, Int.emod_eq_of_lt nonneg fits]

theorem toSizeT_natCast (arch : Arch) (n : Nat) : arch.toSizeT n = n % 2 ^ arch.wordBits := by
  rw [toSizeT]
  exact_mod_cast Int.toNat_natCast (n % 2 ^ arch.wordBits)

/-- A length below 2^31 is the same number as a size_t. -/
theorem toSizeT_of_lt_two_pow_31 (arch : Arch) {x : Int} (nonneg : 0 ≤ x) (fits : x < 2 ^ 31) :
    arch.toSizeT x = x.toNat := by
  obtain ⟨double, half⟩ := arch.two_pow_wordBits
  exact arch.toSizeT_of_lt nonneg (by omega)

theorem toSizeT_natCast_of_lt (arch : Arch) {n : Nat} (fits : n < 2 ^ 31) :
    arch.toSizeT n = n := by
  rw [arch.toSizeT_of_lt_two_pow_31 (Int.natCast_nonneg n) (by omega), Int.toNat_natCast]

theorem toSsizeT_zero (arch : Arch) : arch.toSsizeT 0 = 0 := by
  obtain ⟨_, half⟩ := arch.two_pow_wordBits
  exact arch.toSsizeT_of_lt (by omega) (by omega)

/-- As an ssize_t a 32-bit count is either itself or negative. -/
theorem toSsizeT_count (arch : Arch) {k : Nat} (fits : k < 2 ^ 32) :
    arch.toSsizeT k = k ∨ arch.toSsizeT k < 0 := by
  have word : k < 2 ^ arch.wordBits :=
    Nat.lt_of_lt_of_le fits (Nat.pow_le_pow_right (by decide) arch.wide)
  rcases arch.toSsizeT_natCast k with ⟨kept, _⟩ | ⟨negative, _⟩
  · exact Or.inl (by rw [kept, Nat.mod_eq_of_lt word])
  · exact Or.inr negative

end Arch

/-- Conversion to int. -/
def toCInt (x : Int) : Int := (x + 2 ^ 31) % 2 ^ 32 - 2 ^ 31

theorem toCInt_bounds (x : Int) : -2 ^ 31 ≤ toCInt x ∧ toCInt x < 2 ^ 31 := by
  simp only [toCInt]
  omega

theorem toCInt_of_lt {x : Int} (nonneg : 0 ≤ x) (fits : x < 2 ^ 31) : toCInt x = x := by
  simp only [toCInt]
  omega

def EAGAIN : Int := 11
def ENOMEM : Int := 12
def EACCES : Int := 13
def EFAULT : Int := 14
def EINVAL : Int := 22

abbrev UserMem := Addr → UInt8

/-- Little-endian value of a byte string. -/
def leNat : List UInt8 → Nat
  | [] => 0
  | b :: bs => b.toNat + 256 * leNat bs

/-- The n low bytes of a value, little-endian. -/
def leBytes : Nat → Nat → List UInt8
  | 0, _ => []
  | n + 1, v => UInt8.ofNat v :: leBytes n (v / 256)

def loadBytes (user : UserMem) (a n : Nat) : List UInt8 := (List.range n).map fun j => user (a + j)

@[simp] theorem loadBytes_length (user : UserMem) (a n : Nat) :
    (loadBytes user a n).length = n := by
  simp [loadBytes]

def storeBytes (user : UserMem) (a : Addr) (bs : List UInt8) : UserMem :=
  fun x => if a ≤ x ∧ x < a + bs.length then bs.getD (x - a) 0 else user x

def loadU32 (user : UserMem) (a : Addr) : UInt32 := UInt32.ofNat (leNat (loadBytes user a 4))

def storeU32 (user : UserMem) (a : Addr) (v : UInt32) : UserMem :=
  storeBytes user a (leBytes 4 v.toNat)

structure Iovec where
  base : Addr
  len : Nat
  deriving DecidableEq

/-- The first n bytes behind an array of iovecs. -/
def gather (user : UserMem) : List Iovec → Nat → List UInt8
  | [], _ => []
  | v :: iv, n => loadBytes user v.base (min v.len n) ++ gather user iv (n - v.len)

/-- Bytes laid out over an array of iovecs. -/
def scatter (user : UserMem) : List Iovec → List UInt8 → UserMem
  | [], _ => user
  | v :: iv, bs => scatter (storeBytes user v.base (bs.take v.len)) iv (bs.drop v.len)

end Kvnet
