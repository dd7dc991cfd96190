import Kvnet.Platform

/-!
# Loads and stores of user memory

What a load sees of a store: all of it, or none of it when the two do not
overlap. A range that is scattered over an array of iovecs is handled by the
list of its addresses.
-/

namespace Kvnet

@[simp] theorem leBytes_length (n v : Nat) : (leBytes n v).length = n := by
  induction n generalizing v with
  | zero => rfl
  | succ n ih => simp only [leBytes, List.length_cons, ih]

theorem leNat_leBytes (n v : Nat) : leNat (leBytes n v) = v % 256 ^ n := by
  induction n generalizing v with
  | zero => simp [leNat, leBytes, Nat.mod_one]
  | succ n ih =>
    have low : (UInt8.ofNat v).toNat = v % 256 := UInt8.toNat_ofNat'
    rw [leBytes, leNat, ih, low, Nat.pow_succ', Nat.mod_mul]

theorem leNat_concat (bytes : List UInt8) (b : UInt8) :
    leNat (bytes ++ [b]) = leNat bytes + 256 ^ bytes.length * b.toNat := by
  induction bytes with
  | nil => simp [leNat]
  | cons c bytes ih =>
    rw [List.cons_append, leNat, ih, leNat, List.length_cons, Nat.pow_succ']
    rw [Nat.mul_add, ← Nat.mul_assoc, Nat.add_assoc]

variable (user : UserMem)

theorem loadBytes_congr {user user' : UserMem} {a n : Nat}
    (same : ∀ x, a ≤ x → x < a + n → user' x = user x) :
    loadBytes user' a n = loadBytes user a n := by
  refine List.map_congr_left fun j hj => ?_
  have below := List.mem_range.mp hj
  exact same (a + j) (by omega) (by omega)

/-- A load of one byte more. -/
theorem loadBytes_concat (a n : Nat) :
    loadBytes user a (n + 1) = loadBytes user a n ++ [user (a + n)] := by
  rw [loadBytes, List.range_succ, List.map_append]
  rfl

theorem storeBytes_outside {a x : Nat} {bs : List UInt8} (outside : x < a ∨ a + bs.length ≤ x) :
    storeBytes user a bs x = user x := by
  have missed : ¬ (a ≤ x ∧ x < a + bs.length) := by omega
  rw [storeBytes, if_neg missed]

theorem loadBytes_storeBytes (a : Nat) (bs : List UInt8) :
    loadBytes (storeBytes user a bs) a bs.length = bs := by
  refine List.ext_getElem (loadBytes_length _ _ _) fun j _ below => ?_
  have inside : a ≤ a + j ∧ a + j < a + bs.length := by omega
  simp only [loadBytes, List.getElem_map, List.getElem_range, storeBytes, if_pos inside,
    Nat.add_sub_cancel_left, List.getD_eq_getElem?_getD, List.getElem?_eq_getElem below,
    Option.getD_some]

theorem loadU32_congr {user user' : UserMem} {a : Nat}
    (same : ∀ x, a ≤ x → x < a + 4 → user' x = user x) : loadU32 user' a = loadU32 user a := by
  rw [loadU32, loadBytes_congr same, loadU32]

theorem storeU32_outside {a x : Nat} {v : UInt32} (outside : x < a ∨ a + 4 ≤ x) :
    storeU32 user a v x = user x :=
  storeBytes_outside user (by rwa [leBytes_length])

theorem loadU32_storeU32 (a : Nat) (v : UInt32) : loadU32 (storeU32 user a v) a = v := by
  have stored := loadBytes_storeBytes user a (leBytes 4 v.toNat)
  have word : v.toNat < 256 ^ 4 := v.toNat_lt
  rw [leBytes_length] at stored
  rw [loadU32, storeU32, stored, leNat_leBytes, Nat.mod_eq_of_lt word, UInt32.ofNat_toNat]

/-- The addresses of the first n bytes behind an array of iovecs. -/
def iovAddrs : List Iovec → Nat → List Addr
  | [], _ => []
  | v :: iv, n => (List.range (min v.len n)).map (v.base + ·) ++ iovAddrs iv (n - v.len)

theorem iovAddrs_length (iv : List Iovec) (n : Nat) :
    (iovAddrs iv n).length = min n (iv.map Iovec.len).sum := by
  induction iv generalizing n with
  | nil => simp [iovAddrs]
  | cons v iv ih =>
    simp only [iovAddrs, List.length_append, List.length_map, List.length_range, ih,
      List.map_cons, List.sum_cons]
    omega

theorem iovAddrs_mono (iv : List Iovec) {m n : Nat} (shorter : m ≤ n) :
    iovAddrs iv m <+: iovAddrs iv n := by
  induction iv generalizing m n with
  | nil => exact List.prefix_refl _
  | cons v iv ih =>
    by_cases first : m ≤ v.len
    · have none_later : iovAddrs iv (m - v.len) = [] := by
        rw [Nat.sub_eq_zero_of_le first, ← List.length_eq_zero_iff, iovAddrs_length, Nat.zero_min]
      rw [iovAddrs, iovAddrs, none_later, List.append_nil]
      refine List.IsPrefix.trans (List.IsPrefix.map _ ?_) (List.prefix_append _ _)
      have shorter_range : List.range (min v.len m) = (List.range (min v.len n)).take m := by
        rw [List.take_range]
        congr 1
        omega
      exact shorter_range ▸ List.take_prefix _ _
    · rw [iovAddrs, iovAddrs, Nat.min_eq_left (by omega), Nat.min_eq_left (by omega)]
      exact (List.prefix_append_right_inj _).mpr (ih (by omega))

theorem gather_eq_map (iv : List Iovec) (n : Nat) :
    gather user iv n = (iovAddrs iv n).map user := by
  induction iv generalizing n with
  | nil => rfl
  | cons v iv ih =>
    rw [gather, ih, iovAddrs, List.map_append, List.map_map]
    rfl

theorem gather_length (iv : List Iovec) (n : Nat) :
    (gather user iv n).length = min n (iv.map Iovec.len).sum := by
  rw [gather_eq_map, List.length_map, iovAddrs_length]

theorem gather_shorter (iv : List Iovec) {m n : Nat} (shorter : m ≤ n) :
    gather user iv m <+: gather user iv n := by
  rw [gather_eq_map, gather_eq_map]
  exact (iovAddrs_mono iv shorter).map user

theorem scatter_outside (iv : List Iovec) (bs : List UInt8) {x : Nat}
    (outside : x ∉ iovAddrs iv bs.length) : scatter user iv bs x = user x := by
  induction iv generalizing user bs with
  | nil => rfl
  | cons v iv ih =>
    rw [iovAddrs, List.mem_append, not_or] at outside
    obtain ⟨first, later⟩ := outside
    rw [scatter, ih _ _ (by rwa [List.length_drop])]
    refine storeBytes_outside user ?_
    rw [List.length_take]
    by_contra inside
    exact first (List.mem_map.mpr ⟨x - v.base, List.mem_range.mpr (by omega), by omega⟩)

/-- What is laid out over distinct addresses is found there. -/
theorem gather_scatter (iv : List Iovec) (bs : List UInt8)
    (room : bs.length ≤ (iv.map Iovec.len).sum) (distinct : (iovAddrs iv bs.length).Nodup) :
    gather (scatter user iv bs) iv bs.length = bs := by
  induction iv generalizing user bs with
  | nil =>
    have empty : bs = [] := List.length_eq_zero_iff.mp (Nat.le_zero.mp (by simpa using room))
    rw [empty]
    rfl
  | cons v iv ih =>
    rw [iovAddrs, List.nodup_append] at distinct
    obtain ⟨_, later, apart⟩ := distinct
    rw [List.map_cons, List.sum_cons] at room
    generalize stored : storeBytes user v.base (bs.take v.len) = mid
    have rest := ih mid (bs.drop v.len) (by rw [List.length_drop]; omega)
      (by rwa [List.length_drop])
    rw [List.length_drop] at rest
    have kept : loadBytes (scatter mid iv (bs.drop v.len)) v.base (min v.len bs.length) =
        loadBytes mid v.base (min v.len bs.length) := by
      refine loadBytes_congr fun x above below => ?_
      refine scatter_outside mid iv (bs.drop v.len) fun again => ?_
      rw [List.length_drop] at again
      exact apart x (List.mem_map.mpr ⟨x - v.base, List.mem_range.mpr (by omega),
        Nat.add_sub_of_le above⟩) x again rfl
    have first : loadBytes mid v.base (min v.len bs.length) = bs.take v.len := by
      rw [← stored, ← List.length_take, loadBytes_storeBytes]
    rw [gather, scatter, stored, kept, first, rest, List.take_append_drop]

theorem scatter_leBytes_outside (iv : List Iovec) (n v : Nat) {x : Nat}
    (outside : x ∉ iovAddrs iv n) : scatter user iv (leBytes n v) x = user x :=
  scatter_outside user iv (leBytes n v) (by rwa [leBytes_length])

theorem gather_leBytes (iv : List Iovec) (n v : Nat) (room : n ≤ (iv.map Iovec.len).sum)
    (distinct : (iovAddrs iv n).Nodup) :
    gather (scatter user iv (leBytes n v)) iv n = leBytes n v := by
  have back := gather_scatter user iv (leBytes n v) (by rwa [leBytes_length])
    (by rwa [leBytes_length])
  rwa [leBytes_length] at back

end Kvnet
