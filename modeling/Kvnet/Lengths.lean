import Kvnet.IoDev

/-!
# Lengths

A request is measured several times on its way: its iovecs are summed up, the
sum is compared with the header, and narrowed to an int for the allocation and
the copy; the header's count bounds its slots; a packet's length sizes the
buffer it is copied into. Each of the three arithmetics can wrap, and it is said
exactly when it does not.
-/

namespace Kvnet

/-- The number of bytes behind an array of iovecs. -/
def iovBytes (iv : List Iovec) : Nat := (iv.map Iovec.len).sum

/-- The lengths a request is handled with once its aio call has accepted it:
the size_t compared with the header, the size_t given to kmalloc, and the int
memcpy_fromiovecend is called with. -/
structure RequestLengths where
  checked : Nat
  allocated : Nat
  copied : Int
  deriving DecidableEq

def requestLengths (arch : Arch) (iv : List Iovec) : Option RequestLengths :=
  let len := ioDevIovTotal arch iv
  if len < 0 then none
  else some ⟨arch.toSizeT len, arch.toSizeT (toCInt len), toCInt len⟩

/-- The header as it is fetched with these lengths. -/
def fetchMeasured (arch : Arch) (user : UserMem) (iv : List Iovec) (l : RequestLengths)
    (env : HeaderEnv) : Except Int KvnetHeader :=
  if l.checked < arch.sizeofHeader then .error (-EINVAL)
  else if (env.memory && decide (l.allocated < 2 ^ (arch.wordBits - 1))) = false then
    .error (-ENOMEM)
  else if env.fault then .error (-EFAULT)
  else
    let hdr := headerAt arch (gather user iv l.copied.toNat) env.around
    if hdr.count = 0 then .error (-EINVAL)
    else if l.checked < headerLen arch hdr.count then .error (-EINVAL)
    else .ok hdr

/-- The sum is right modulo the word size, whatever wraps on the way. -/
theorem ioDevIovTotal_eq (arch : Arch) (iv : List Iovec) :
    ioDevIovTotal arch iv = arch.toSsizeT (iovBytes iv) := by
  have sum (start : Int) : iv.foldl (fun len v => arch.toSsizeT (len + v.len))
      (arch.toSsizeT start) = arch.toSsizeT (start + iovBytes iv) := by
    induction iv generalizing start with
    | nil => simp [iovBytes]
    | cons v iv ih =>
      rw [List.foldl_cons, arch.toSsizeT_add, ih]
      simp only [iovBytes, List.map_cons, List.sum_cons, Nat.cast_add, Int.add_assoc]
  have whole := sum 0
  rwa [arch.toSsizeT_zero, Int.zero_add] at whole

theorem ioDevIovTotal_single (arch : Arch) (hdr : Addr) (len : UInt32) :
    ioDevIovTotal arch [⟨hdr, len.toNat⟩] = arch.toSsizeT len.toNat := by
  rw [ioDevIovTotal_eq]
  rfl

/-- A negative int is a size no kmalloc serves, and any other int is kept. -/
theorem allocPagedMem_eq (arch : Arch) (x : Int) (memory : Bool) :
    allocPagedMem (toCInt x) memory =
      (memory && decide (arch.toSizeT (toCInt x) < 2 ^ (arch.wordBits - 1))) := by
  obtain ⟨double, half⟩ := arch.two_pow_wordBits
  obtain ⟨low, high⟩ := toCInt_bounds x
  generalize toCInt x = size at low high
  have same : 0 ≤ size ↔ arch.toSizeT size < 2 ^ (arch.wordBits - 1) := by
    have cast : ((2 ^ (arch.wordBits - 1) : Nat) : Int) = 2 ^ (arch.wordBits - 1) := by
      push_cast
      rfl
    constructor
    · intro nonneg
      rw [arch.toSizeT_of_lt nonneg (by omega)]
      omega
    · intro served
      by_contra negative
      rw [Arch.toSizeT, ← Int.add_emod_right, Int.emod_eq_of_lt (by omega) (by omega)] at served
      omega
  rw [allocPagedMem, decide_eq_decide.mpr same]

/-- The driver handles an accepted request with these lengths and no others. -/
theorem fetchHeader_measured {arch : Arch} {iv : List Iovec} {l : RequestLengths}
    (accepted : requestLengths arch iv = some l) (user : UserMem) (env : HeaderEnv) :
    fetchHeader arch user iv (ioDevIovTotal arch iv) env = fetchMeasured arch user iv l env := by
  by_cases negative : ioDevIovTotal arch iv < 0
  · simp only [requestLengths, if_pos negative, reduceCtorEq] at accepted
  · simp only [requestLengths, if_neg negative, Option.some.injEq] at accepted
    subst accepted
    simp only [fetchHeader, fetchMeasured, ← allocPagedMem_eq]

/-- And it turns any other request away. -/
theorem aio_rejects {arch : Arch} {iv : List Iovec} (refused : requestLengths arch iv = none)
    (w : World) (nonblock : Bool) (read : ReadEnv) (write : WriteEnv) :
    ioDevAioRead arch w iv nonblock read = ⟨w, -EINVAL, none⟩ ∧
      ioDevAioWrite arch w iv nonblock write = ⟨w, -EINVAL, none⟩ := by
  have negative : ioDevIovTotal arch iv < 0 := by
    by_contra total
    simp only [requestLengths, if_neg total, reduceCtorEq] at refused
  simp only [ioDevAioRead, ioDevAioWrite, if_pos negative, ite_self, and_self]

/-- All lengths of the request are the number of bytes behind its iovecs. -/
structure RequestLengths.Exact (l : RequestLengths) (iv : List Iovec) : Prop where
  checked : l.checked = iovBytes iv
  allocated : l.allocated = iovBytes iv
  copied : l.copied = iovBytes iv

/-- An accepted request is measured alike everywhere exactly when its iovecs
hold less than 2^31 bytes; a longer one must be turned away by its sign. -/
theorem request_lengths_exact_iff (arch : Arch) (iv : List Iovec) :
    (∀ l, requestLengths arch iv = some l → l.Exact iv) ↔
      iovBytes iv < 2 ^ 31 ∨ 2 ^ (arch.wordBits - 1) ≤ iovBytes iv % 2 ^ arch.wordBits := by
  rcases arch.toSsizeT_natCast (iovBytes iv) with ⟨kept, low⟩ | ⟨negative, high⟩
  · have accepted : requestLengths arch iv = some
        ⟨arch.toSizeT (ioDevIovTotal arch iv), arch.toSizeT (toCInt (ioDevIovTotal arch iv)),
          toCInt (ioDevIovTotal arch iv)⟩ := by
      have total : ¬ ioDevIovTotal arch iv < 0 := by rw [ioDevIovTotal_eq, kept]; omega
      simp only [requestLengths, if_neg total]
    simp only [accepted, Option.some.injEq, forall_eq', Nat.not_le.mpr low, or_false]
    constructor
    · intro exact
      obtain ⟨_, high⟩ := toCInt_bounds (ioDevIovTotal arch iv)
      have copied := exact.copied
      simp only at copied
      omega
    · intro short
      have word : (2 : Nat) ^ 31 ≤ 2 ^ arch.wordBits :=
        Nat.pow_le_pow_right (by decide) (by have := arch.wide; omega)
      have total : ioDevIovTotal arch iv = iovBytes iv := by
        rw [ioDevIovTotal_eq, kept, Nat.mod_eq_of_lt (by omega)]
      have narrow : toCInt (iovBytes iv) = iovBytes iv :=
        toCInt_of_lt (Int.natCast_nonneg _) (by omega)
      have wide : arch.toSizeT (iovBytes iv) = iovBytes iv := arch.toSizeT_natCast_of_lt (by omega)
      constructor
      · simp only [total, wide]
      · simp only [total, narrow, wide]
      · simp only [total, narrow]
  · have refused : requestLengths arch iv = none := by
      simp only [requestLengths, ioDevIovTotal_eq, if_pos negative]
    refine iff_of_true (fun l accepted => ?_) (Or.inr high)
    rw [refused] at accepted
    cases accepted

/-- One iovec of 2^32 + 12 bytes passes as that many, with room for 12. -/
theorem wide_request_narrows :
    ¬ ∀ l, requestLengths lp64 [⟨4096, 2 ^ 32 + 12⟩] = some l → l.Exact [⟨4096, 2 ^ 32 + 12⟩] := by
  intro exact
  have measured : requestLengths lp64 [⟨4096, 2 ^ 32 + 12⟩] = some ⟨2 ^ 32 + 12, 12, 12⟩ := by
    decide +kernel
  have allocated := (exact _ measured).allocated
  exact absurd allocated (by decide +kernel)

/-- The slot hdr->pkt[i], bytes 4 + i * P to 4 + (i + 1) * P - 1, lies inside a
header buffer of len bytes. -/
def SlotInside (arch : Arch) (len : Int) (i : Nat) : Prop :=
  ((4 + (i + 1) * arch.ptrSize : Nat) : Int) ≤ len

instance (arch : Arch) (len : Int) (i : Nat) : Decidable (SlotInside arch len i) :=
  inferInstanceAs (Decidable (_ ≤ _))

/-- sizeof(struct kvnet_header) + (count - 1) * sizeof(KVNET_PTR), unwrapped. -/
def exactHeaderLen (arch : Arch) (count : Nat) : Nat := 4 + count * arch.ptrSize

/-- The check computes the length of the header modulo the word size. -/
theorem headerLen_eq (arch : Arch) {count : UInt32} (nonzero : count ≠ 0) :
    headerLen arch count = exactHeaderLen arch count.toNat % 2 ^ arch.wordBits := by
  have positive := count_pos nonzero
  have less : (count - 1).toNat = count.toNat - 1 := by
    have one_le : 1 ≤ count := UInt32.le_iff_toNat_le.mpr (Nat.succ_le_of_lt positive)
    rw [UInt32.toNat_sub_of_le _ _ one_le]
    rfl
  have whole : arch.sizeofHeader + (count - 1).toNat * arch.ptrSize =
      exactHeaderLen arch count.toNat := by
    obtain ⟨k, hk⟩ : ∃ k, count.toNat = k + 1 := ⟨count.toNat - 1, by omega⟩
    rw [less, hk, Arch.sizeofHeader, exactHeaderLen, Nat.add_sub_cancel, Nat.succ_mul]
    omega
  rw [headerLen, ← arch.toSizeT_natCast, ← whole]
  push_cast
  rfl

/-- A header that was accepted for a length below 2^31 has its slots inside
exactly when their exact length is a size_t. -/
theorem slots_inside_iff {arch : Arch} {user : UserMem} {iv : List Iovec} {len : Int}
    {env : HeaderEnv} {hdr : KvnetHeader} (accepted : fetchHeader arch user iv len env = .ok hdr)
    (nonneg : 0 ≤ len) (fits : len < 2 ^ 31) :
    (∀ i, i < hdr.count.toNat → SlotInside arch len i) ↔
      exactHeaderLen arch hdr.count.toNat < 2 ^ arch.wordBits := by
  obtain ⟨nonzero, checked⟩ := fetchHeader_ok accepted
  have positive := count_pos nonzero
  have word : (2 : Nat) ^ 31 ≤ 2 ^ arch.wordBits :=
    Nat.pow_le_pow_right (by decide) (by have := arch.wide; omega)
  rw [headerLen_eq arch nonzero, arch.toSizeT_of_lt_two_pow_31 nonneg fits] at checked
  constructor
  · intro inside
    have last := inside (hdr.count.toNat - 1) (by omega)
    rw [SlotInside, Nat.sub_add_cancel positive] at last
    rw [exactHeaderLen]
    omega
  · intro exact i below
    rw [Nat.mod_eq_of_lt exact, exactHeaderLen] at checked
    have upTo : (i + 1) * arch.ptrSize ≤ hdr.count.toNat * arch.ptrSize :=
      Nat.mul_le_mul_right arch.ptrSize below
    rw [SlotInside]
    omega

/-- However a read ends, its `ret` is an error or a count of at most n packets. -/
theorem ioReadLoop_ret (arch : Arch) (hdr : KvnetHeader) (fault : Nat → Option FillFault)
    (n i : Nat) (w : World) (some_packet : 0 < i + n) :
    (ioReadLoop arch hdr fault n i w (arch.toSsizeT i)).2 < 0 ∨
      ∃ k, 0 < k ∧ k ≤ i + n ∧
        (ioReadLoop arch hdr fault n i w (arch.toSsizeT i)).2 = arch.toSsizeT k := by
  induction n generalizing i w with
  | zero => exact Or.inr ⟨i, by omega, by omega, rfl⟩
  | succ n ih =>
    have next : arch.toSsizeT (arch.toSsizeT i + 1) = arch.toSsizeT (i + 1 : Nat) := by
      rw [arch.toSsizeT_succ, Int.natCast_succ]
    rw [ioReadLoop, next]
    by_cases empty : w.queueRemove.1 = NULL
    · simp only [if_pos empty, readEmpty]
      by_cases start : i = 0
      · subst start
        exact Or.inl (by simp [arch.toSsizeT_zero, EAGAIN])
      · by_cases zero : arch.toSsizeT i = 0
        · exact Or.inl (by simp [zero, EAGAIN])
        · exact Or.inr ⟨i, by omega, by omega, by rw [if_neg zero]⟩
    · simp only [if_neg empty]
      split
      · exact Or.inl (by simp [EFAULT])
      · rw [show i + (n + 1) = i + 1 + n by omega]
        exact ih (i + 1) _ (by omega)

/-- And so is that of a write. -/
theorem ioWriteLoop_ret (arch : Arch) (hdr : KvnetHeader) (env : WriteEnv) (n i : Nat) (w : World)
    (some_packet : 0 < i + n) :
    (ioWriteLoop arch hdr env n i w (arch.toSsizeT i)).2 < 0 ∨
      ∃ k, 0 < k ∧ k ≤ i + n ∧
        (ioWriteLoop arch hdr env n i w (arch.toSsizeT i)).2 = arch.toSsizeT k := by
  induction n generalizing i w with
  | zero => exact Or.inr ⟨i, by omega, by omega, rfl⟩
  | succ n ih =>
    cases struck : env.fault i with
    | some f =>
      rw [ioWriteLoop_fails arch hdr env n _ struck]
      exact Or.inl f.error_neg
    | none =>
      have next : arch.toSsizeT (arch.toSsizeT i + 1) = arch.toSsizeT (i + 1 : Nat) := by
        rw [arch.toSsizeT_succ, Int.natCast_succ]
      rw [ioWriteLoop_next arch hdr env n _ struck, next, show i + (n + 1) = i + 1 + n by omega]
      exact ih (i + 1) _ (by omega)

/-- The length returned with a count is that of a header with so many slots. -/
theorem reportCount_length {arch : Arch} {k : Nat} (positive : 0 < k) (word : k < 2 ^ 32)
    (kept : arch.toSsizeT k = k) (fits : exactHeaderLen arch k < 2 ^ 31) (w : World)
    (iv : List Iovec) :
    (reportCount arch w iv (arch.toSsizeT k) none).ret = exactHeaderLen arch k := by
  have half := arch.two_pow_wordBits.2
  have exact : (arch.sizeofHeader + ((k - 1) * arch.ptrSize : Nat) : Int) =
      exactHeaderLen arch k := by
    obtain ⟨j, rfl⟩ : ∃ j, k = j + 1 := ⟨k - 1, by omega⟩
    rw [Arch.sizeofHeader, exactHeaderLen, Nat.add_sub_cancel, Nat.succ_mul]
    omega
  rw [kept, reportCount_written arch w iv positive word, exact,
    arch.toSizeT_natCast_of_lt (by omega),
    arch.toSsizeT_of_lt (Int.natCast_nonneg _) (by omega)]

/-- For at most `count` packets it is no longer than a header of `count` slots. -/
theorem reportCount_ret_le {arch : Arch} {len ret : Int} {count : Nat}
    (counted : ret < 0 ∨ ∃ k, 0 < k ∧ k ≤ count ∧ ret = arch.toSsizeT k) (word : count < 2 ^ 32)
    (nonneg : 0 ≤ len) (fits : len < 2 ^ 31) (inside : (exactHeaderLen arch count : Int) ≤ len)
    (w : World) (iv : List Iovec) (fault : Option Nat) :
    (reportCount arch w iv ret fault).ret ≤ len := by
  have error {e : Int} (negative : e < 0) : (reportCount arch w iv e fault).ret ≤ len := by
    rw [reportCount_error arch w iv fault negative]
    exact Int.le_of_lt (Int.lt_of_lt_of_le negative nonneg)
  rcases counted with negative | ⟨k, positive, upTo, rfl⟩
  · exact error negative
  rcases arch.toSsizeT_count (show k < 2 ^ 32 by omega) with kept | negative
  · cases fault with
    | some written =>
      rw [kept, reportCount, if_pos (Int.natCast_nonneg k)]
      exact Int.le_trans (show -EFAULT ≤ 0 by decide) nonneg
    | none =>
      have smaller : exactHeaderLen arch k ≤ exactHeaderLen arch count :=
        Nat.add_le_add_left (Nat.mul_le_mul_right _ upTo) 4
      rw [reportCount_length positive (by omega) kept (by omega)]
      omega
  · exact error negative

/-- What the length check of an accepted header is for: each of its slots lies
inside the buffer, and no call returns a length beyond it. -/
structure HeaderSound (arch : Arch) (w : World) (iv : List Iovec) (len : Int) (env : HeaderEnv)
    (count : Nat) : Prop where
  slots : ∀ i, i < count → SlotInside arch len i
  read : ∀ fault toIovec, (ioReadToIovec arch w iv len ⟨env, fault, toIovec⟩).ret ≤ len
  write : ∀ fault junk toIovec,
    (ioWriteFromIovec arch w iv len ⟨env, fault, junk, toIovec⟩).ret ≤ len

/-- The length check is sound exactly when the length it computes does not wrap. -/
theorem header_sound_iff (arch : Arch) (w : World) (iv : List Iovec) (len : Int) (env : HeaderEnv)
    (hdr : KvnetHeader) (accepted : fetchHeader arch w.user iv len env = .ok hdr)
    (nonneg : 0 ≤ len) (fits : len < 2 ^ 31) :
    HeaderSound arch w iv len env hdr.count.toNat ↔
      exactHeaderLen arch hdr.count.toNat < 2 ^ arch.wordBits := by
  have positive := count_pos (fetchHeader_ok accepted).1
  have word : hdr.count.toNat < 2 ^ 32 := hdr.count.toNat_lt
  have slots := slots_inside_iff accepted nonneg fits
  constructor
  · exact fun sound => slots.mp sound.slots
  · intro exact
    have inside : (exactHeaderLen arch hdr.count.toNat : Int) ≤ len := by
      have last := slots.mpr exact (hdr.count.toNat - 1) (by omega)
      rwa [SlotInside, Nat.sub_add_cancel positive] at last
    refine ⟨slots.mpr exact, fun fault toIovec => ?_, fun fault junk toIovec => ?_⟩
    · have counted := ioReadLoop_ret arch hdr fault hdr.count.toNat 0 w (by omega)
      rw [Int.natCast_zero, arch.toSsizeT_zero, Nat.zero_add] at counted
      rw [ioReadToIovec_accepted accepted]
      exact reportCount_ret_le counted word nonneg fits inside _ iv toIovec
    · have counted :=
        ioWriteLoop_ret arch hdr ⟨env, fault, junk, toIovec⟩ hdr.count.toNat 0 w (by omega)
      rw [Int.natCast_zero, arch.toSsizeT_zero, Nat.zero_add] at counted
      rw [ioWriteFromIovec_accepted accepted]
      exact reportCount_ret_le counted word nonneg fits inside _ iv toIovec

theorem header_sound_pair :
    HeaderSound lp64 pairWorld [⟨4096, 20⟩] 20 ⟨true, false, fun _ => 0⟩ 2 :=
  (header_sound_iff lp64 pairWorld [⟨4096, 20⟩] 20 ⟨true, false, fun _ => 0⟩ _ rfl (by decide)
    (by decide)).mpr (by decide +kernel)

/-- A 64-bit kernel never wraps it. -/
theorem lp64_exactHeaderLen (count : UInt32) :
    exactHeaderLen lp64 count.toNat < 2 ^ lp64.wordBits := by
  have word : count.toNat < 2 ^ 32 := count.toNat_lt
  simp only [exactHeaderLen, lp64]
  omega

/-- Eight bytes at 4096 that name 2^30 + 1 packets to a 32-bit kernel. -/
def wrappedWorld : World :=
  { pairWorld with user := storeBytes (fun _ => 0) 4096 (leBytes 4 (2 ^ 30 + 1) ++ leBytes 4 8192) }

/-- The slots wrap to no length at all, and the second one lies behind the buffer. -/
theorem wrapped_header_unsound :
    ¬ ∀ hdr, fetchHeader ilp32 wrappedWorld.user [⟨4096, 8⟩] 8 ⟨true, false, fun _ => 0⟩ = .ok hdr →
      HeaderSound ilp32 wrappedWorld [⟨4096, 8⟩] 8 ⟨true, false, fun _ => 0⟩ hdr.count.toNat := by
  intro sound
  have second := (sound _ rfl).slots 1 (by decide +kernel)
  exact absurd second (by decide)

/-- The buffer of the user packet at `pkt` once skb_put and copy_from_user are
done with it. -/
def filledSkb (user : UserMem) (pkt : Addr) : RxSkb :=
  let dataLen := loadU32 user pkt
  { devAllocSkb (dataLen + NET_IP_ALIGN) NET_IP_ALIGN with
    data := loadBytes user (pkt + 4) dataLen.toNat }

/-- It is what goes to eth_type_trans. -/
theorem writeFrame_filled (user : UserMem) (pkt : Addr) (junk : Nat → UInt8) :
    writeFrame user pkt junk = ethTypeTrans (filledSkb user pkt) junk := rfl

/-- The reserved bytes and those put and copied fit the room that was allocated. -/
def RxSkb.Fits (skb : RxSkb) : Prop := skb.headroom + skb.data.length ≤ skb.room.toNat

/-- The loop gets as far as copying packet i, which need not succeed. -/
structure Copies (hdr : KvnetHeader) (env : WriteEnv) (i : Nat) : Prop where
  named : i < hdr.count.toNat
  before : ∀ j, j < i → env.fault j = none
  measured : env.fault i ≠ some .getUser
  allocated : env.fault i ≠ some .devAllocSkb

theorem filledSkb_fits_iff (user : UserMem) (pkt : Addr) :
    (filledSkb user pkt).Fits ↔ (loadU32 user pkt).toNat + 2 < 2 ^ 32 := by
  have word : (loadU32 user pkt).toNat < 2 ^ 32 := (loadU32 user pkt).toNat_lt
  have room : (loadU32 user pkt + NET_IP_ALIGN).toNat = ((loadU32 user pkt).toNat + 2) % 2 ^ 32 :=
    UInt32.toNat_add _ _
  have put : (loadBytes user (pkt + 4) (loadU32 user pkt).toNat).length =
      (loadU32 user pkt).toNat := loadBytes_length user _ _
  have headroom : NET_IP_ALIGN.toNat = 2 := rfl
  simp only [RxSkb.Fits, filledSkb, devAllocSkb, room, put, headroom]
  constructor
  · intro fits
    by_contra wraps
    rw [Nat.mod_eq_sub_mod (by omega), Nat.mod_eq_of_lt (by omega)] at fits
    omega
  · intro fits
    rw [Nat.mod_eq_of_lt fits, Nat.add_comm]

/-- Every copy of a write stays inside its buffer exactly when no packet the
loop copies is within NET_IP_ALIGN of 2^32 bytes long. -/
theorem write_copies_fit_iff (arch : Arch) (w : World) (hdr : KvnetHeader) (env : WriteEnv) :
    (∀ i, Copies hdr env i →
        (filledSkb (ioWriteLoop arch hdr env i 0 w 0).1.user (hdr.pkt (toCInt i))).Fits) ↔
      ∀ i, Copies hdr env i → (loadU32 w.user (hdr.pkt (toCInt i))).toNat + 2 < 2 ^ 32 := by
  have kept : ∀ i, Copies hdr env i → (ioWriteLoop arch hdr env i 0 w 0).1.user = w.user := by
    intro i copies
    have clean : ∀ j, j < i → env.fault (0 + j) = none := by simpa using copies.before
    exact (ioWriteLoop_clean arch hdr env w i 0 clean arch.toSsizeT_zero.symm).2.user
  constructor
  · intro fits i copies
    have fit := fits i copies
    rwa [kept i copies, filledSkb_fits_iff] at fit
  · intro short i copies
    rw [kept i copies, filledSkb_fits_iff]
    exact short i copies

/-- The header at 4096 names one user packet of 2^32 - 1 bytes. -/
def longWorld : World :=
  { batchWorld with
    user := storeBytes (storeBytes (fun _ => 0) 4096 (leBytes 4 1 ++ leBytes 8 8192)) 8192
      (leBytes 4 (2 ^ 32 - 1)) }

/-- Its buffer has room for one byte. -/
theorem long_packet_overruns :
    ¬ ∀ hdr, fetchHeader lp64 longWorld.user [⟨4096, 12⟩] 12 ⟨true, false, fun _ => 0⟩ = .ok hdr →
      ∀ env i, Copies hdr env i → (filledSkb (ioWriteLoop lp64 hdr env i 0 longWorld 0).1.user
        (hdr.pkt (toCInt i))).Fits := by
  intro fits
  have first := fits _ rfl ⟨⟨true, false, fun _ => 0⟩, fun _ => none, fun _ _ => 0, none⟩ 0
  have fit := first
    ⟨by decide +kernel, fun j below => absurd below (Nat.not_lt_zero j), nofun, nofun⟩
  exact absurd ((filledSkb_fits_iff _ _).mp fit) (by decide +kernel)

end Kvnet
