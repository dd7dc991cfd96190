import Kvnet.Lengths
import Kvnet.UserMemory

/-!
# The header its caller laid out

A request names its packets in the caller's memory, and the driver looks them up
in a copy. The copy has as many bytes of the header as the length has as an int;
behind them its slots are whatever surrounds the buffer it was made in.
-/

namespace Kvnet

/-- The header in the caller's memory, behind the iovecs of the request. -/
def userHeader (arch : Arch) (user : UserMem) (iv : List Iovec) : KvnetHeader :=
  headerAt arch (gather user iv (iovBytes iv)) fun _ => 0

/-- The kernel's copy of it. -/
def copiedHeader (arch : Arch) (user : UserMem) (iv : List Iovec) (len : Int)
    (around : Int → UInt8) : KvnetHeader :=
  headerAt arch (gather user iv (toCInt len).toNat) around

/-- The copy reaches behind the first k slots, or no copy is made. -/
def SlotsCopied (arch : Arch) (len : Int) (k : Nat) : Prop :=
  0 ≤ toCInt len → (exactHeaderLen arch k : Int) ≤ toCInt len

instance (arch : Arch) (len : Int) (k : Nat) : Decidable (SlotsCopied arch len k) :=
  inferInstanceAs (Decidable (_ → _))

/-- Two headers name the same number of packets, and their first k alike. -/
structure KvnetHeader.Agrees (hdr hdr' : KvnetHeader) (k : Nat) : Prop where
  count : hdr.count = hdr'.count
  slots : ∀ i : Nat, i < k → hdr.pkt i = hdr'.pkt i

/-- The byte at an offset from the start of a header's buffer. -/
def headerByte (buf : List UInt8) (around : Int → UInt8) (o : Int) : UInt8 :=
  if 0 ≤ o ∧ o < buf.length then buf.getD o.toNat 0 else around o

theorem headerAt_count_bytes (arch : Arch) (buf : List UInt8) (around : Int → UInt8) :
    (headerAt arch buf around).count =
      UInt32.ofNat (leNat ((List.range 4).map fun j : Nat => headerByte buf around j)) := rfl

theorem headerAt_pkt_bytes (arch : Arch) (buf : List UInt8) (around : Int → UInt8) (i : Int) :
    (headerAt arch buf around).pkt i = leNat ((List.range arch.ptrSize).map fun j : Nat =>
      headerByte buf around (4 + i * arch.ptrSize + j)) := by
  have offsets : (List.range arch.ptrSize >>= fun j : Nat => pure (j : Int)) =
      List.map (fun j : Nat => (j : Int)) (List.range arch.ptrSize) :=
    List.flatMap_pure_eq_map _ _
  simp only [headerAt, offsets, List.map_map]
  rfl

section Bytes

variable {arch : Arch} {buf buf' : List UInt8} {around around' : Int → UInt8}

theorem headerAt_count_congr
    (same : ∀ o : Nat, o < 4 → headerByte buf around o = headerByte buf' around' o) :
    (headerAt arch buf around).count = (headerAt arch buf' around').count := by
  rw [headerAt_count_bytes, headerAt_count_bytes]
  refine congrArg (fun bytes => UInt32.ofNat (leNat bytes)) (List.map_congr_left fun j among => ?_)
  exact same j (List.mem_range.mp among)

theorem headerAt_pkt_congr {i : Nat}
    (same : ∀ o : Nat, exactHeaderLen arch i ≤ o → o < exactHeaderLen arch (i + 1) →
      headerByte buf around o = headerByte buf' around' o) :
    (headerAt arch buf around).pkt i = (headerAt arch buf' around').pkt i := by
  rw [headerAt_pkt_bytes, headerAt_pkt_bytes]
  refine congrArg leNat (List.map_congr_left fun j among => ?_)
  have below := List.mem_range.mp among
  have place : 4 + (i : Int) * arch.ptrSize + j = (4 + i * arch.ptrSize + j : Nat) := by
    push_cast
    rfl
  rw [place]
  refine same _ (Nat.le_add_right _ j) ?_
  rw [exactHeaderLen, Nat.succ_mul]
  omega

theorem headerByte_inside {o : Nat} (inside : o < buf.length) :
    headerByte buf around o = buf.getD o 0 := by
  rw [headerByte, if_pos ⟨Int.natCast_nonneg o, by omega⟩, Int.toNat_natCast]

theorem headerByte_behind {o : Nat} (behind : buf.length ≤ o) :
    headerByte buf around o = around o := by
  rw [headerByte, if_neg (by omega)]

theorem headerByte_loadBytes {user : UserMem} {a n o : Nat} (inside : o < n) :
    headerByte (loadBytes user a n) around o = user (a + o) := by
  rw [headerByte_inside (by rwa [loadBytes_length]), loadBytes, List.getD_eq_getElem?_getD,
    List.getElem?_map, List.getElem?_range inside, Option.map_some, Option.getD_some]

theorem headerByte_shorter (front : buf <+: buf') {o : Nat} (inside : o < buf.length) :
    headerByte buf around o = headerByte buf' around' o := by
  have lengths := front.length_le
  obtain ⟨rest, rfl⟩ := front
  rw [headerByte_inside inside, headerByte_inside (by omega), List.getD_eq_getElem?_getD,
    List.getD_eq_getElem?_getD, List.getElem?_append_left inside]

/-- A header that is cut off behind its first k slots agrees with the whole one on them. -/
theorem headerAt_agrees (front : buf <+: buf') {k : Nat}
    (inside : exactHeaderLen arch k ≤ buf.length) :
    (headerAt arch buf around).Agrees (headerAt arch buf' around') k := by
  constructor
  · refine headerAt_count_congr fun o below => headerByte_shorter front ?_
    rw [exactHeaderLen] at inside
    omega
  · intro i below
    refine headerAt_pkt_congr fun o _ before => headerByte_shorter front ?_
    have upTo : exactHeaderLen arch (i + 1) ≤ exactHeaderLen arch k :=
      Nat.add_le_add_left (Nat.mul_le_mul_right _ below) 4
    omega

end Bytes

section Fetched

variable {arch : Arch} {user : UserMem} {iv : List Iovec} {len : Int} {env : HeaderEnv}
  {hdr : KvnetHeader}

/-- What is accepted is the copy, and a length that is negative as an int is not. -/
theorem fetchHeader_copies (accepted : fetchHeader arch user iv len env = .ok hdr) :
    0 ≤ toCInt len ∧ hdr = copiedHeader arch user iv len env.around := by
  unfold fetchHeader at accepted
  split at accepted
  · cases accepted
  split at accepted
  · cases accepted
  rename_i served
  split at accepted
  · cases accepted
  dsimp only at accepted
  split at accepted
  · cases accepted
  split at accepted
  · cases accepted
  · refine ⟨?_, (Except.ok.inj accepted).symm⟩
    simp only [allocPagedMem, Bool.and_eq_false_iff, decide_eq_false_iff_not, not_or,
      Decidable.not_not] at served
    exact served.2

/-- A copy that fits the lengths it was measured by is accepted. -/
theorem fetchHeader_accepts (nonneg : 0 ≤ toCInt len) (memory : env.memory = true)
    (copied : env.fault = false)
    (some_packet : (copiedHeader arch user iv len env.around).count ≠ 0)
    (header : arch.sizeofHeader ≤ arch.toSizeT len)
    (fits : headerLen arch (copiedHeader arch user iv len env.around).count ≤ arch.toSizeT len) :
    fetchHeader arch user iv len env = .ok (copiedHeader arch user iv len env.around) := by
  have served : allocPagedMem (toCInt len) env.memory = true := by
    rw [allocPagedMem, memory, Bool.true_and, decide_eq_true nonneg]
  rw [copiedHeader] at some_packet fits
  simp only [fetchHeader, copiedHeader, if_neg (Nat.not_lt.mpr header), served, copied,
    if_neg some_packet, if_neg (Nat.not_lt.mpr fits), Bool.true_eq_false, Bool.false_eq_true,
    if_false]

/-- As an int a request is no longer than what lies behind its iovecs. -/
theorem toCInt_le_iovBytes (measured : ioDevIovTotal arch iv = len) (nonneg : 0 ≤ len) :
    toCInt len ≤ len ∧ len ≤ iovBytes iv := by
  have bounds := toCInt_bounds len
  constructor
  · simp only [toCInt] at bounds ⊢
    omega
  · rw [ioDevIovTotal_eq] at measured
    rcases arch.toSsizeT_natCast (iovBytes iv) with ⟨kept, _⟩ | ⟨negative, _⟩
    · have upTo := Nat.mod_le (iovBytes iv) (2 ^ arch.wordBits)
      omega
    · omega

/-- The slots that are copied are the caller's. -/
theorem copied_agrees (accepted : fetchHeader arch user iv len env = .ok hdr)
    (measured : ioDevIovTotal arch iv = len) (nonneg : 0 ≤ len) {k : Nat}
    (copied : SlotsCopied arch len k) : hdr.Agrees (userHeader arch user iv) k := by
  obtain ⟨served, rfl⟩ := fetchHeader_copies accepted
  obtain ⟨narrow, behind⟩ := toCInt_le_iovBytes measured nonneg
  have reached := copied served
  have length : (gather user iv (toCInt len).toNat).length = (toCInt len).toNat := by
    rw [gather_length]
    exact Nat.min_eq_left (show (toCInt len).toNat ≤ iovBytes iv by omega)
  exact headerAt_agrees (gather_shorter user iv (by omega)) (by omega)

/-- Below 2^31 bytes every slot of a header that is inside is copied. -/
theorem slotsCopied_of_inside {k : Nat} (nonneg : 0 ≤ len) (short : len < 2 ^ 31)
    (inside : (exactHeaderLen arch k : Int) ≤ len) : SlotsCopied arch len k := by
  intro _
  rwa [toCInt_of_lt nonneg short]

end Fetched

end Kvnet
