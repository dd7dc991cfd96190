import Kvnet.Library
import Kvnet.UserHeader

/-!
# The two backends

On the driver a batch is checked in the kernel, on TAP it would have to be
checked by the library. Both are followed with a record of the slots of the
header they look into, and compared on the same header.
-/

namespace Kvnet

/-- hdr->pkt[i] lies inside a header of len bytes. -/
def SlotWithin (arch : Arch) (len : Nat) (i : Int) : Prop :=
  0 ≤ 4 + i * arch.ptrSize ∧ 4 + (i + 1) * arch.ptrSize ≤ (len : Int)

/-- The slots the TAP loop of kvnet_write reads. -/
def tapWriteSlots (fails : Nat → Bool) : Nat → Nat → List Int
  | 0, _ => []
  | n + 1, i => toCInt i :: if fails i then [] else tapWriteSlots fails n (i + 1)

/-- The slots the loop of io_write_from_iovec reads. -/
def ioWriteSlots (fault : Nat → Option WriteFault) : Nat → Nat → List Int
  | 0, _ => []
  | n + 1, i =>
    toCInt i :: match fault i with
    | some _ => []
    | none => ioWriteSlots fault n (i + 1)

/-- The slots the loop of io_read_to_iovec reads. -/
def ioReadSlots (hdr : KvnetHeader) (fault : Nat → Option FillFault) :
    Nat → Nat → World → List Int
  | 0, _, _ => []
  | n + 1, i, w =>
    let (skb, w) := w.queueRemove
    if skb = NULL then []
    else
      let (w, failed) := readPacket w (hdr.pkt i) skb (fault i)
      (i : Int) :: if failed ≠ 0 then [] else ioReadSlots hdr fault n (i + 1) w

/-- The TAP loop sees of a header the slots it reads, and no others. -/
theorem tapWriteLoop_congr (arch : Arch) (user : UserMem) (hdr hdr' : Addr) (fails : Nat → Bool)
    (n i : Nat) (same : ∀ s ∈ tapWriteSlots fails n i,
      packetSlot arch user hdr s = packetSlot arch user hdr' s) :
    tapWriteLoop arch user hdr fails n i = tapWriteLoop arch user hdr' fails n i := by
  induction n generalizing i with
  | zero => rfl
  | succ n ih =>
    by_cases failed : fails i = true
    · simp only [tapWriteLoop, if_pos failed]
    · rw [tapWriteSlots, if_neg failed] at same
      have slot := same _ List.mem_cons_self
      have rest := ih (i + 1) fun s hs => same s (List.mem_cons_of_mem _ hs)
      simp only [tapWriteLoop, if_neg failed, slot, rest]

theorem ioWriteLoop_congr (arch : Arch) (hdr hdr' : KvnetHeader) (env : WriteEnv) (n i : Nat)
    (w : World) (ret : Int) (same : ∀ s ∈ ioWriteSlots env.fault n i, hdr.pkt s = hdr'.pkt s) :
    ioWriteLoop arch hdr env n i w ret = ioWriteLoop arch hdr' env n i w ret := by
  induction n generalizing i w ret with
  | zero => rfl
  | succ n ih =>
    cases struck : env.fault i with
    | some f =>
      rw [ioWriteLoop_fails arch hdr env n ret struck, ioWriteLoop_fails arch hdr' env n ret struck]
    | none =>
      rw [ioWriteSlots, struck] at same
      rw [ioWriteLoop_next arch hdr env n ret struck, ioWriteLoop_next arch hdr' env n ret struck,
        same _ List.mem_cons_self]
      exact ih (i + 1) _ _ fun s hs => same s (List.mem_cons_of_mem _ hs)

theorem ioReadLoop_congr (arch : Arch) (hdr hdr' : KvnetHeader) (fault : Nat → Option FillFault)
    (n i : Nat) (w : World) (ret : Int)
    (same : ∀ s ∈ ioReadSlots hdr fault n i w, hdr.pkt s = hdr'.pkt s) :
    ioReadLoop arch hdr fault n i w ret = ioReadLoop arch hdr' fault n i w ret := by
  induction n generalizing i w ret with
  | zero => rfl
  | succ n ih =>
    simp only [ioReadLoop]
    simp only [ioReadSlots] at same
    by_cases empty : w.queueRemove.1 = NULL
    · simp only [if_pos empty]
    · simp only [if_neg empty] at same ⊢
      have slot : hdr.pkt i = hdr'.pkt i := same _ List.mem_cons_self
      rw [← slot]
      by_cases failed :
          (readPacket w.queueRemove.2 (hdr.pkt i) w.queueRemove.1 (fault i)).2 ≠ 0
      · simp only [if_pos failed]
      · simp only [if_neg failed] at same ⊢
        exact ih (i + 1) _ _ fun s hs => same s (List.mem_cons_of_mem _ hs)

theorem mem_tapWriteSlots {fails : Nat → Bool} {n i : Nat} {s : Int}
    (h : s ∈ tapWriteSlots fails n i) : ∃ j : Nat, i ≤ j ∧ j < i + n ∧ s = toCInt j := by
  induction n generalizing i with
  | zero => cases h
  | succ n ih =>
    rw [tapWriteSlots] at h
    rcases List.mem_cons.mp h with here | later
    · exact ⟨i, Nat.le_refl i, by omega, here⟩
    · by_cases failed : fails i = true
      · rw [if_pos failed] at later
        cases later
      · rw [if_neg failed] at later
        obtain ⟨j, above, below, slot⟩ := ih later
        exact ⟨j, by omega, by omega, slot⟩

/-- Without a failure all slots are read. -/
theorem tapWriteSlots_all {n i j : Nat} (above : i ≤ j) (below : j < i + n) :
    toCInt j ∈ tapWriteSlots (fun _ => false) n i := by
  induction n generalizing i with
  | zero => omega
  | succ n ih =>
    by_cases here : i = j
    · exact here ▸ List.mem_cons_self
    · exact List.mem_cons_of_mem _ (ih (by omega) (by omega))

theorem mem_ioWriteSlots {fault : Nat → Option WriteFault} {n i : Nat} {s : Int}
    (h : s ∈ ioWriteSlots fault n i) : ∃ j : Nat, i ≤ j ∧ j < i + n ∧ s = toCInt j := by
  induction n generalizing i with
  | zero => cases h
  | succ n ih =>
    rw [ioWriteSlots] at h
    rcases List.mem_cons.mp h with here | later
    · exact ⟨i, Nat.le_refl i, by omega, here⟩
    · cases struck : fault i with
      | some f =>
        rw [struck] at later
        cases later
      | none =>
        rw [struck] at later
        obtain ⟨j, above, below, slot⟩ := ih later
        exact ⟨j, by omega, by omega, slot⟩

theorem mem_ioReadSlots {hdr : KvnetHeader} {fault : Nat → Option FillFault} {n i : Nat}
    {w : World} {s : Int} (h : s ∈ ioReadSlots hdr fault n i w) :
    ∃ j : Nat, i ≤ j ∧ j < i + n ∧ s = j := by
  induction n generalizing i w with
  | zero => cases h
  | succ n ih =>
    simp only [ioReadSlots] at h
    by_cases empty : w.queueRemove.1 = NULL
    · rw [if_pos empty] at h
      cases h
    · rw [if_neg empty] at h
      rcases List.mem_cons.mp h with rfl | later
      · exact ⟨i, by omega, by omega, rfl⟩
      · split at later
        · cases later
        · obtain ⟨j, above, below, slot⟩ := ih later
          exact ⟨j, by omega, by omega, slot⟩

def aioHeader (arch : Arch) (user : UserMem) (iv : List Iovec) (env : HeaderEnv) :
    Except Int KvnetHeader :=
  if ioDevIovTotal arch iv < 0 then .error (-EINVAL)
  else fetchHeader arch user iv (ioDevIovTotal arch iv) env

section Aio

variable {arch : Arch} {w : World} {iv : List Iovec} {e : Int} {h : KvnetHeader}

theorem aioWrite_error {env : WriteEnv}
    (refused : aioHeader arch w.user iv env.header = .error e) :
    (ioDevAioWrite arch w iv true env).ret < 0 := by
  by_cases negative : ioDevIovTotal arch iv < 0
  · simp only [ioDevAioWrite, if_pos negative, ite_self]
    exact show -EINVAL < 0 by decide
  · simp only [aioHeader, if_neg negative] at refused
    simp only [ioDevAioWrite, if_neg negative, ioWriteFromIovec, refused]
    exact fetchHeader_error refused

theorem aioRead_ok {env : ReadEnv} (accepted : aioHeader arch w.user iv env.header = .ok h) :
    ioDevAioRead arch w iv true env =
      reportCount arch (ioReadLoop arch h env.fault h.count.toNat 0 w 0).1 iv
        (ioReadLoop arch h env.fault h.count.toNat 0 w 0).2 env.toIovec := by
  by_cases negative : ioDevIovTotal arch iv < 0
  · simp only [aioHeader, if_pos negative, reduceCtorEq] at accepted
  · simp only [aioHeader, if_neg negative] at accepted
    rw [ioDevAioRead, if_neg (by decide), if_neg negative, ioReadToIovec_accepted accepted]

theorem aioWrite_ok {env : WriteEnv} (accepted : aioHeader arch w.user iv env.header = .ok h) :
    ioDevAioWrite arch w iv true env =
      reportCount arch (ioWriteLoop arch h env h.count.toNat 0 w 0).1 iv
        (ioWriteLoop arch h env h.count.toNat 0 w 0).2 env.toIovec := by
  by_cases negative : ioDevIovTotal arch iv < 0
  · simp only [aioHeader, if_pos negative, reduceCtorEq] at accepted
  · simp only [aioHeader, if_neg negative] at accepted
    rw [ioDevAioWrite, if_neg (by decide), if_neg negative, ioWriteFromIovec_accepted accepted]

end Aio

/-- The kernel's copy of a header has the count of the user's. -/
theorem headerAt_count (arch : Arch) (user : UserMem) (hdr : Addr) {n : Nat} (enough : 4 ≤ n)
    (around : Int → UInt8) :
    (headerAt arch (loadBytes user hdr n) around).count = loadU32 user hdr := by
  rw [headerAt_count_bytes]
  refine congrArg (fun bytes => UInt32.ofNat (leNat bytes)) (List.map_congr_left fun j among => ?_)
  have below := List.mem_range.mp among
  exact headerByte_loadBytes (show j < n by omega)

/-- A header whose length an int holds is accepted by its count. -/
theorem aioHeader_short (arch : Arch) (user : UserMem) (hdr : Addr) (len : UInt32)
    (env : HeaderEnv) (memory : env.memory = true) (copied : env.fault = false)
    (header : arch.sizeofHeader ≤ len.toNat) (short : len.toNat < 2 ^ 31) :
    aioHeader arch user [⟨hdr, len.toNat⟩] env =
      if loadU32 user hdr = 0 then .error (-EINVAL)
      else if len.toNat < headerLen arch (loadU32 user hdr) then .error (-EINVAL)
      else .ok (headerAt arch (loadBytes user hdr len.toNat) env.around) := by
  have half := arch.two_pow_wordBits.2
  have kept : arch.toSsizeT len.toNat = len.toNat :=
    arch.toSsizeT_of_lt (Int.natCast_nonneg _) (by omega)
  have size : arch.toSizeT len.toNat = len.toNat := arch.toSizeT_natCast_of_lt short
  have narrow : toCInt len.toNat = len.toNat := toCInt_of_lt (Int.natCast_nonneg _) (by omega)
  have nonneg : ¬ (len.toNat : Int) < 0 := by omega
  have whole : gather user [⟨hdr, len.toNat⟩] len.toNat = loadBytes user hdr len.toNat := by
    rw [gather, gather, List.append_nil, Nat.min_self]
  have served : allocPagedMem (len.toNat : Int) true = true := by
    rw [allocPagedMem, decide_eq_true (Int.natCast_nonneg _)]
    rfl
  have count := headerAt_count arch user hdr
    (Nat.le_trans (Nat.le_add_right 4 arch.ptrSize) header) env.around
  simp only [aioHeader, fetchHeader, ioDevIovTotal_single, kept, if_neg nonneg, size, narrow,
    if_neg (Nat.not_lt.mpr header), memory, served, copied, Int.toNat_natCast, whole, count]
  rfl

/-- A length that an int takes for a negative one is refused, whatever the
header says. -/
theorem aioHeader_long (arch : Arch) (user : UserMem) (hdr : Addr) (len : UInt32)
    (env : HeaderEnv) (long : ¬ len.toNat < 2 ^ 31) :
    ∃ e, aioHeader arch user [⟨hdr, len.toNat⟩] env = .error e := by
  have word : len.toNat < 2 ^ 32 := len.toNat_lt
  have total := ioDevIovTotal_single arch hdr len
  by_cases negative : arch.toSsizeT len.toNat < 0
  · exact ⟨-EINVAL, by rw [aioHeader, total, if_pos negative]⟩
  · have kept : arch.toSsizeT len.toNat = len.toNat := by
      rcases arch.toSsizeT_count word with same | wrapped
      · exact same
      · exact absurd wrapped negative
    have narrow : ¬ 0 ≤ toCInt len.toNat := by
      simp only [toCInt]
      omega
    have unserved : allocPagedMem (toCInt len.toNat) env.memory = false := by
      rw [allocPagedMem, decide_eq_false narrow, Bool.and_false]
    by_cases small : arch.toSizeT len.toNat < arch.sizeofHeader
    · exact ⟨-EINVAL, by rw [aioHeader, total, if_neg negative, kept, fetchHeader, if_pos small]⟩
    · exact ⟨-ENOMEM, by
        rw [aioHeader, total, if_neg negative, kept, fetchHeader, if_neg small, if_pos unserved]⟩

/-- With nothing failing, a driver call goes on with the caller's header exactly
when that names a packet and has the length it should, as far as an int and a
size_t can tell. -/
theorem aioHeader_single (arch : Arch) (user : UserMem) (hdr : Addr) (len : UInt32)
    (env : HeaderEnv) (memory : env.memory = true) (copied : env.fault = false)
    (header : arch.sizeofHeader ≤ len.toNat) :
    (∃ h, aioHeader arch user [⟨hdr, len.toNat⟩] env = .ok h ∧ h.count = loadU32 user hdr) ∧
        loadU32 user hdr ≠ 0 ∧ headerLen arch (loadU32 user hdr) ≤ len.toNat ∧
        len.toNat < 2 ^ 31 ∨
      (∃ e, aioHeader arch user [⟨hdr, len.toNat⟩] env = .error e) ∧
        ¬ (loadU32 user hdr ≠ 0 ∧ headerLen arch (loadU32 user hdr) ≤ len.toNat ∧
          len.toNat < 2 ^ 31) := by
  by_cases short : len.toNat < 2 ^ 31
  · have fetched := aioHeader_short arch user hdr len env memory copied header short
    by_cases zero : loadU32 user hdr = 0
    · exact Or.inr ⟨⟨_, by rw [fetched, if_pos zero]⟩, fun valid => valid.1 zero⟩
    by_cases beyond : len.toNat < headerLen arch (loadU32 user hdr)
    · exact Or.inr ⟨⟨_, by rw [fetched, if_neg zero, if_pos beyond]⟩,
        fun valid => absurd valid.2.1 (Nat.not_le.mpr beyond)⟩
    · have count := headerAt_count arch user hdr
        (Nat.le_trans (Nat.le_add_right 4 arch.ptrSize) header) env.around
      exact Or.inl ⟨⟨_, by rw [fetched, if_neg zero, if_neg beyond], count⟩, zero,
        Nat.le_of_not_lt beyond, short⟩
  · exact Or.inr ⟨aioHeader_long arch user hdr len env short, fun valid => short valid.2.2⟩

/-- The slots kvnet_write reads of the header it is given. -/
def writeSlots (arch : Arch) (l : Lib) (w : World) (hdr : Addr) (len : UInt32)
    (fails : Nat → Bool) (driver : WriteEnv) : List Int :=
  if validArguments arch l hdr len = false then []
  else if l.useTapDev ≠ 0 then tapWriteSlots fails (loadU32 w.user hdr).toNat 0
  else
    match aioHeader arch w.user [⟨hdr, len.toNat⟩] driver.header with
    | .error _ => []
    | .ok h => ioWriteSlots driver.fault h.count.toNat 0

/-- The slots kvnet_read reads once poll has reported POLLIN. -/
def readSlots (arch : Arch) (l : Lib) (w : World) (hdr : Addr) (len : UInt32)
    (driver : ReadEnv) : List Int :=
  if validArguments arch l hdr len = false then []
  else if l.useTapDev ≠ 0 then [0]
  else
    match aioHeader arch w.user [⟨hdr, len.toNat⟩] driver.header with
    | .error _ => []
    | .ok h => ioReadSlots h driver.fault h.count.toNat 0 w

/-- The status of a kvnet_write none of whose writes to TAP fails. -/
def writeStatus (arch : Arch) (l : Lib) (w : World) (hdr : Addr) (len errno : UInt32)
    (driver : WriteEnv) : UInt32 :=
  kvnetStatus (kvnetWrite arch l w hdr len errno (fun _ => false) driver).1

/-- The status of a kvnet_read whose poll reports POLLIN. -/
def readStatus (arch : Arch) (l : Lib) (w : World) (hdr : Addr) (len errno : UInt32)
    (data : DataEnv) : Option UInt32 :=
  (kvnetRead arch l w hdr len errno [⟨.ready POLLIN, data, errno⟩]).map fun r => kvnetStatus r.1

/-- Nothing fails that the driver does not fail itself. -/
structure ReadEnv.Succeeds (env : ReadEnv) : Prop where
  memory : env.header.memory = true
  copied : env.header.fault = false
  filled : ∀ i, env.fault i = none
  reported : env.toIovec = none

structure WriteEnv.Succeeds (env : WriteEnv) : Prop where
  memory : env.header.memory = true
  copied : env.header.fault = false
  injected : ∀ i, env.fault i = none
  reported : env.toIovec = none

/-- The backends accept the same header, and neither looks behind its len bytes. -/
structure BackendsAgree (arch : Arch) (tap driver : Lib) (w : World) (hdr : Addr)
    (len errno : UInt32) (data : DataEnv) (write : WriteEnv) : Prop where
  writes : writeStatus arch tap w hdr len errno write = KVNET_NO_ERROR ↔
    writeStatus arch driver w hdr len errno write = KVNET_NO_ERROR
  reads : readStatus arch tap w hdr len errno data = some KVNET_NO_ERROR ↔
    readStatus arch driver w hdr len errno data = some KVNET_NO_ERROR
  writeWithin : ∀ l ∈ [tap, driver], ∀ s ∈ writeSlots arch l w hdr len (fun _ => false) write,
    SlotWithin arch len.toNat s
  readWithin : ∀ l ∈ [tap, driver], ∀ s ∈ readSlots arch l w hdr len data.driver,
    SlotWithin arch len.toNat s

theorem tapWriteLoop_all (arch : Arch) (user : UserMem) (hdr : Addr) (n i : Nat) :
    (tapWriteLoop arch user hdr (fun _ => false) n i).2 = true := by
  induction n generalizing i with
  | zero => rfl
  | succ n ih => exact ih (i + 1)

section Statuses

variable {arch : Arch} {l : Lib} {hdr : Addr} {len : UInt32}
  (valid : validArguments arch l hdr len = true) (w : World) (errno : UInt32)

include valid

theorem tap_writeStatus (tap : l.useTapDev ≠ 0) (driver : WriteEnv) :
    writeStatus arch l w hdr len errno driver = KVNET_NO_ERROR := by
  have given : ¬ validArguments arch l hdr len = false := by rw [valid]; decide
  simp only [writeStatus, kvnetWrite, if_neg given, if_pos tap, tapWriteLoop_all, if_true,
    kvnetStatus_make]
  rfl

theorem driver_writeStatus (driver : l.useTapDev = 0) (env : WriteEnv) :
    writeStatus arch l w hdr len errno env = KVNET_NO_ERROR ↔
      0 ≤ (ioDevAioWrite arch w [⟨hdr, len.toNat⟩] true env).ret := by
  have given : ¬ validArguments arch l hdr len = false := by rw [valid]; decide
  have backend : ¬ l.useTapDev ≠ 0 := not_not.mpr driver
  simp only [writeStatus, kvnetWrite, if_neg given, if_neg backend, kvnetStatus_make]
  by_cases failed : (ioDevAioWrite arch w [⟨hdr, len.toNat⟩] true env).ret < 0
  · rw [if_pos failed]
    exact iff_of_false (by decide) (Int.not_le.mpr failed)
  · rw [if_neg failed]
    exact iff_of_true (by decide) (Int.not_lt.mp failed)

theorem tap_readStatus (tap : l.useTapDev ≠ 0) {data : DataEnv} (arrived : data.frame ≠ none) :
    readStatus arch l w hdr len errno data = some KVNET_NO_ERROR := by
  have given : ¬ validArguments arch l hdr len = false := by rw [valid]; decide
  have clean : ¬ POLLIN &&& errorEvents ≠ 0 := by decide
  have ready : POLLIN &&& POLLIN ≠ 0 := by decide
  obtain ⟨frame, hf⟩ := Option.ne_none_iff_exists'.mp arrived
  simp only [readStatus, kvnetRead, if_neg given, kvnetReadRounds, kvnetReadRound, if_neg clean,
    if_pos ready, if_pos tap, hf, Option.map_some, kvnetStatus_make]
  rfl

theorem driver_readStatus (driver : l.useTapDev = 0) (data : DataEnv) :
    readStatus arch l w hdr len errno data = some KVNET_NO_ERROR ↔
      0 ≤ (ioDevAioRead arch w [⟨hdr, len.toNat⟩] true data.driver).ret := by
  have given : ¬ validArguments arch l hdr len = false := by rw [valid]; decide
  have backend : ¬ l.useTapDev ≠ 0 := not_not.mpr driver
  have clean : ¬ POLLIN &&& errorEvents ≠ 0 := by decide
  have ready : POLLIN &&& POLLIN ≠ 0 := by decide
  simp only [readStatus, kvnetRead, if_neg given, kvnetReadRounds, kvnetReadRound, if_neg clean,
    if_pos ready, if_neg backend]
  by_cases failed : (ioDevAioRead arch w [⟨hdr, len.toNat⟩] true data.driver).ret < 0
  · simp only [if_pos failed, Option.map_some, kvnetStatus_make]
    exact iff_of_false (by decide) (Int.not_le.mpr failed)
  · simp only [if_neg failed, Option.map_some, kvnetStatus_make]
    exact iff_of_true (by decide) (Int.not_lt.mp failed)

end Statuses

theorem slotWithin_natCast (arch : Arch) (len j : Nat) :
    SlotWithin arch len j ↔ exactHeaderLen arch (j + 1) ≤ len := by
  have cast : ((j : Int) + 1) * arch.ptrSize = ((j + 1) * arch.ptrSize : Nat) := by push_cast; rfl
  have nonneg := Int.mul_nonneg (Int.natCast_nonneg j) (Int.natCast_nonneg arch.ptrSize)
  rw [SlotWithin, cast, exactHeaderLen]
  constructor
  · rintro ⟨_, below⟩
    omega
  · intro below
    constructor
    · omega
    · omega

theorem exactHeaderLen_mono (arch : Arch) {j k : Nat} (le : j ≤ k) :
    exactHeaderLen arch j ≤ exactHeaderLen arch k :=
  Nat.add_le_add_left (Nat.mul_le_mul_right _ le) 4

/-- With pointers of some size a header that fits an int names few packets. -/
theorem count_lt_of_exactHeaderLen {arch : Arch} (pointers : 0 < arch.ptrSize) {count : Nat}
    (fits : exactHeaderLen arch count < 2 ^ 31) : count < 2 ^ 31 := by
  have upTo := Nat.le_mul_of_pos_right count pointers
  rw [exactHeaderLen] at fits
  omega

theorem sizeofHeader_le {arch : Arch} {l : Lib} {hdr : Addr} {len : UInt32}
    (valid : validArguments arch l hdr len = true) : arch.sizeofHeader ≤ len.toNat := by
  by_contra short
  simp [validArguments, Nat.lt_of_not_le short] at valid

/-- A header that names a packet and holds all its slots in less than 2^31 bytes. -/
structure HeaderHolds (arch : Arch) (user : UserMem) (hdr : Addr) (len : UInt32) : Prop where
  nonzero : loadU32 user hdr ≠ 0
  inside : exactHeaderLen arch (loadU32 user hdr).toNat ≤ len.toNat
  short : len.toNat < 2 ^ 31

/-- The driver turns other headers away, and TAP reads all slots of the header. -/
theorem BackendsAgree.holds {arch : Arch} {tap driver : Lib} {w : World} {hdr : Addr}
    {len errno : UInt32} {data : DataEnv} {write : WriteEnv} (pointers : 0 < arch.ptrSize)
    (isTap : tap.useTapDev ≠ 0) (isDriver : driver.useTapDev = 0)
    (validTap : validArguments arch tap hdr len = true)
    (validDriver : validArguments arch driver hdr len = true) (writes : write.Succeeds)
    (agree : BackendsAgree arch tap driver w hdr len errno data write) :
    HeaderHolds arch w.user hdr len := by
  have givenTap : ¬ validArguments arch tap hdr len = false := by rw [validTap]; decide
  have word : (loadU32 w.user hdr).toNat < 2 ^ 32 := (loadU32 w.user hdr).toNat_lt
  have written := agree.writes.mp (tap_writeStatus validTap w errno isTap write)
  rw [driver_writeStatus validDriver w errno isDriver] at written
  rcases aioHeader_single arch w.user hdr len write.header writes.memory writes.copied
    (sizeofHeader_le validTap) with ⟨_, nonzero, _, short⟩ | ⟨⟨e, refused⟩, _⟩
  · -- an index up to 2^31 is the same as an int
    have slots : ∀ j : Nat, j < (loadU32 w.user hdr).toNat →
        SlotWithin arch len.toNat (toCInt j) := by
      intro j below
      refine agree.writeWithin tap List.mem_cons_self _ ?_
      rw [writeSlots, if_neg givenTap, if_pos isTap]
      exact tapWriteSlots_all (Nat.zero_le j) (by omega)
    have positive := count_pos nonzero
    have last := slots (min (loadU32 w.user hdr).toNat (2 ^ 31) - 1) (by omega)
    rw [toCInt_of_lt (Int.natCast_nonneg _) (by omega), slotWithin_natCast,
      Nat.sub_add_cancel (by omega)] at last
    have few := count_lt_of_exactHeaderLen pointers (Nat.lt_of_le_of_lt last short)
    rw [Nat.min_eq_left (by omega)] at last
    exact ⟨nonzero, last, short⟩
  · exact absurd written (Int.not_le.mpr (aioWrite_error refused))

section Holds

variable {arch : Arch} {l : Lib} {w : World} {hdr : Addr} {len : UInt32}
  (holds : HeaderHolds arch w.user hdr len)

include holds

theorem HeaderHolds.exact_short :
    exactHeaderLen arch (loadU32 w.user hdr).toNat < 2 ^ 31 :=
  Nat.lt_of_le_of_lt holds.inside holds.short

theorem HeaderHolds.slot {j : Nat} (below : j < (loadU32 w.user hdr).toNat) :
    SlotWithin arch len.toNat j :=
  (slotWithin_natCast arch len.toNat j).mpr
    (Nat.le_trans (exactHeaderLen_mono arch below) holds.inside)

theorem HeaderHolds.intSlot (pointers : 0 < arch.ptrSize) {j : Nat}
    (below : j < (loadU32 w.user hdr).toNat) : SlotWithin arch len.toNat (toCInt j) := by
  have few := count_lt_of_exactHeaderLen pointers holds.exact_short
  rw [toCInt_of_lt (Int.natCast_nonneg j) (by omega)]
  exact holds.slot below

/-- The driver goes on with it. -/
theorem HeaderHolds.accepted (header : arch.sizeofHeader ≤ len.toNat) {env : HeaderEnv}
    (memory : env.memory = true) (copied : env.fault = false) :
    ∃ h, aioHeader arch w.user [⟨hdr, len.toNat⟩] env = .ok h ∧ h.count = loadU32 w.user hdr := by
  have checked : headerLen arch (loadU32 w.user hdr) ≤ len.toNat := by
    rw [headerLen_eq arch holds.nonzero]
    exact Nat.le_trans (Nat.mod_le _ _) holds.inside
  rcases aioHeader_single arch w.user hdr len env memory copied header with ok | ⟨_, bad⟩
  · exact ok.1
  · exact absurd ⟨holds.nonzero, checked, holds.short⟩ bad

/-- The length of a part of such a batch is what the driver returns. -/
theorem HeaderHolds.reported (pointers : 0 < arch.ptrSize) {k : Nat} (positive : 0 < k)
    (upTo : k ≤ (loadU32 w.user hdr).toNat) (after : World) (iv : List Iovec) :
    0 ≤ (reportCount arch after iv (arch.toSsizeT k) none).ret := by
  have few := count_lt_of_exactHeaderLen pointers holds.exact_short
  have half := arch.two_pow_wordBits.2
  have kept : arch.toSsizeT k = k := arch.toSsizeT_of_lt (Int.natCast_nonneg k) (by omega)
  have fits := Nat.lt_of_le_of_lt (exactHeaderLen_mono arch upTo) holds.exact_short
  rw [reportCount_length positive (by omega) kept fits]
  exact Int.natCast_nonneg _

theorem HeaderHolds.driver_writes (pointers : 0 < arch.ptrSize)
    (header : arch.sizeofHeader ≤ len.toNat) {env : WriteEnv} (writes : env.Succeeds) :
    0 ≤ (ioDevAioWrite arch w [⟨hdr, len.toNat⟩] true env).ret := by
  obtain ⟨h, accepted, count⟩ := holds.accepted header writes.memory writes.copied
  rw [aioWrite_ok accepted, count,
    (ioWriteLoop_clean arch h env w _ 0 (fun j _ => writes.injected _)
      arch.toSsizeT_zero.symm).1, writes.reported, Nat.zero_add]
  exact holds.reported pointers (count_pos holds.nonzero) (Nat.le_refl _) _ _

theorem HeaderHolds.driver_reads (pointers : 0 < arch.ptrSize)
    (header : arch.sizeofHeader ≤ len.toNat) {env : ReadEnv} (reads : env.Succeeds)
    {xs : List Addr} (rep : Represents w.mem w.queue xs) (queued : xs ≠ []) :
    0 ≤ (ioDevAioRead arch w [⟨hdr, len.toNat⟩] true env).ret := by
  obtain ⟨h, accepted, count⟩ := holds.accepted header reads.memory reads.copied
  have some_queued : 0 < xs.length := List.length_pos_iff.mpr queued
  have positive := count_pos holds.nonzero
  rw [aioRead_ok accepted, count,
    ioReadLoop_count arch h env.fault rep (loadU32 w.user hdr).toNat_lt
      (fun j _ => reads.filled j) queued, reads.reported]
  exact holds.reported pointers (by omega) (Nat.min_le_left _ _) _ _

theorem HeaderHolds.writeSlots_within (pointers : 0 < arch.ptrSize)
    (valid : validArguments arch l hdr len = true) {env : WriteEnv} (writes : env.Succeeds) :
    ∀ s ∈ writeSlots arch l w hdr len (fun _ => false) env, SlotWithin arch len.toNat s := by
  intro s hs
  have given : ¬ validArguments arch l hdr len = false := by rw [valid]; decide
  by_cases tap : l.useTapDev ≠ 0
  · rw [writeSlots, if_neg given, if_pos tap] at hs
    obtain ⟨j, _, below, slot⟩ := mem_tapWriteSlots hs
    rw [slot]
    exact holds.intSlot pointers (by omega)
  · obtain ⟨h, accepted, count⟩ :=
      holds.accepted (sizeofHeader_le valid) writes.memory writes.copied
    simp only [writeSlots, if_neg given, if_neg tap, accepted] at hs
    obtain ⟨j, _, below, slot⟩ := mem_ioWriteSlots hs
    rw [count] at below
    rw [slot]
    exact holds.intSlot pointers (by omega)

theorem HeaderHolds.readSlots_within (valid : validArguments arch l hdr len = true)
    {env : ReadEnv} (reads : env.Succeeds) :
    ∀ s ∈ readSlots arch l w hdr len env, SlotWithin arch len.toNat s := by
  intro s hs
  have given : ¬ validArguments arch l hdr len = false := by rw [valid]; decide
  by_cases tap : l.useTapDev ≠ 0
  · rw [readSlots, if_neg given, if_pos tap, List.mem_singleton] at hs
    exact hs ▸ holds.slot (count_pos holds.nonzero)
  · obtain ⟨h, accepted, count⟩ := holds.accepted (sizeofHeader_le valid) reads.memory reads.copied
    simp only [readSlots, if_neg given, if_neg tap, accepted] at hs
    obtain ⟨j, _, below, rfl⟩ := mem_ioReadSlots hs
    rw [count] at below
    exact holds.slot (by omega)

end Holds

/-- The backends agree on a header exactly when it names a packet and holds all
the slots it names in less than 2^31 bytes. -/
theorem backends_agree_iff (arch : Arch) (pointers : 0 < arch.ptrSize) (tap driver : Lib)
    (isTap : tap.useTapDev ≠ 0) (isDriver : driver.useTapDev = 0) (w : World) (xs : List Addr)
    (rep : Represents w.mem w.queue xs) (queued : xs ≠ []) (hdr : Addr) (len errno : UInt32)
    (validTap : validArguments arch tap hdr len = true)
    (validDriver : validArguments arch driver hdr len = true) (data : DataEnv) (write : WriteEnv)
    (arrived : data.frame ≠ none) (reads : data.driver.Succeeds) (writes : write.Succeeds) :
    BackendsAgree arch tap driver w hdr len errno data write ↔
      loadU32 w.user hdr ≠ 0 ∧ exactHeaderLen arch (loadU32 w.user hdr).toNat ≤ len.toNat ∧
        len.toNat < 2 ^ 31 := by
  have header := sizeofHeader_le validTap
  constructor
  · intro agree
    have holds := agree.holds pointers isTap isDriver validTap validDriver writes
    exact ⟨holds.nonzero, holds.inside, holds.short⟩
  · rintro ⟨nonzero, inside, short⟩
    have holds : HeaderHolds arch w.user hdr len := ⟨nonzero, inside, short⟩
    constructor
    · refine iff_of_true (tap_writeStatus validTap w errno isTap write) ?_
      rw [driver_writeStatus validDriver w errno isDriver]
      exact holds.driver_writes pointers header writes
    · refine iff_of_true (tap_readStatus validTap w errno isTap arrived) ?_
      rw [driver_readStatus validDriver w errno isDriver]
      exact holds.driver_reads pointers header reads rep queued
    · intro l hl
      rcases List.mem_cons.mp hl with rfl | hl
      · exact holds.writeSlots_within pointers validTap writes
      · obtain rfl : l = driver := List.mem_singleton.mp hl
        exact holds.writeSlots_within pointers validDriver writes
    · intro l hl
      rcases List.mem_cons.mp hl with rfl | hl
      · exact holds.readSlots_within validTap reads
      · obtain rfl : l = driver := List.mem_singleton.mp hl
        exact holds.readSlots_within validDriver reads

def plainRead : ReadEnv := ⟨⟨true, false, fun _ => 0⟩, fun _ => none, none⟩

def plainWrite : WriteEnv := ⟨⟨true, false, fun _ => 0⟩, fun _ => none, fun _ _ => 0, none⟩

theorem backends_agree_pair :
    BackendsAgree lp64 ⟨3, 0, 1⟩ ⟨3, 0, 0⟩ pairWorld 4096 20 0 ⟨some [0xaa], plainRead⟩
      plainWrite :=
  (backends_agree_iff lp64 (by decide) ⟨3, 0, 1⟩ ⟨3, 0, 0⟩ (by decide) rfl pairWorld [1, 2]
    pair_represents (by decide) 4096 20 0 rfl rfl ⟨some [0xaa], plainRead⟩ plainWrite nofun
    ⟨rfl, rfl, fun _ => rfl, rfl⟩ ⟨rfl, rfl, fun _ => rfl, rfl⟩).mpr
    ⟨by decide +kernel, by decide +kernel, by decide +kernel⟩

/-- A header that names no packet at all. -/
def noneWorld : World := { pairWorld with user := fun _ => 0 }

/-- TAP has nothing to write and succeeds, the driver turns the header away. -/
theorem none_backends_disagree :
    ¬ BackendsAgree lp64 ⟨3, 0, 1⟩ ⟨3, 0, 0⟩ noneWorld 4096 12 0 ⟨some [0xaa], plainRead⟩
      plainWrite := by
  intro agree
  have tap : writeStatus lp64 ⟨3, 0, 1⟩ noneWorld 4096 12 0 plainWrite = KVNET_NO_ERROR := by
    decide +kernel
  have driver : writeStatus lp64 ⟨3, 0, 0⟩ noneWorld 4096 12 0 plainWrite = KVNET_WRITE_ERROR := by
    decide +kernel
  have same := agree.writes.mp tap
  rw [driver] at same
  exact absurd same (by decide)

end Kvnet
