import Kvnet.ReadBatch

/-!
# What a batch write injects

Each frame is compared with the packet in the caller's slot of its number. The loop
looks it up in the kernel's copy of the header, which may be shorter, and through
an int, which is the number of the slot only up to 2^31.
-/

namespace Kvnet

/-- The bytes of the user packet at `pkt`. -/
def packetBytes (user : UserMem) (pkt : Addr) : List UInt8 :=
  loadBytes user (pkt + 4) (loadU32 user pkt).toNat

/-- The frame consists of exactly these bytes: its buffer was allocated for
them, and holds them behind the Ethernet header taken off their front. -/
structure RxSkb.Carries (skb : RxSkb) (bytes : List UInt8) : Prop where
  room : skb.room = UInt32.ofNat bytes.length + NET_IP_ALIGN
  whole : 14 ≤ bytes.length → skb.macHeader ++ skb.data = bytes
  short : bytes.length < 14 → skb.data = bytes

theorem packetBytes_length (user : UserMem) (pkt : Addr) :
    (packetBytes user pkt).length = (loadU32 user pkt).toNat :=
  loadBytes_length user _ _

theorem packetBytes_word (user : UserMem) (pkt : Addr) :
    (packetBytes user pkt).length < 2 ^ 32 := by
  rw [packetBytes_length]
  exact (loadU32 user pkt).toNat_lt

theorem map_getD_range {bytes : List UInt8} {n : Nat} (enough : n ≤ bytes.length)
    (junk : Nat → UInt8) : (List.range n).map (fun j => bytes.getD j (junk j)) = bytes.take n := by
  have lengths : ((List.range n).map fun j => bytes.getD j (junk j)).length =
      (bytes.take n).length := by
    rw [List.length_map, List.length_range, List.length_take, Nat.min_eq_left enough]
  refine List.ext_getElem lengths fun j below _ => ?_
  rw [List.length_map, List.length_range] at below
  rw [List.getElem_map, List.getElem_range, List.getElem_take, List.getD_eq_getElem?_getD,
    List.getElem?_eq_getElem (Nat.lt_of_lt_of_le below enough), Option.getD_some]

theorem ethTypeTrans_macHeader (skb : RxSkb) (junk : Nat → UInt8) :
    (ethTypeTrans skb junk).macHeader = (List.range 14).map fun j => skb.data.getD j (junk j) := rfl

theorem ethTypeTrans_data (skb : RxSkb) (junk : Nat → UInt8) :
    (ethTypeTrans skb junk).data = if 14 ≤ skb.data.length then skb.data.drop 14 else skb.data :=
  rfl

theorem filledSkb_data (user : UserMem) (pkt : Addr) :
    (filledSkb user pkt).data = packetBytes user pkt := rfl

theorem writeFrame_carries (user : UserMem) (pkt : Addr) (junk : Nat → UInt8) :
    (writeFrame user pkt junk).Carries (packetBytes user pkt) := by
  constructor
  · rw [packetBytes_length, UInt32.ofNat_toNat]
    rfl
  · intro enough
    rw [writeFrame_filled, ethTypeTrans_macHeader, ethTypeTrans_data, filledSkb_data,
      map_getD_range enough, if_pos enough, List.take_append_drop]
  · intro few
    rw [writeFrame_filled, ethTypeTrans_data, filledSkb_data, if_neg (by omega)]

/-- A frame consists of one byte string only. -/
theorem RxSkb.Carries.unique {skb : RxSkb} {bytes bytes' : List UInt8} (h : skb.Carries bytes)
    (h' : skb.Carries bytes') (word : bytes.length < 2 ^ 32) (word' : bytes'.length < 2 ^ 32) :
    bytes = bytes' := by
  have rooms : UInt32.ofNat bytes.length = UInt32.ofNat bytes'.length :=
    (UInt32.add_left_inj _).mp (h.room.symm.trans h'.room)
  have lengths : bytes.length = bytes'.length := by
    have nats := congrArg UInt32.toNat rooms
    rwa [UInt32.toNat_ofNat_of_lt' word, UInt32.toNat_ofNat_of_lt' word'] at nats
  by_cases enough : 14 ≤ bytes.length
  · exact (h.whole enough).symm.trans (h'.whole (by omega))
  · exact (h.short (by omega)).symm.trans (h'.short (by omega))

/-- The user packets behind n slots. -/
def userPackets (user : UserMem) (slot : Nat → Addr) (n : Nat) : List (List UInt8) :=
  (List.range n).map fun i => packetBytes user (slot i)

theorem userPackets_succ (user : UserMem) (slot : Nat → Addr) (n : Nat) :
    userPackets user slot (n + 1) =
      packetBytes user (slot 0) :: userPackets user (fun i => slot (i + 1)) n := by
  rw [userPackets, List.range_succ_eq_map, List.map_cons, List.map_map]
  rfl

theorem ioWriteLoop_rxBytes (arch : Arch) (hdr : KvnetHeader) (env : WriteEnv) (w : World)
    (n i : Nat) (ret : Int) (clean : ∀ j, j < n → env.fault (i + j) = none) :
    (ioWriteLoop arch hdr env n i w ret).1.stats.rxBytes = w.stats.rxBytes + UInt32.ofNat
      ((userPackets w.user (fun j => hdr.pkt (toCInt (i + j : Nat))) n).map List.length).sum := by
  induction n generalizing i w ret with
  | zero => simp [ioWriteLoop, userPackets]
  | succ n ih =>
    have later : ∀ j, j < n → env.fault (i + 1 + j) = none := by
      intro j hj
      have shifted := clean (j + 1) (by omega)
      rwa [show i + (j + 1) = i + 1 + j by omega] at shifted
    have shift : (fun j : Nat => hdr.pkt (toCInt (i + (j + 1) : Nat))) =
        fun j : Nat => hdr.pkt (toCInt (i + 1 + j : Nat)) := by
      funext j
      rw [Nat.add_assoc, Nat.add_comm 1 j]
    have written : (writePacket w (hdr.pkt (toCInt i)) (env.junk i)).stats.rxBytes =
        w.stats.rxBytes + loadU32 w.user (hdr.pkt (toCInt i)) := rfl
    have unread : (writePacket w (hdr.pkt (toCInt i)) (env.junk i)).user = w.user := rfl
    rw [ioWriteLoop_next arch hdr env n ret (by simpa using clean 0 (by omega)), ih _ _ _ later,
      written, unread, userPackets_succ, shift, List.map_cons, List.sum_cons, Nat.add_zero i,
      packetBytes_length, UInt32.ofNat_add, UInt32.ofNat_toNat, UInt32.add_assoc]

/-- What a write of n packets, as its caller has named them, leaves behind and
returns; `user` covers the header behind its count. -/
structure BatchWritten (w : World) (iv : List Iovec) (len : Int) (n : Nat) (r : IoResult) :
    Prop where
  frames : ∃ frames, r.world.kernel = { w.kernel with rx := w.kernel.rx ++ frames } ∧
    List.Forall₂ RxSkb.Carries frames
      (userPackets w.user (fun i => (userHeader lp64 w.user iv).pkt i) n)
  stats : r.world.stats = { w.stats with
    rxPackets := w.stats.rxPackets + UInt32.ofNat n
    rxBytes := w.stats.rxBytes + UInt32.ofNat
      ((userPackets w.user (fun i => (userHeader lp64 w.user iv).pkt i) n).map List.length).sum }
  vnet : r.world.vnet = (w.withStats r.world.stats).vnet
  mem : r.world.mem = w.mem
  user : ∀ a : Nat, a ∉ iovAddrs iv 4 → r.world.user a = w.user a
  count : (iovAddrs iv 4).Nodup → gather r.world.user iv 4 = leBytes 4 n
  length : r.ret = lp64.sizeofHeader + ((n - 1) * lp64.ptrSize : Nat)
  within : r.ret ≤ len

/-- The kernel's copy has the caller's count, and the int the loop counts with
finds in it the packet of each of the caller's slots, or one of the same bytes. -/
structure SlotsFound (user : UserMem) (iv : List Iovec) (len : Int) (around : Int → UInt8) :
    Prop where
  count : (copiedHeader lp64 user iv len around).count = (userHeader lp64 user iv).count
  slots : ∀ i : Nat, i < (userHeader lp64 user iv).count.toNat →
    packetBytes user ((copiedHeader lp64 user iv len around).pkt (toCInt i)) =
      packetBytes user ((userHeader lp64 user iv).pkt i)

/-- Slots that are copied are found: there are less than 2^31 of them. -/
theorem slotsFound_of_copied {user : UserMem} {iv : List Iovec} {len : Int} {env : HeaderEnv}
    {hdr : KvnetHeader} (accepted : fetchHeader lp64 user iv len env = .ok hdr)
    (measured : ioDevIovTotal lp64 iv = len) (nonneg : 0 ≤ len)
    (copied : SlotsCopied lp64 len (userHeader lp64 user iv).count.toNat) :
    SlotsFound user iv len env.around := by
  have same := copied_agrees accepted measured nonneg copied
  obtain ⟨served, rfl⟩ := fetchHeader_copies accepted
  have reached := copied served
  rw [show exactHeaderLen lp64 (userHeader lp64 user iv).count.toNat =
    4 + (userHeader lp64 user iv).count.toNat * 8 from rfl] at reached
  have narrow := (toCInt_bounds len).2
  constructor
  · exact same.count
  · intro i named
    rw [toCInt_of_lt (Int.natCast_nonneg i) (by omega), same.slots i named]

theorem batchFrames_carry_iff (hdr hdr' : KvnetHeader) (env : WriteEnv) (user : UserMem) :
    List.Forall₂ RxSkb.Carries (batchFrames hdr env user 0 hdr.count.toNat)
        (userPackets user (fun i => hdr'.pkt i) hdr'.count.toNat) ↔
      hdr.count = hdr'.count ∧ ∀ i : Nat, i < hdr'.count.toNat →
        packetBytes user (hdr.pkt (toCInt i)) = packetBytes user (hdr'.pkt i) := by
  have pairs (n : Nat) : List.Forall₂ RxSkb.Carries (batchFrames hdr env user 0 n)
      (userPackets user (fun i => hdr'.pkt i) n) ↔ ∀ i : Nat, i < n →
        packetBytes user (hdr.pkt (toCInt i)) = packetBytes user (hdr'.pkt i) := by
    rw [batchFrames, userPackets, List.forall₂_map_left_iff, List.forall₂_map_right_iff,
      List.forall₂_same]
    constructor
    · intro carried i named
      have carries := carried i (List.mem_range.mpr named)
      rw [Nat.zero_add] at carries
      exact (writeFrame_carries user _ _).unique carries (packetBytes_word _ _)
        (packetBytes_word _ _)
    · intro found i below
      rw [Nat.zero_add, ← found i (List.mem_range.mp below)]
      exact writeFrame_carries user _ _
  constructor
  · intro carried
    have lengths := carried.length_eq
    rw [batchFrames_length, userPackets, List.length_map, List.length_range] at lengths
    rw [lengths] at carried
    exact ⟨UInt32.toNat_inj.mp lengths, (pairs _).mp carried⟩
  · rintro ⟨count, found⟩
    rw [count]
    exact (pairs _).mpr found

theorem batchWritten_iff {w : World} {iv : List Iovec} {len : Int} {env : WriteEnv}
    {hdr : KvnetHeader} (measured : ioDevIovTotal lp64 iv = len) (nonneg : 0 ≤ len)
    (accepted : fetchHeader lp64 w.user iv len env.header = .ok hdr)
    (clean : ∀ i, i < hdr.count.toNat → env.fault i = none) (written : env.toIovec = none) :
    BatchWritten w iv len (userHeader lp64 w.user iv).count.toNat
        (ioWriteFromIovec lp64 w iv len env) ↔
      SlotsFound w.user iv len env.header.around := by
  have positive := count_pos (fetchHeader_ok accepted).1
  have bound : hdr.count.toNat < 2 ^ 32 := hdr.count.toNat_lt
  obtain ⟨fits, behind⟩ := lp64_header_fits accepted measured nonneg
  obtain ⟨_, copy⟩ := fetchHeader_copies accepted
  have quiet : ∀ j, j < hdr.count.toNat → env.fault (0 + j) = none := by simpa using clean
  obtain ⟨counted, moved⟩ := ioWriteLoop_clean lp64 hdr env w hdr.count.toNat 0 quiet
    lp64.toSsizeT_zero.symm
  have bytes := ioWriteLoop_rxBytes lp64 hdr env w hdr.count.toNat 0 0 quiet
  have carry := batchFrames_carry_iff hdr (userHeader lp64 w.user iv) env w.user
  rw [ioWriteFromIovec_accepted accepted, counted, written, Nat.zero_add,
    lp64_reportCount _ iv positive bound]
  generalize (ioWriteLoop lp64 hdr env hdr.count.toNat 0 w 0).1 = after at bytes moved
  constructor
  · intro batch
    obtain ⟨frames, rx, carried⟩ := batch.frames
    have same : frames = batchFrames hdr env w.user 0 hdr.count.toNat :=
      List.append_cancel_left (congrArg Kernel.rx (rx.symm.trans moved.rx))
    obtain ⟨count, slots⟩ := carry.mp (same ▸ carried)
    exact ⟨copy ▸ count, copy ▸ slots⟩
  · rintro ⟨count, found⟩
    rw [← copy] at count found
    have slots : userPackets w.user (fun j => hdr.pkt (toCInt (0 + j : Nat))) hdr.count.toNat =
        userPackets w.user (fun i => (userHeader lp64 w.user iv).pkt i) hdr.count.toNat := by
      refine List.map_congr_left fun i below => ?_
      simp only [Nat.zero_add]
      exact found i (count ▸ List.mem_range.mp below)
    have told : after.stats = { w.stats with
        rxPackets := w.stats.rxPackets +
          UInt32.ofNat (batchFrames hdr env w.user 0 hdr.count.toNat).length
        rxBytes := after.stats.rxBytes } := congrArg (fun v => v.netDev.stats) moved.vnet
    have stats := told
    rw [batchFrames_length, bytes, slots] at stats
    rw [← count]
    constructor
    · exact ⟨_, moved.rx, count ▸ carry.mpr ⟨count, found⟩⟩
    · exact stats
    · exact moved.vnet.trans (congrArg (fun st => (w.withStats st).vnet) told).symm
    · exact moved.mem
    · intro a outside
      have unscattered := scatter_leBytes_outside after.user iv 4 hdr.count.toNat outside
      exact unscattered.trans (congrFun moved.user a)
    · intro distinct
      exact gather_leBytes after.user iv 4 _ (Nat.le_trans (by omega) behind) distinct
    · rfl
    · simp only [Arch.sizeofHeader, lp64]
      omega

/-- A write that succeeds has injected every frame it was to inject. -/
theorem ioWriteFromIovec_success {arch : Arch} {w : World} {iv : List Iovec} {len : Int}
    {env : WriteEnv} (success : 0 ≤ (ioWriteFromIovec arch w iv len env).ret) :
    ∃ hdr, fetchHeader arch w.user iv len env.header = .ok hdr ∧
      (ioWriteFromIovec arch w iv len env).world.kernel.rx =
        w.kernel.rx ++ batchFrames hdr env w.user 0 hdr.count.toNat := by
  cases accepted : fetchHeader arch w.user iv len env.header with
  | error e =>
    simp only [ioWriteFromIovec, accepted] at success
    exact absurd success (Int.not_le.mpr (fetchHeader_error accepted))
  | ok hdr =>
    refine ⟨hdr, rfl, ?_⟩
    rw [ioWriteFromIovec_accepted accepted] at success ⊢
    rcases clean_or_first env.fault hdr.count.toNat with clean | ⟨j, f, inside, before, struck⟩
    · obtain ⟨_, moved⟩ := ioWriteLoop_clean arch hdr env w hdr.count.toNat 0
        (by simpa using clean) arch.toSsizeT_zero.symm
      rw [reportCount_kernel, moved.rx]
    · obtain ⟨failed, _⟩ := ioWriteLoop_fault arch hdr env w hdr.count.toNat 0 0 inside
        (by simpa using before) (by simpa using struck)
      have negative := f.error_neg
      rw [failed, reportCount_error arch _ iv env.toIovec negative] at success
      exact absurd success (Int.not_le.mpr negative)

/-- A batch write is functionally correct exactly when it finds the caller's slots,
as it does when they are copied, and in any case a write that succeeds injects as
many frames as the copy names, which is the caller's count once that is copied. -/
theorem batch_write_iff (w : World) (iv : List Iovec) (len : Int) (env : WriteEnv) :
    (∀ hdr, ioDevIovTotal lp64 iv = len → 0 ≤ len →
      fetchHeader lp64 w.user iv len env.header = .ok hdr →
      (∀ i, i < hdr.count.toNat → env.fault i = none) → env.toIovec = none →
      ((BatchWritten w iv len (userHeader lp64 w.user iv).count.toNat
          (ioWriteFromIovec lp64 w iv len env) ↔ SlotsFound w.user iv len env.header.around) ∧
        (SlotsCopied lp64 len (userHeader lp64 w.user iv).count.toNat →
          SlotsFound w.user iv len env.header.around))) ∧
    (0 ≤ (ioWriteFromIovec lp64 w iv len env).ret →
      ∃ hdr frames, fetchHeader lp64 w.user iv len env.header = .ok hdr ∧
        (ioWriteFromIovec lp64 w iv len env).world.kernel.rx = w.kernel.rx ++ frames ∧
        frames.length = hdr.count.toNat ∧
        (ioDevIovTotal lp64 iv = len → 0 ≤ len → 4 ≤ toCInt len →
          hdr.count = (userHeader lp64 w.user iv).count)) := by
  constructor
  · intro hdr measured nonneg accepted clean written
    exact ⟨batchWritten_iff measured nonneg accepted clean written,
      slotsFound_of_copied accepted measured nonneg⟩
  · intro success
    obtain ⟨hdr, accepted, rx⟩ := ioWriteFromIovec_success success
    refine ⟨hdr, _, accepted, rx, batchFrames_length hdr env w.user 0 _, ?_⟩
    intro measured nonneg counted
    have copied : SlotsCopied lp64 len 0 := fun _ => counted
    exact (copied_agrees accepted measured nonneg copied).count

def batchHeader : KvnetHeader := userHeader lp64 batchWorld.user [⟨4096, 20⟩]

theorem batch_write_batch :
    BatchWritten batchWorld [⟨4096, 20⟩] 20 2 (batchWrite fun _ => none) := by
  obtain ⟨iff, found⟩ := (batch_write_iff batchWorld [⟨4096, 20⟩] 20
    ⟨⟨true, false, fun _ => 0⟩, fun _ => none, fun _ _ => 0, none⟩).1 batchHeader rfl (by decide)
    rfl (fun _ _ => rfl) rfl
  exact iff.mpr (found (by decide +kernel))

/-- The header of `wideWorld` again: it names packets of three and of two bytes, and
the third one, at 2^35, has five. -/
def wideBatch : World :=
  { batchWorld with
    user := storeU32 (storeU32 (storeU32 wideWorld.user (2 ^ 33) 3) (2 ^ 34) 2) (2 ^ 35) 5 }

/-- The second frame is made of the third packet. -/
theorem wide_write_misses :
    ¬ ∀ hdr, fetchHeader lp64 wideBatch.user [⟨4096, 2 ^ 32 + 12⟩] (2 ^ 32 + 12) wideEnv =
        .ok hdr →
      BatchWritten wideBatch [⟨4096, 2 ^ 32 + 12⟩] (2 ^ 32 + 12)
        (userHeader lp64 wideBatch.user [⟨4096, 2 ^ 32 + 12⟩]).count.toNat
        (ioWriteFromIovec lp64 wideBatch [⟨4096, 2 ^ 32 + 12⟩] (2 ^ 32 + 12)
          ⟨wideEnv, fun _ => none, fun _ _ => 0, none⟩) := by
  intro written
  have found := (batchWritten_iff (by decide) (by decide) rfl (fun _ _ => rfl) rfl).mp
    (written _ rfl)
  have front : gather wideBatch.user [⟨4096, 2 ^ 32 + 12⟩] 20 <+:
      gather wideBatch.user [⟨4096, 2 ^ 32 + 12⟩] (iovBytes [⟨4096, 2 ^ 32 + 12⟩]) :=
    gather_shorter _ _ (by decide)
  have named : KvnetHeader.Agrees (headerAt lp64 (gather wideBatch.user [⟨4096, 2 ^ 32 + 12⟩] 20)
      fun _ => 0) (userHeader lp64 wideBatch.user [⟨4096, 2 ^ 32 + 12⟩]) 2 :=
    headerAt_agrees front (by decide +kernel)
  have lengths := congrArg List.length (found.slots 1 (by rw [← named.count]; decide +kernel))
  rw [packetBytes_length, packetBytes_length, ← named.slots 1 (by decide)] at lengths
  exact absurd lengths (by decide +kernel)

/-- The frame's Ethernet header consists of the first bytes of a packet, and has
been taken off them. -/
structure RxSkb.HeaderFrom (skb : RxSkb) (bytes : List UInt8) : Prop where
  header : skb.macHeader = bytes.take 14
  removed : skb.data = bytes.drop 14

theorem writeFrame_headerFrom_iff (user : UserMem) (pkt : Addr) (junk : Nat → UInt8) :
    (writeFrame user pkt junk).HeaderFrom (packetBytes user pkt) ↔
      14 ≤ (loadU32 user pkt).toNat := by
  rw [← packetBytes_length]
  constructor
  · intro taken
    have lengths := congrArg List.length taken.header
    rw [writeFrame_filled, ethTypeTrans_macHeader, List.length_map, List.length_range,
      List.length_take] at lengths
    omega
  · intro enough
    constructor
    · rw [writeFrame_filled, ethTypeTrans_macHeader, filledSkb_data, map_getD_range enough]
    · rw [writeFrame_filled, ethTypeTrans_data, filledSkb_data, if_pos enough]

/-- The packets a write injects are those named before the first that fails. -/
theorem ioWriteFromIovec_injects {arch : Arch} {w : World} {iv : List Iovec} {len : Int}
    {env : WriteEnv} {hdr : KvnetHeader}
    (accepted : fetchHeader arch w.user iv len env.header = .ok hdr) :
    ∃ n, (ioWriteFromIovec arch w iv len env).world.kernel.rx =
        w.kernel.rx ++ batchFrames hdr env w.user 0 n ∧
      ∀ i, i < n ↔ i < hdr.count.toNat ∧ ∀ j, j ≤ i → env.fault j = none := by
  rw [ioWriteFromIovec_accepted accepted]
  rcases clean_or_first env.fault hdr.count.toNat with clean | ⟨n, f, inside, before, struck⟩
  · obtain ⟨_, moved⟩ := ioWriteLoop_clean arch hdr env w hdr.count.toNat 0
      (by simpa using clean) arch.toSsizeT_zero.symm
    refine ⟨hdr.count.toNat, by rw [reportCount_kernel, moved.rx], fun i => ⟨?_, And.left⟩⟩
    intro named
    exact ⟨named, fun j upTo => clean j (by omega)⟩
  · obtain ⟨_, moved⟩ := ioWriteLoop_fault arch hdr env w hdr.count.toNat 0 0 inside
      (by simpa using before) (by simpa using struck)
    refine ⟨n, by rw [reportCount_kernel, moved.rx], fun i => ⟨fun below => ?_, ?_⟩⟩
    · exact ⟨by omega, fun j upTo => before j (by omega)⟩
    · rintro ⟨_, unstruck⟩
      by_contra beyond
      rw [unstruck n (Nat.le_of_not_lt beyond)] at struck
      cases struck

/-- Every frame a write delivers has its Ethernet header from its user packet
exactly when no packet that is injected is shorter than that header. -/
theorem write_headers_iff (arch : Arch) (w : World) (iv : List Iovec) (len : Int) (env : WriteEnv)
    (hdr : KvnetHeader) (accepted : fetchHeader arch w.user iv len env.header = .ok hdr) :
    (∀ i skb, (ioWriteFromIovec arch w iv len env).world.kernel.rx[w.kernel.rx.length + i]? =
        some skb → skb.HeaderFrom (packetBytes w.user (hdr.pkt (toCInt i)))) ↔
      ∀ i : Nat, i < hdr.count.toNat → (∀ j, j ≤ i → env.fault j = none) →
        14 ≤ (loadU32 w.user (hdr.pkt (toCInt i))).toNat := by
  obtain ⟨n, rx, injected⟩ := ioWriteFromIovec_injects accepted
  have delivered : ∀ i skb,
      (ioWriteFromIovec arch w iv len env).world.kernel.rx[w.kernel.rx.length + i]? = some skb ↔
        i < n ∧ writeFrame w.user (hdr.pkt (toCInt i)) (env.junk i) = skb := by
    intro i skb
    rw [rx, List.getElem?_append_right (Nat.le_add_right _ i), Nat.add_sub_cancel_left, batchFrames,
      List.getElem?_map]
    simp only [Nat.zero_add, Option.map_eq_some_iff]
    by_cases below : i < n
    · simp only [List.getElem?_range below, Option.some.injEq, exists_eq_left', below, true_and]
    · rw [List.getElem?_eq_none (by simpa using below)]
      refine iff_of_false ?_ fun found => below found.1
      rintro ⟨_, found, _⟩
      cases found
  constructor
  · intro headers i named unstruck
    have below := (injected i).mpr ⟨named, unstruck⟩
    exact (writeFrame_headerFrom_iff w.user _ _).mp
      (headers i _ ((delivered i _).mpr ⟨below, rfl⟩))
  · intro long i skb found
    obtain ⟨below, rfl⟩ := (delivered i skb).mp found
    obtain ⟨named, unstruck⟩ := (injected i).mp below
    exact (writeFrame_headerFrom_iff w.user _ _).mpr (long i named unstruck)

/-- The header at 4096 names one user packet, which is an Ethernet header. -/
def frameWorld : World :=
  { batchWorld with
    user := storeBytes (storeBytes (fun _ => 0) 4096 (leBytes 4 1 ++ leBytes 8 8192)) 8192
      (leBytes 4 14) }

theorem write_headers_frame :
    (writeFrame frameWorld.user 8192 fun _ => 0).HeaderFrom (packetBytes frameWorld.user 8192) := by
  have headers := (write_headers_iff lp64 frameWorld [⟨4096, 12⟩] 12
    ⟨⟨true, false, fun _ => 0⟩, fun _ => none, fun _ _ => 0, none⟩ _ rfl).mpr
    (by
      intro i named _
      obtain rfl : i = 0 := Nat.lt_one_iff.mp named
      decide +kernel)
  exact headers 0 _ rfl

/-- The packet of three bytes becomes a frame whose header is mostly made up of
what the kernel's memory held. -/
theorem short_frame_made_up :
    ¬ ∀ hdr, fetchHeader lp64 batchWorld.user [⟨4096, 20⟩] 20 ⟨true, false, fun _ => 0⟩ = .ok hdr →
      ∀ i skb, (batchWrite fun _ => none).world.kernel.rx[0 + i]? = some skb →
        skb.HeaderFrom (packetBytes batchWorld.user (hdr.pkt (toCInt i))) := by
  intro headers
  have first := headers _ rfl 0 _ rfl
  have long := (writeFrame_headerFrom_iff _ _ _).mp first
  exact absurd long (by decide +kernel)

end Kvnet
