import Kvnet.UserHeader

/-!
# What a batch read delivers

The memory side of a read: the packets are filled one after the other, and when
they do not overlap each one ends up as if it had been filled alone. Together
with what the loop does to the queue this determines the read.
-/

namespace Kvnet

/-- How many bytes of a buffer a user packet takes. -/
def share (user : UserMem) (pkt : Addr) (data : List UInt8) : UInt32 :=
  min (UInt32.ofNat data.length) (loadU32 user pkt)

/-- User memory once the packet has its data and its data_len. -/
def fillUser (user : UserMem) (pkt : Addr) (data : List UInt8) : UserMem :=
  let len := share user pkt data
  storeU32 (storeBytes user (pkt + 4) (data.take len.toNat)) pkt len

theorem readPacket_user (w : World) (pkt skb : Addr) :
    (readPacket w pkt skb none).1.user = fillUser w.user pkt (w.mem.cell skb).data := rfl

theorem readPacket_txBytes (w : World) (pkt skb : Addr) :
    (readPacket w pkt skb none).1.stats.txBytes =
      w.stats.txBytes + share w.user pkt (w.mem.cell skb).data := rfl

section Share

variable (user : UserMem) (pkt : Nat) (data : List UInt8)

theorem share_le_capacity : (share user pkt data).toNat ≤ (loadU32 user pkt).toNat := by
  rw [share, UInt32.toNat_min]
  exact Nat.min_le_right _ _

theorem share_le_length : (share user pkt data).toNat ≤ data.length := by
  rw [share, UInt32.toNat_min]
  refine Nat.le_trans (Nat.min_le_left _ _) ?_
  rw [UInt32.toNat_ofNat']
  exact Nat.mod_le _ _

theorem taken_length : (data.take (share user pkt data).toNat).length =
    (share user pkt data).toNat := by
  rw [List.length_take, Nat.min_eq_left (share_le_length user pkt data)]

theorem fillUser_outside {x : Nat}
    (outside : x < pkt ∨ pkt + 4 + (share user pkt data).toNat ≤ x) :
    fillUser user pkt data x = user x := by
  rw [fillUser, storeU32_outside _ (by omega), storeBytes_outside]
  rw [taken_length]
  omega

theorem fillUser_dataLen : loadU32 (fillUser user pkt data) pkt = share user pkt data :=
  loadU32_storeU32 _ _ _

theorem fillUser_data :
    loadBytes (fillUser user pkt data) (pkt + 4) (share user pkt data).toNat =
      data.take (share user pkt data).toNat := by
  have behind : loadBytes (fillUser user pkt data) (pkt + 4) (share user pkt data).toNat =
      loadBytes (storeBytes user (pkt + 4) (data.take (share user pkt data).toNat)) (pkt + 4)
        (share user pkt data).toNat := by
    refine loadBytes_congr fun x above _ => ?_
    exact storeU32_outside _ (Or.inr above)
  have stored := loadBytes_storeBytes user (pkt + 4) (data.take (share user pkt data).toNat)
  rw [taken_length] at stored
  rw [behind, stored]

end Share

/-- The user packets at p and q, with all the room they have, do not overlap. -/
def Apart (user : UserMem) (p q : Nat) : Prop :=
  p + 4 + (loadU32 user p).toNat ≤ q ∨ q + 4 + (loadU32 user q).toNat ≤ p

/-- The address a lies outside the user packet at p. -/
def Outside (user : UserMem) (p a : Nat) : Prop :=
  a < p ∨ p + 4 + (loadU32 user p).toNat ≤ a

/-- Packets filled in order, and the number of bytes they took. -/
def fillAll : UserMem → List (Nat × List UInt8) → UserMem
  | user, [] => user
  | user, (pkt, data) :: ps => fillAll (fillUser user pkt data) ps

def fillBytes : UserMem → List (Nat × List UInt8) → UInt32
  | _, [] => 0
  | user, (pkt, data) :: ps => share user pkt data + fillBytes (fillUser user pkt data) ps

/-- Each packet holds what it takes of its buffer, and nothing else is written. -/
structure Filled (user user' : UserMem) (ps : List (Nat × List UInt8)) : Prop where
  dataLen : ∀ p ∈ ps, loadU32 user' p.1 = share user p.1 p.2
  data : ∀ p ∈ ps, loadBytes user' (p.1 + 4) (share user p.1 p.2).toNat =
    p.2.take (share user p.1 p.2).toNat
  frame : ∀ x : Nat, (∀ p ∈ ps, x < p.1 ∨ p.1 + 4 + (share user p.1 p.2).toNat ≤ x) →
    user' x = user x

/-- What a packet beside the one just filled holds and takes is as before. -/
theorem fillUser_apart {user : UserMem} {pkt q : Nat} (apart : Apart user pkt q)
    (data : List UInt8) : loadU32 (fillUser user pkt data) q = loadU32 user q := by
  have upTo := share_le_capacity user pkt data
  refine loadU32_congr fun x above below => fillUser_outside user pkt data ?_
  rcases apart with first | second
  · exact Or.inr (by omega)
  · exact Or.inl (by omega)

/-- Packets that do not overlap are filled as if each were alone. -/
theorem fillAll_filled {user : UserMem} {ps : List (Nat × List UInt8)}
    (apart : ps.Pairwise fun p q => Apart user p.1 q.1) :
    Filled user (fillAll user ps) ps ∧
      fillBytes user ps =
        UInt32.ofNat ((ps.map fun p => (share user p.1 p.2).toNat).sum) := by
  induction ps generalizing user with
  | nil => exact ⟨⟨nofun, nofun, fun _ _ => rfl⟩, rfl⟩
  | cons p ps ih =>
    obtain ⟨pkt, data⟩ := p
    obtain ⟨beside, later⟩ := List.pairwise_cons.mp apart
    have kept : ∀ q ∈ ps, loadU32 (fillUser user pkt data) q.1 = loadU32 user q.1 :=
      fun q hq => fillUser_apart (beside q hq) data
    have shares : ∀ q ∈ ps, share (fillUser user pkt data) q.1 q.2 = share user q.1 q.2 := by
      intro q hq
      rw [share, kept q hq, share]
    have later' : ps.Pairwise fun p q => Apart (fillUser user pkt data) p.1 q.1 := by
      refine later.imp_of_mem fun {p q} hp hq h => ?_
      rwa [Apart, kept p hp, kept q hq]
    obtain ⟨filled, bytes⟩ := ih later'
    -- no later packet reaches into this one
    have settled : ∀ x : Nat, pkt ≤ x → x < pkt + 4 + (share user pkt data).toNat →
        fillAll (fillUser user pkt data) ps x = fillUser user pkt data x := by
      intro x above below
      refine filled.frame x fun q hq => ?_
      rw [shares q hq]
      have upTo := share_le_capacity user pkt data
      have upTo' := share_le_capacity user q.1 q.2
      rcases beside q hq with first | second
      · exact Or.inl (by simp only at first; omega)
      · exact Or.inr (by simp only at second; omega)
    refine ⟨⟨fun q hq => ?_, fun q hq => ?_, fun x outside => ?_⟩, ?_⟩
    · rcases List.mem_cons.mp hq with rfl | rest
      · rw [fillAll, loadU32_congr fun x above below => settled x above (by omega)]
        exact fillUser_dataLen user pkt data
      · rw [fillAll, filled.dataLen q rest, shares q rest]
    · rcases List.mem_cons.mp hq with rfl | rest
      · rw [fillAll, loadBytes_congr fun x above below => settled x (by omega) below]
        exact fillUser_data user pkt data
      · have there := filled.data q rest
        rwa [shares q rest] at there
    · have beyond : ∀ q ∈ ps, x < q.1 ∨
          q.1 + 4 + (share (fillUser user pkt data) q.1 q.2).toNat ≤ x := by
        intro q hq
        rw [shares q hq]
        exact outside q (List.mem_cons_of_mem _ hq)
      rw [fillAll, filled.frame x beyond]
      exact fillUser_outside user pkt data (outside (pkt, data) List.mem_cons_self)
    · rw [fillBytes, bytes, List.map_cons, List.sum_cons, UInt32.ofNat_add, UInt32.ofNat_toNat]
      congr 2
      exact congrArg List.sum (List.map_congr_left fun q hq => by rw [shares q hq])

/-- The user packets from index i on with the data of the buffers they are for. -/
def batch (hdr : KvnetHeader) (mem : SkbMem) (i : Nat) (xs : List Addr) :
    List (Nat × List UInt8) :=
  xs.mapIdx fun j x => (hdr.pkt (i + j : Nat), (mem.cell x).data)

theorem batch_cons (hdr : KvnetHeader) (mem : SkbMem) (i : Nat) (x : Addr) (xs : List Addr) :
    batch hdr mem i (x :: xs) =
      (hdr.pkt i, (mem.cell x).data) :: batch hdr mem (i + 1) xs := by
  rw [batch, List.mapIdx_cons, batch]
  simp only [Nat.add_zero, Nat.add_assoc, Nat.add_comm 1]

theorem batch_congr {hdr : KvnetHeader} {mem mem' : SkbMem} {i : Nat} {xs : List Addr}
    (same : ∀ x, (mem'.cell x).data = (mem.cell x).data) :
    batch hdr mem' i xs = batch hdr mem i xs := by
  simp only [batch, same]

/-- Headers that agree on the packets for the buffers fill the same batch. -/
theorem batch_agrees {hdr hdr' : KvnetHeader} {k : Nat} (same : hdr.Agrees hdr' k) (mem : SkbMem)
    {xs : List Addr} (few : xs.length ≤ k) : batch hdr mem 0 xs = batch hdr' mem 0 xs := by
  refine List.ext_getElem (by simp only [batch, List.length_mapIdx]) fun j below _ => ?_
  rw [batch, List.length_mapIdx] at below
  simp only [batch, List.getElem_mapIdx, Nat.zero_add]
  rw [same.slots j (by omega)]

section Loop

variable (arch : Arch) (hdr : KvnetHeader) (fault : Nat → Option FillFault)

/-- Without a fault the loop fills the packets with the first buffers of the queue. -/
theorem ioReadLoop_fills {w : World} {xs : List Addr} (n i : Nat) (ret : Int)
    (h : Represents w.mem w.queue xs) (clean : ∀ j, j < min n xs.length → fault (i + j) = none) :
    (ioReadLoop arch hdr fault n i w ret).1.user =
        fillAll w.user (batch hdr w.mem i (xs.take n)) ∧
      (ioReadLoop arch hdr fault n i w ret).1.stats.txBytes =
        w.stats.txBytes + fillBytes w.user (batch hdr w.mem i (xs.take n)) := by
  induction n generalizing i w ret xs with
  | zero => exact ⟨rfl, by simp [ioReadLoop, batch, fillBytes]⟩
  | succ n ih =>
    cases xs with
    | nil =>
      rw [ioReadLoop_empty arch hdr fault h]
      exact ⟨rfl, by simp [batch, fillBytes]⟩
    | cons x xs =>
      have first : fault i = none := by simpa using clean 0 (by simp)
      rw [ioReadLoop_next arch hdr fault h n ret first]
      have taken := packet_taken h (readPacket_ok w.queueRemove.2 (hdr.pkt i) x).2
      have later : ∀ j, j < min n xs.length → fault (i + 1 + j) = none := by
        intro j hj
        have shifted := clean (j + 1) (by simp only [List.length_cons]; omega)
        rwa [show i + (j + 1) = i + 1 + j by omega] at shifted
      obtain ⟨users, bytes⟩ := ih (i + 1) (arch.toSsizeT (ret + 1)) taken.represents later
      have here : ((w.queueRemove.2.mem).cell x).data = (w.mem.cell x).data :=
        queueRemove_data w.mem w.queue x
      rw [users, bytes, batch_congr taken.data, readPacket_user, readPacket_txBytes, here,
        List.take_succ_cons, batch_cons, fillAll, fillBytes, UInt32.add_assoc]
      exact ⟨rfl, rfl⟩

end Loop

/-- The user packets a header names overlap neither each other nor the header. -/
structure PacketsApart (user : UserMem) (iv : List Iovec) (len : Int) (hdr : KvnetHeader) :
    Prop where
  packets : ∀ i j : Nat, i < j → j < hdr.count.toNat → Apart user (hdr.pkt i) (hdr.pkt j)
  header : ∀ i : Nat, i < hdr.count.toNat → ∀ a ∈ iovAddrs iv len.toNat,
    Outside user (hdr.pkt i) a

/-- What a read of the first k buffers of a queue leaves behind and returns, by
the packets its caller has named. Its `user` covers the packets after the k-th,
the header behind its count, and the capacity a packet has left; `count` is read
back from wherever the first four bytes of the header are. -/
structure BatchRead (w : World) (iv : List Iovec) (len : Int) (xs : List Addr) (k : Nat)
    (r : IoResult) : Prop where
  queue : Represents r.world.mem r.world.queue (xs.drop k)
  buffers : ∀ x, (r.world.mem.cell x).data = (w.mem.cell x).data
  dataLen : ∀ p ∈ batch (userHeader lp64 w.user iv) w.mem 0 (xs.take k),
    loadU32 r.world.user p.1 = share w.user p.1 p.2
  data : ∀ p ∈ batch (userHeader lp64 w.user iv) w.mem 0 (xs.take k),
    loadBytes r.world.user (p.1 + 4) (share w.user p.1 p.2).toNat =
      p.2.take (share w.user p.1 p.2).toNat
  user : ∀ a : Nat, a ∉ iovAddrs iv 4 →
    (∀ p ∈ batch (userHeader lp64 w.user iv) w.mem 0 (xs.take k),
      a < p.1 ∨ p.1 + 4 + (share w.user p.1 p.2).toNat ≤ a) →
    r.world.user a = w.user a
  count : (iovAddrs iv 4).Nodup → gather r.world.user iv 4 = leBytes 4 k
  stats : r.world.stats = { w.stats with
    txPackets := w.stats.txPackets + UInt32.ofNat k
    txBytes := w.stats.txBytes + UInt32.ofNat
      (((batch (userHeader lp64 w.user iv) w.mem 0 (xs.take k)).map fun p =>
        (share w.user p.1 p.2).toNat).sum) }
  length : r.ret = lp64.sizeofHeader + ((k - 1) * lp64.ptrSize : Nat)
  within : r.ret ≤ len

theorem batch_mem {hdr : KvnetHeader} {mem : SkbMem} {xs : List Addr} {p : Nat × List UInt8}
    (h : p ∈ batch hdr mem 0 xs) :
    ∃ i : Nat, i < xs.length ∧ p.1 = hdr.pkt i := by
  obtain ⟨i, below, hi⟩ := List.mem_mapIdx.mp h
  exact ⟨i, below, by rw [← hi, Nat.zero_add]⟩

theorem batch_pairwise {user : UserMem} {iv : List Iovec} {len : Int} {hdr : KvnetHeader}
    (apart : PacketsApart user iv len hdr) (mem : SkbMem) {xs : List Addr}
    (named : xs.length ≤ hdr.count.toNat) :
    (batch hdr mem 0 xs).Pairwise fun p q => Apart user p.1 q.1 := by
  refine List.pairwise_iff_getElem.mpr fun i j hi hj before => ?_
  rw [batch, List.length_mapIdx] at hj
  simp only [batch, List.getElem_mapIdx, Nat.zero_add]
  exact apart.packets i j before (by omega)

/-- A header that a 64-bit kernel accepted lies behind the iovecs it was
measured by. -/
theorem lp64_header_fits {user : UserMem} {iv : List Iovec} {len : Int} {env : HeaderEnv}
    {hdr : KvnetHeader} (accepted : fetchHeader lp64 user iv len env = .ok hdr)
    (measured : ioDevIovTotal lp64 iv = len) (nonneg : 0 ≤ len) :
    4 + hdr.count.toNat * 8 ≤ len.toNat ∧ len.toNat ≤ iovBytes iv := by
  obtain ⟨nonzero, checked⟩ := fetchHeader_ok accepted
  rw [headerLen_eq lp64 nonzero, Nat.mod_eq_of_lt (lp64_exactHeaderLen hdr.count)] at checked
  rcases lp64.toSsizeT_natCast (iovBytes iv) with ⟨kept, low⟩ | ⟨negative, _⟩
  · have total : len = (iovBytes iv % 2 ^ 64 : Nat) := by
      rw [← measured, ioDevIovTotal_eq, kept]
      rfl
    have upTo := Nat.mod_le (iovBytes iv) (2 ^ 64)
    have word : len < 2 ^ lp64.wordBits := by
      have below : iovBytes iv % 2 ^ 64 < 2 ^ 63 := low
      simp only [lp64]
      omega
    rw [lp64.toSizeT_of_lt nonneg word] at checked
    exact ⟨checked, by omega⟩
  · rw [← ioDevIovTotal_eq, measured] at negative
    omega

/-- A request below 2^31 bytes has every slot of its header copied. -/
theorem short_agrees {user : UserMem} {iv : List Iovec} {len : Int} {env : HeaderEnv}
    {hdr : KvnetHeader} (accepted : fetchHeader lp64 user iv len env = .ok hdr)
    (measured : ioDevIovTotal lp64 iv = len) (nonneg : 0 ≤ len) (short : len < 2 ^ 31) :
    hdr.Agrees (userHeader lp64 user iv) hdr.count.toNat := by
  obtain ⟨fits, _⟩ := lp64_header_fits accepted measured nonneg
  refine copied_agrees accepted measured nonneg (slotsCopied_of_inside nonneg short ?_)
  rw [show exactHeaderLen lp64 hdr.count.toNat = 4 + hdr.count.toNat * 8 from rfl]
  omega

/-- Without a fault a read fills the packets named in its copy of the header, and
writes their number back. -/
theorem ioReadToIovec_fills {w : World} {iv : List Iovec} {len : Int} {env : ReadEnv}
    {hdr : KvnetHeader} {xs : List Addr} {k : Nat} (rep : Represents w.mem w.queue xs)
    (nonempty : xs ≠ []) (accepted : fetchHeader lp64 w.user iv len env.header = .ok hdr)
    (smaller : k = min hdr.count.toNat xs.length) (quiet : ∀ j, j < k → env.fault j = none)
    (written : env.toIovec = none) :
    ∃ after, Taken w after (xs.take k) (xs.drop k) k ∧
      after.user = fillAll w.user (batch hdr w.mem 0 (xs.take k)) ∧
      after.stats.txBytes =
        w.stats.txBytes + fillBytes w.user (batch hdr w.mem 0 (xs.take k)) ∧
      ioReadToIovec lp64 w iv len env =
        ⟨after.withUser (scatter after.user iv (leBytes 4 k)),
          lp64.sizeofHeader + ((k - 1) * lp64.ptrSize : Nat), some (UInt32.ofNat k)⟩ := by
  have positive := count_pos (fetchHeader_ok accepted).1
  have bound : hdr.count.toNat < 2 ^ 32 := hdr.count.toNat_lt
  have some_queued : 0 < xs.length := List.length_pos_iff.mpr nonempty
  have quiet' : ∀ j, j < min hdr.count.toNat xs.length → env.fault (0 + j) = none := by
    intro j hj
    rw [Nat.zero_add]
    exact quiet j (smaller ▸ hj)
  obtain ⟨users, bytes⟩ := ioReadLoop_fills lp64 hdr env.fault hdr.count.toNat 0 0 rep quiet'
  obtain ⟨_, moved⟩ := ioReadLoop_clean lp64 hdr env.fault hdr.count.toNat 0 rep quiet'
    lp64.toSsizeT_zero.symm
  have counted := ioReadLoop_count lp64 hdr env.fault rep bound (by simpa using quiet') nonempty
  have first : xs.take hdr.count.toNat = xs.take k := by rw [List.take_eq_take_min, smaller]
  have rest : xs.drop hdr.count.toNat = xs.drop k := by rw [List.drop_eq_drop_min, smaller]
  rw [first] at users bytes moved
  rw [rest, ← smaller] at moved
  refine ⟨_, moved, users, bytes, ?_⟩
  rw [ioReadToIovec_accepted accepted, counted, ← smaller, written]
  exact lp64_reportCount _ iv (by omega) (by omega)

/-- A read whose copy agrees with the caller's header is a batch read. -/
theorem batchRead_of_agrees {w : World} {iv : List Iovec} {len : Int} {env : ReadEnv}
    {hdr : KvnetHeader} {xs : List Addr} {k : Nat} (rep : Represents w.mem w.queue xs)
    (nonempty : xs ≠ []) (measured : ioDevIovTotal lp64 iv = len) (nonneg : 0 ≤ len)
    (accepted : fetchHeader lp64 w.user iv len env.header = .ok hdr)
    (smaller : k = min hdr.count.toNat xs.length) (quiet : ∀ j, j < k → env.fault j = none)
    (written : env.toIovec = none) (same : hdr.Agrees (userHeader lp64 w.user iv) k)
    (apart : PacketsApart w.user iv len (userHeader lp64 w.user iv)) :
    BatchRead w iv len xs k (ioReadToIovec lp64 w iv len env) := by
  have some_queued : 0 < xs.length := List.length_pos_iff.mpr nonempty
  have positive := count_pos (fetchHeader_ok accepted).1
  have bound : hdr.count.toNat < 2 ^ 32 := hdr.count.toNat_lt
  obtain ⟨fits, behind⟩ := lp64_header_fits accepted measured nonneg
  obtain ⟨after, moved, users, bytes, result⟩ :=
    ioReadToIovec_fills rep nonempty accepted smaller quiet written
  rw [batch_agrees same w.mem (List.length_take_le k xs)] at users bytes
  have counts : (userHeader lp64 w.user iv).count.toNat = hdr.count.toNat := by rw [same.count]
  have named : (xs.take k).length ≤ (userHeader lp64 w.user iv).count.toNat := by
    rw [List.length_take, counts]
    omega
  obtain ⟨filled, sum⟩ := fillAll_filled (batch_pairwise apart w.mem named)
  rw [← users] at filled
  rw [sum] at bytes
  have outside_count : ∀ a : Nat, a ∉ iovAddrs iv 4 →
      scatter after.user iv (leBytes 4 k) a = after.user a :=
    fun a outside => scatter_leBytes_outside after.user iv 4 k outside
  -- the count that is written back lies in the header, clear of every packet
  have clear : ∀ p ∈ batch (userHeader lp64 w.user iv) w.mem 0 (xs.take k), ∀ a : Nat, p.1 ≤ a →
      a < p.1 + 4 + (share w.user p.1 p.2).toNat → a ∉ iovAddrs iv 4 := by
    intro p hp a above below inside
    obtain ⟨i, hi, slot⟩ := batch_mem hp
    have upTo := share_le_capacity w.user p.1 p.2
    have header : a ∈ iovAddrs iv len.toNat := (iovAddrs_mono iv (by omega)).subset inside
    have beside := apart.header i (by omega) a header
    rw [← slot, Outside] at beside
    omega
  rw [result]
  constructor
  · exact moved.represents
  · exact moved.data
  · intro p hp
    rw [← filled.dataLen p hp]
    exact loadU32_congr fun a above below => outside_count a (clear p hp a above (by omega))
  · intro p hp
    rw [← filled.data p hp]
    exact loadBytes_congr fun a above below => outside_count a (clear p hp a (by omega) (by omega))
  · intro a header packets
    exact (outside_count a header).trans (filled.frame a packets)
  · intro distinct
    exact gather_leBytes after.user iv 4 k (Nat.le_trans (by omega) behind) distinct
  · have stats := moved.stats
    rw [bytes] at stats
    exact stats
  · rfl
  · simp only [Arch.sizeofHeader, lp64]
    omega

/-- Every read of this header, wherever its caller has laid it out behind the
iovecs, is a batch read of the m buffers that are queued. -/
def BatchReads (iv : List Iovec) (hdr : KvnetHeader) (m : Nat) : Prop :=
  ∀ (w : World) (env : ReadEnv) (copy : KvnetHeader) (xs : List Addr),
    userHeader lp64 w.user iv = hdr → Represents w.mem w.queue xs → xs.length = m →
    fetchHeader lp64 w.user iv (ioDevIovTotal lp64 iv) env.header = .ok copy →
    (∀ i, i < hdr.count.toNat → env.fault i = none) → env.toIovec = none →
    PacketsApart w.user iv (ioDevIovTotal lp64 iv) hdr →
    BatchRead w iv (ioDevIovTotal lp64 iv) xs (min hdr.count.toNat m)
      (ioReadToIovec lp64 w iv (ioDevIovTotal lp64 iv) env)

theorem batchReads_of_copied {iv : List Iovec} {hdr : KvnetHeader} {m : Nat} (queued : 0 < m)
    (nonneg : 0 ≤ ioDevIovTotal lp64 iv)
    (copied : SlotsCopied lp64 (ioDevIovTotal lp64 iv) (min hdr.count.toNat m)) :
    BatchReads iv hdr m := by
  rintro w env copy xs rfl rep rfl accepted clean written apart
  have same := copied_agrees accepted rfl nonneg copied
  refine batchRead_of_agrees rep (List.length_pos_iff.mp queued) rfl nonneg accepted ?_ ?_ written
    same apart
  · rw [same.count]
  · intro j below
    exact clean j (by omega)

section Uncopied

/-- A byte outside of what the packets can take is left alone. -/
theorem fillAll_outside {user : UserMem} {ps : List (Nat × List UInt8)} {a : Nat}
    (outside : ∀ p ∈ ps, a < p.1 ∨ p.1 + 4 + p.2.length ≤ a) : fillAll user ps a = user a := by
  induction ps generalizing user with
  | nil => rfl
  | cons p ps ih =>
    obtain ⟨pkt, data⟩ := p
    have upTo := share_le_length user pkt data
    have first := outside (pkt, data) List.mem_cons_self
    simp only at first
    rw [fillAll, ih fun p rest => outside p (List.mem_cons_of_mem _ rest)]
    exact fillUser_outside user pkt data (by omega)

/-- Any number of buffers can be queued, with any data. -/
theorem exists_queued (user : UserMem) (data : Addr → List UInt8) (m : Nat) :
    ∃ w : World, w.user = user ∧ (∀ x, (w.mem.cell x).data = data x) ∧
      Represents w.mem w.queue ((List.range m).map (· + 1)) := by
  induction m with
  | zero =>
    refine ⟨{ pairWorld with mem := ⟨fun x => ⟨NULL, data x⟩, []⟩, user }.withQueue
      ⟨fun x => ⟨NULL, data x⟩, []⟩ (queueInit pairWorld.queue), rfl, fun _ => rfl, ?_⟩
    exact Represents.init _ pairWorld.queue
  | succ m ih =>
    obtain ⟨w, user_, carries, rep⟩ := ih
    refine ⟨w.withQueue (__queueInsert w.mem w.queue (m + 1)).1
      (__queueInsert w.mem w.queue (m + 1)).2, user_, fun x => ?_, ?_⟩
    · exact (queueInsert_data w.mem w.queue (m + 1) x).trans (carries x)
    · rw [List.range_succ, List.map_append, List.map_singleton]
      refine queueInsert_represents rep (Nat.succ_ne_zero m) fun old => ?_
      obtain ⟨j, among, same⟩ := List.mem_map.mp old
      have below := List.mem_range.mp among
      exact Nat.ne_of_lt below (Nat.succ.inj same)

/-- What surrounds the kernel's buffer: the caller's own header, but for one byte. -/
def spoiled (user : UserMem) (iv : List Iovec) (last : Nat) (o : Int) : UInt8 :=
  headerByte (gather user iv (iovBytes iv)) (fun _ => 0) o + if o = last then 1 else 0

variable {user : UserMem} {iv : List Iovec} {len : Int}

theorem spoiled_byte {t last : Nat} (inside : t ≤ iovBytes iv) (short : t ≤ last) (o : Nat) :
    headerByte (gather user iv t) (spoiled user iv last) o =
      headerByte (gather user iv (iovBytes iv)) (fun _ => 0) o + if o = last then 1 else 0 := by
  have length : (gather user iv t).length = t := by
    rw [gather_length]
    exact Nat.min_eq_left inside
  by_cases copied : o < t
  · rw [headerByte_shorter (gather_shorter user iv inside) (by omega), if_neg (by omega)]
    exact (UInt8.add_zero _).symm
  · rw [headerByte_behind (by omega), spoiled]
    simp only [Nat.cast_inj]

/-- The headers have the same count and name the same packets but for the j-th. -/
structure AgreesBut (hdr hdr' : KvnetHeader) (j : Nat) : Prop where
  count : hdr.count = hdr'.count
  slots : ∀ i : Nat, i ≠ j → hdr.pkt i = hdr'.pkt i

/-- With a slot spoiled behind what is copied, the copy is the caller's header but
for the packet it names. -/
theorem spoiled_agrees {t j : Nat} (inside : t ≤ iovBytes iv)
    (short : t < exactHeaderLen lp64 (j + 1)) :
    AgreesBut (headerAt lp64 (gather user iv t) (spoiled user iv (exactHeaderLen lp64 (j + 1) - 1)))
      (userHeader lp64 user iv) j := by
  have slots (i : Nat) : exactHeaderLen lp64 i = 4 + i * 8 := rfl
  rw [slots] at short ⊢
  constructor
  · refine headerAt_count_congr fun o below => ?_
    rw [spoiled_byte inside (by omega), if_neg (by omega)]
    exact UInt8.add_zero _
  · intro i other
    refine headerAt_pkt_congr fun o behind before => ?_
    rw [slots] at behind before
    rw [spoiled_byte inside (by omega), if_neg (by omega)]
    exact UInt8.add_zero _

/-- And that packet is a long way from the caller's. -/
theorem spoiled_far {t j : Nat} (inside : t ≤ iovBytes iv)
    (short : t < exactHeaderLen lp64 (j + 1)) :
    let copy :=
      headerAt lp64 (gather user iv t) (spoiled user iv (exactHeaderLen lp64 (j + 1) - 1))
    let hdr := userHeader lp64 user iv
    copy.pkt j + 2 ^ 56 ≤ hdr.pkt j ∨ hdr.pkt j + 2 ^ 56 ≤ copy.pkt j := by
  intro copy hdr
  have slots : exactHeaderLen lp64 (j + 1) = 4 + (j + 1) * 8 := rfl
  have eight : List.range lp64.ptrSize = List.range 7 ++ [7] := rfl
  have place (b : Nat) : 4 + (j : Int) * lp64.ptrSize + b = (4 + j * 8 + b : Nat) := by
    simp only [lp64]
    push_cast
    rfl
  have theirs := headerAt_pkt_bytes lp64 (gather user iv (iovBytes iv)) (fun _ => 0) j
  have copied := headerAt_pkt_bytes lp64 (gather user iv t)
    (spoiled user iv (exactHeaderLen lp64 (j + 1) - 1)) j
  simp only [eight, List.map_append, List.map_singleton, place, leNat_concat, List.length_map,
    List.length_range] at theirs copied
  have low : (List.range 7).map (fun b => headerByte (gather user iv t)
      (spoiled user iv (exactHeaderLen lp64 (j + 1) - 1)) (4 + j * 8 + b : Nat)) =
      (List.range 7).map fun b => headerByte (gather user iv (iovBytes iv)) (fun _ => 0)
        (4 + j * 8 + b : Nat) := by
    refine List.map_congr_left fun b among => ?_
    have below := List.mem_range.mp among
    rw [spoiled_byte inside (by omega), if_neg (by omega)]
    exact UInt8.add_zero _
  rw [low, spoiled_byte inside (by omega), if_pos (by omega)] at copied
  generalize leNat _ = rest at theirs copied
  generalize headerByte _ _ _ = top at theirs copied
  have other : (top + 1).toNat ≠ top.toNat := by
    intro same
    have equal : top + 1 = top + 0 := (UInt8.toNat_inj.mp same).trans (UInt8.add_zero top).symm
    exact absurd (UInt8.add_right_inj top |>.mp equal) (by decide)
  change copy.pkt j = _ at copied
  change hdr.pkt j = _ at theirs
  rw [copied, theirs]
  generalize (top + 1).toNat = next at other
  change (rest + 256 ^ 7 * next + 2 ^ 56 : Nat) ≤ rest + 256 ^ 7 * top.toNat ∨
    (rest + 256 ^ 7 * top.toNat + 2 ^ 56 : Nat) ≤ rest + 256 ^ 7 * next
  omega

/-- A caller's header that passes the checks in full, in front of packets apart
from it and from each other. -/
structure HeaderNamed (user : UserMem) (iv : List Iovec) : Prop where
  count : (userHeader lp64 user iv).count ≠ 0
  fits : (exactHeaderLen lp64 (userHeader lp64 user iv).count.toNat : Int) ≤ ioDevIovTotal lp64 iv
  apart : PacketsApart user iv (ioDevIovTotal lp64 iv) (userHeader lp64 user iv)

theorem HeaderNamed.accepted (named : HeaderNamed user iv) {j : Nat}
    (served : 0 ≤ toCInt (ioDevIovTotal lp64 iv))
    (short : toCInt (ioDevIovTotal lp64 iv) < exactHeaderLen lp64 (j + 1)) :
    let around := spoiled user iv (exactHeaderLen lp64 (j + 1) - 1)
    fetchHeader lp64 user iv (ioDevIovTotal lp64 iv) ⟨true, false, around⟩ =
      .ok (copiedHeader lp64 user iv (ioDevIovTotal lp64 iv) around) := by
  intro around
  obtain ⟨nonzero, fits, _⟩ := named
  have some_packet := count_pos nonzero
  have nonneg : 0 ≤ ioDevIovTotal lp64 iv := by omega
  obtain ⟨narrow, behind⟩ := toCInt_le_iovBytes rfl nonneg
  have same : AgreesBut (copiedHeader lp64 user iv (ioDevIovTotal lp64 iv) around)
      (userHeader lp64 user iv) j := spoiled_agrees (by omega) (by omega)
  have word : lp64.toSizeT (ioDevIovTotal lp64 iv) = (ioDevIovTotal lp64 iv).toNat := by
    refine lp64.toSizeT_of_lt nonneg ?_
    rw [ioDevIovTotal_eq, Arch.toSsizeT]
    simp only [lp64]
    omega
  have slots : exactHeaderLen lp64 (userHeader lp64 user iv).count.toNat =
      4 + (userHeader lp64 user iv).count.toNat * 8 := rfl
  refine fetchHeader_accepts served rfl rfl (same.count ▸ nonzero) ?_ ?_
  · rw [word, show lp64.sizeofHeader = 12 from rfl]
    omega
  · rw [word, same.count, headerLen_eq lp64 nonzero, Nat.mod_eq_of_lt (lp64_exactHeaderLen _)]
    omega

/-- The batch of a queue in which only the buffer for the j-th packet has data. -/
theorem mem_batch_only {w : World} {hdr : KvnetHeader} {m k j : Nat} {byte : UInt8}
    (carries : ∀ x, (w.mem.cell x).data = if x = j + 1 then [byte] else []) (upTo : k ≤ m)
    {p : Nat × List UInt8} :
    p ∈ batch hdr w.mem 0 (((List.range m).map (· + 1)).take k) ↔
      ∃ i : Nat, i < k ∧ p = (hdr.pkt i, if i = j then [byte] else []) := by
  simp only [batch, List.mem_mapIdx, List.length_take, List.length_map, List.length_range,
    Nat.min_eq_left upTo, List.getElem_take, List.getElem_map, List.getElem_range, carries,
    Nat.add_right_cancel_iff, Nat.zero_add, exists_prop, eq_comm]

/-- Packets that are looked up in such a copy leave the first byte of the caller's
j-th packet alone. -/
theorem fillAll_elsewhere {w : World} {copy : KvnetHeader} {byte : UInt8} {m k j a : Nat}
    (carries : ∀ x, (w.mem.cell x).data = if x = j + 1 then [byte] else []) (upTo : k ≤ m)
    (below : j < k) (named : k ≤ (userHeader lp64 w.user iv).count.toNat)
    (same : AgreesBut copy (userHeader lp64 w.user iv) j)
    (place : (userHeader lp64 w.user iv).pkt j = a)
    (far : copy.pkt j + 2 ^ 56 ≤ a ∨ a + 2 ^ 56 ≤ copy.pkt j)
    (apart : PacketsApart w.user iv len (userHeader lp64 w.user iv))
    (roomy : 0 < (loadU32 w.user a).toNat) :
    fillAll w.user (batch copy w.mem 0 (((List.range m).map (· + 1)).take k)) (a + 4) =
      w.user (a + 4) := by
  refine fillAll_outside fun p among => ?_
  obtain ⟨i, filled, rfl⟩ := (mem_batch_only carries upTo).mp among
  obtain ⟨q, slot⟩ : ∃ q : Nat, copy.pkt i = q := ⟨_, rfl⟩
  rw [slot]
  by_cases spoiled : i = j
  · subst spoiled
    have far' : q + 2 ^ 56 ≤ a ∨ a + 2 ^ 56 ≤ q := slot ▸ far
    simp only [if_true, List.length_singleton]
    omega
  · have theirs := (same.slots i spoiled).symm.trans slot
    simp only [if_neg spoiled, List.length_nil]
    rcases Nat.lt_or_gt_of_ne spoiled with before | behind
    · have beside := apart.packets i j before (by omega)
      rw [theirs, place, Apart] at beside
      omega
    · have beside := apart.packets j i behind (by omega)
      rw [theirs, place, Apart] at beside
      omega

/-- A read that looks up one of its packets elsewhere is no batch read when that
packet was to take a byte it does not have yet. -/
theorem not_batchRead_of_far {w : World} {env : ReadEnv} {copy : KvnetHeader} {m k j a : Nat}
    (rep : Represents w.mem w.queue ((List.range m).map (· + 1)))
    (carries : ∀ x, (w.mem.cell x).data = if x = j + 1 then [w.user (a + 4) + 1] else [])
    (accepted : fetchHeader lp64 w.user iv len env.header = .ok copy)
    (clean : ∀ i, i < k → env.fault i = none) (written : env.toIovec = none)
    (below : j < k) (smaller : k = min copy.count.toNat m) (header : 4 ≤ len.toNat)
    (same : AgreesBut copy (userHeader lp64 w.user iv) j)
    (place : (userHeader lp64 w.user iv).pkt j = a)
    (far : copy.pkt j + 2 ^ 56 ≤ a ∨ a + 2 ^ 56 ≤ copy.pkt j)
    (apart : PacketsApart w.user iv len (userHeader lp64 w.user iv))
    (roomy : 0 < (loadU32 w.user a).toNat) :
    ¬ BatchRead w iv len ((List.range m).map (· + 1)) k (ioReadToIovec lp64 w iv len env) := by
  intro read
  have named : k ≤ (userHeader lp64 w.user iv).count.toNat := by
    rw [← same.count, smaller]
    exact Nat.min_le_left _ _
  have upTo : k ≤ m := smaller ▸ Nat.min_le_right _ _
  have length : ((List.range m).map (· + 1)).length = m := by
    rw [List.length_map, List.length_range]
  have queued : (List.range m).map (· + 1) ≠ [] := List.length_pos_iff.mp (by omega)
  obtain ⟨after, _, users, _, result⟩ :=
    ioReadToIovec_fills rep queued accepted (length.symm ▸ smaller) clean written
  rw [result] at read
  -- the first byte of the packet is written neither as data nor as the count
  have untouched : scatter after.user iv (leBytes 4 k) (a + 4) = w.user (a + 4) := by
    have uncounted : a + 4 ∉ iovAddrs iv 4 := by
      intro inside
      have beside := apart.header j (by omega) _ ((iovAddrs_mono iv header).subset inside)
      rw [place, Outside] at beside
      omega
    refine (scatter_leBytes_outside after.user iv 4 k uncounted).trans ?_
    rw [users]
    exact fillAll_elsewhere carries upTo below named same place far apart roomy
  have there : (a, [w.user (a + 4) + 1]) ∈
      batch (userHeader lp64 w.user iv) w.mem 0 (((List.range m).map (· + 1)).take k) :=
    (mem_batch_only carries upTo).mpr ⟨j, below, by rw [place, if_pos rfl]⟩
  have one : (share w.user a [w.user (a + 4) + 1]).toNat = 1 := by
    rw [share, UInt32.toNat_min]
    exact Nat.min_eq_left roomy
  have delivered := read.data _ there
  simp only [one] at delivered
  have byte : scatter after.user iv (leBytes 4 k) (a + 4) = w.user (a + 4) + 1 :=
    Option.some.inj (congrArg List.head? delivered)
  rw [untouched] at byte
  exact absurd ((UInt8.add_right_inj (w.user (a + 4))).mp ((UInt8.add_zero _).trans byte))
    (by decide)

/-- A packet that has room and is looked up behind the copy can be missed. -/
theorem copied_of_batchReads {m j : Nat} (named : HeaderNamed user iv)
    (reads : BatchReads iv (userHeader lp64 user iv) m)
    (filled : j < min (userHeader lp64 user iv).count.toNat m)
    (roomy : 0 < (loadU32 user ((userHeader lp64 user iv).pkt j)).toNat) :
    SlotsCopied lp64 (ioDevIovTotal lp64 iv) (j + 1) := by
  intro served
  by_contra long
  have short : toCInt (ioDevIovTotal lp64 iv) < exactHeaderLen lp64 (j + 1) := Int.not_le.mp long
  have some_packet := count_pos named.count
  have fits := named.fits
  rw [exactHeaderLen] at fits
  obtain ⟨narrow, behind⟩ : toCInt (ioDevIovTotal lp64 iv) ≤ ioDevIovTotal lp64 iv ∧
      ioDevIovTotal lp64 iv ≤ iovBytes iv := toCInt_le_iovBytes rfl (by omega)
  have accepted := named.accepted served short
  have same := @spoiled_agrees user iv (toCInt (ioDevIovTotal lp64 iv)).toNat j (by omega)
    (by omega)
  have far := @spoiled_far user iv (toCInt (ioDevIovTotal lp64 iv)).toNat j (by omega) (by omega)
  obtain ⟨a, place⟩ : ∃ a : Nat, (userHeader lp64 user iv).pkt j = a := ⟨_, rfl⟩
  obtain ⟨w, rfl, carries, rep⟩ :=
    exists_queued user (fun x => if x = j + 1 then [user (a + 4) + 1] else []) m
  change fetchHeader lp64 w.user iv _ _ = .ok (headerAt lp64 _ _) at accepted
  simp only [place] at far
  generalize headerAt lp64 (gather w.user iv (toCInt (ioDevIovTotal lp64 iv)).toNat) _ = copy
    at accepted same far
  have smaller : min (userHeader lp64 w.user iv).count.toNat m = min copy.count.toNat m := by
    rw [same.count]
  have read := reads w ⟨_, fun _ => none, none⟩ copy _ rfl rep (by simp) accepted (fun _ _ => rfl)
    rfl named.apart
  exact not_batchRead_of_far rep carries accepted (fun _ _ => rfl) rfl filled smaller
    (by omega) same place far named.apart (place ▸ roomy) read

end Uncopied

/-- A batch read is functionally correct when the packets it fills are looked up
in slots that were copied; and if every read of a header is, the slots of all packets
it fills that have room are copied. -/
theorem batch_read_iff (iv : List Iovec) (hdr : KvnetHeader) (m : Nat) (queued : 0 < m)
    (nonneg : 0 ≤ ioDevIovTotal lp64 iv) :
    (SlotsCopied lp64 (ioDevIovTotal lp64 iv) (min hdr.count.toNat m) → BatchReads iv hdr m) ∧
    ∀ user, userHeader lp64 user iv = hdr → HeaderNamed user iv → BatchReads iv hdr m →
      ∀ j : Nat, j < min hdr.count.toNat m → 0 < (loadU32 user (hdr.pkt j)).toNat →
        SlotsCopied lp64 (ioDevIovTotal lp64 iv) (j + 1) := by
  refine ⟨batchReads_of_copied queued nonneg, ?_⟩
  rintro user rfl named reads j filled roomy
  exact copied_of_batchReads named reads filled roomy

/-- Two packets that lie one behind the other and both behind the only iovec. -/
theorem two_apart {user : UserMem} {base n p q : Nat} {hdr : KvnetHeader}
    (count : hdr.count.toNat = 2) (first : hdr.pkt (0 : Nat) = p) (second : hdr.pkt (1 : Nat) = q)
    (beside : p + 4 + (loadU32 user p).toNat ≤ q) (behind : base + n ≤ p) :
    PacketsApart user [⟨base, n⟩] n hdr := by
  constructor
  · intro i j before named
    obtain ⟨rfl, rfl⟩ : i = 0 ∧ j = 1 := by omega
    rw [first, second]
    exact Or.inl beside
  · intro i named a header
    rw [Int.toNat_natCast, iovAddrs, iovAddrs, List.append_nil] at header
    obtain ⟨j, among, rfl⟩ := List.mem_map.mp header
    have inside := List.mem_range.mp among
    have cases : i = 0 ∨ i = 1 := by omega
    rcases cases with rfl | rfl
    · rw [first]
      exact Or.inl (show base + j < p by omega)
    · rw [second]
      exact Or.inl (show base + j < q by omega)

def pairHeader : KvnetHeader := userHeader lp64 pairWorld.user [⟨4096, 20⟩]

theorem pair_apart : PacketsApart pairWorld.user [⟨4096, 20⟩] 20 pairHeader :=
  two_apart (p := 8192) (q := 12288) (by decide +kernel) (by decide +kernel) (by decide +kernel)
    (by decide +kernel) (by decide)

theorem batch_read_pair :
    BatchRead pairWorld [⟨4096, 20⟩] 20 [1, 2] 2 (pairRead fun _ => none) :=
  (batch_read_iff [⟨4096, 20⟩] pairHeader 2 (by decide) (by decide)).1 (by decide +kernel)
    pairWorld ⟨⟨true, false, fun _ => 0⟩, fun _ => none, none⟩ _ [1, 2] rfl pair_represents rfl rfl
    (fun _ _ => rfl) rfl pair_apart

/-- The header at 4096 names two packets of capacity 100, and there is a third
one at 2^35. -/
def wideWorld : World :=
  { pairWorld with
    user := storeU32 (storeU32 (storeU32 (storeBytes (fun _ => 0)
      4096 (leBytes 4 2 ++ leBytes 8 (2 ^ 33) ++ leBytes 8 (2 ^ 34))) (2 ^ 33) 100)
      (2 ^ 34) 100) (2 ^ 35) 100 }

/-- Kernel memory that names the third packet behind the twelve bytes copied. -/
def wideEnv : HeaderEnv := ⟨true, false, fun o => if o = 16 then 8 else 0⟩

/-- Of 2^32 + 12 bytes twelve are copied, and the second packet gets nothing. -/
theorem wide_read_misses :
    ¬ BatchReads [⟨4096, 2 ^ 32 + 12⟩]
      (userHeader lp64 wideWorld.user [⟨4096, 2 ^ 32 + 12⟩]) 2 := by
  intro reads
  have front : gather wideWorld.user [⟨4096, 2 ^ 32 + 12⟩] 20 <+:
      gather wideWorld.user [⟨4096, 2 ^ 32 + 12⟩] (iovBytes [⟨4096, 2 ^ 32 + 12⟩]) :=
    gather_shorter _ _ (by decide)
  have named : KvnetHeader.Agrees (headerAt lp64 (gather wideWorld.user [⟨4096, 2 ^ 32 + 12⟩] 20)
      fun _ => 0) (userHeader lp64 wideWorld.user [⟨4096, 2 ^ 32 + 12⟩]) 2 :=
    headerAt_agrees front (by decide +kernel)
  have count : (userHeader lp64 wideWorld.user [⟨4096, 2 ^ 32 + 12⟩]).count.toNat = 2 := by
    rw [← named.count]
    decide +kernel
  have first := (named.slots 0 (by decide)).symm.trans (show _ = 2 ^ 33 by decide +kernel)
  have second := (named.slots 1 (by decide)).symm.trans (show _ = 2 ^ 34 by decide +kernel)
  have apart : PacketsApart wideWorld.user [⟨4096, 2 ^ 32 + 12⟩] (2 ^ 32 + 12 : Nat)
      (userHeader lp64 wideWorld.user [⟨4096, 2 ^ 32 + 12⟩]) :=
    two_apart count first second (by decide +kernel) (by decide)
  have read := reads wideWorld ⟨wideEnv, fun _ => none, none⟩ _ [1, 2] rfl pair_represents rfl rfl
    (fun _ _ => rfl) rfl apart
  rw [count] at read
  have among : ((2 ^ 34 : Nat), [0xbb]) ∈ batch (userHeader lp64 wideWorld.user
      [⟨4096, 2 ^ 32 + 12⟩]) wideWorld.mem 0 ([1, 2].take (min 2 2)) :=
    List.mem_mapIdx.mpr ⟨1, by decide, by rw [Nat.zero_add, second]; rfl⟩
  exact absurd (read.dataLen _ among) (by decide +kernel)

end Kvnet
