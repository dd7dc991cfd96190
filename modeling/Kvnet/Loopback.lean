import Kvnet.QueueBound
import Kvnet.WriteBatch

/-!
# Packets that come back

A network stack that forwards what it receives sends frames over the device they
came from: it puts a frame into a buffer of its own, the Ethernet header in front
again, and calls net_dev_send. Such a packet has gone from user memory to a frame,
from there to the queue, and a read takes it back to user memory.
-/

namespace Kvnet

/-- The bytes of a frame with its Ethernet header pushed in front of the data. -/
def RxSkb.pushed (skb : RxSkb) : List UInt8 := skb.macHeader ++ skb.data

/-- The stack writes the frame to the buffer and sends it. -/
def sendFrame (txQueueLen : UInt64) (w : World) (skb : Addr) (frame : RxSkb) : World :=
  let written := { w.mem.cell skb with data := frame.pushed }
  let mem := { w.mem with cell := Function.update w.mem.cell skb written }
  netDevSend (w.withMem (mem.pass skb)) skb txQueueLen

/-- It sends some of the frames, each given by its number, in any order. -/
def sendBack (txQueueLen : UInt64) (frames : List RxSkb) : World → List (Addr × Nat) → World
  | w, [] => w
  | w, (skb, i) :: back =>
    match frames[i]? with
    | some frame => sendBack txQueueLen frames (sendFrame txQueueLen w skb frame) back
    | none => sendBack txQueueLen frames w back

/-- The buffers at the end of the queue carry these bytes, and those in front of
them what they carried before. -/
structure Queued (w w' : World) (xs : List Addr) (sent : List (Addr × List UInt8)) : Prop where
  represents : Represents w'.mem w'.queue (xs ++ sent.map Prod.fst)
  data : ∀ p ∈ sent, (w'.mem.cell p.1).data = p.2
  others : ∀ x, x ∉ sent.map Prod.fst → (w'.mem.cell x).data = (w.mem.cell x).data
  enabled : w'.queue.enabled = w.queue.enabled
  user : w'.user = w.user

theorem queued_nil {w : World} {xs : List Addr} (rep : Represents w.mem w.queue xs) :
    Queued w w xs [] :=
  ⟨by simpa using rep, fun _ none => absurd none List.not_mem_nil, fun _ _ => rfl, rfl, rfl⟩

theorem queued_cons {w v w' : World} {xs : List Addr} {skb : Addr} {bytes : List UInt8}
    {sent : List (Addr × List UInt8)} (first : Queued w v xs [(skb, bytes)])
    (later : Queued v w' (xs ++ [skb]) sent) (other : skb ∉ sent.map Prod.fst) :
    Queued w w' xs ((skb, bytes) :: sent) where
  represents := by simpa using later.represents
  data := by
    intro p among
    rcases List.mem_cons.mp among with rfl | rest
    · exact (later.others skb other).trans (first.data _ List.mem_cons_self)
    · exact later.data p rest
  others := by
    intro x outside
    rw [List.map_cons, List.mem_cons, not_or] at outside
    rw [later.others x outside.2]
    exact first.others x (by simpa using outside.1)
  enabled := later.enabled.trans first.enabled
  user := later.user.trans first.user

/-- The stack writes the data of a buffer and hands it over. -/
def World.stackWrite (w : World) (skb : Addr) (data : List UInt8) : World :=
  w.withMem (SkbMem.pass { w.mem with
    cell := Function.update w.mem.cell skb { w.mem.cell skb with data := data } } skb)

theorem stackWrite_data (w : World) (skb : Addr) (data : List UInt8) (x : Addr) :
    ((w.stackWrite skb data).mem.cell x).data =
      if x = skb then data else (w.mem.cell x).data := by
  by_cases same : x = skb
  · subst same
    simp [World.stackWrite, SkbMem.pass]
  · simp [World.stackWrite, SkbMem.pass, same]

/-- The links are the driver's, and stay as they are. -/
theorem stackWrite_represents {w : World} {xs : List Addr} (rep : Represents w.mem w.queue xs)
    (skb : Addr) (data : List UInt8) :
    Represents (w.stackWrite skb data).mem (w.stackWrite skb data).queue xs := by
  refine rep.congr fun x _ => ?_
  by_cases same : x = skb
  · subst same
    simp [World.stackWrite, SkbMem.next, SkbMem.pass]
  · simp [World.stackWrite, SkbMem.next, SkbMem.pass, same]

/-- A queue that is enabled and has room takes the frame. -/
theorem sendFrame_queued {w : World} {xs : List Addr} {skb : Addr} {txQueueLen : UInt64}
    (rep : Represents w.mem w.queue xs) (up : w.queue.enabled ≠ 0)
    (room : xs.length < txQueueLen.toNat) (fits : xs.length < 2 ^ 31) (valid : skb ≠ NULL)
    (fresh : skb ∉ xs) (frame : RxSkb) :
    Queued w (sendFrame txQueueLen w skb frame) xs [(skb, frame.pushed)] := by
  have queue : (w.stackWrite skb frame.pushed).queue = w.queue := World.withMem_queue w _
  have data := stackWrite_data w skb frame.pushed
  have written := stackWrite_represents rep skb frame.pushed
  have accepts : ¬ SendDrops (w.stackWrite skb frame.pushed).queue txQueueLen := by
    rintro (disabled | full)
    · exact up (queue ▸ disabled)
    · rw [UInt64.le_iff_toNat_le, __queueLen, written.size, queueLen_compared fits] at full
      omega
  have sent : sendFrame txQueueLen w skb frame = (w.stackWrite skb frame.pushed).withQueue _ _ :=
    congrArg Prod.fst (netDevSendSection_inserts accepts)
  rw [sent]
  constructor
  · exact queueInsert_represents written valid fresh
  · intro p only
    obtain rfl := List.mem_singleton.mp only
    rw [World.withQueue_mem, queueInsert_data, data, if_pos rfl]
  · intro x outside
    have other : x ≠ skb := by simpa using outside
    rw [World.withQueue_mem, queueInsert_data, data, if_neg other]
  · rw [World.withQueue_queue, queueInsert_enabled, queue]
  · rfl

/-- The bytes the stack sends, frame by frame. -/
def sentBytes (frames : List RxSkb) (back : List (Addr × Nat)) : List (Addr × List UInt8) :=
  back.filterMap fun p => frames[p.2]?.map fun frame => (p.1, frame.pushed)

theorem sentBytes_cons {frames : List RxSkb} {i : Nat} {frame : RxSkb}
    (found : frames[i]? = some frame) (skb : Addr) (back : List (Addr × Nat)) :
    sentBytes frames ((skb, i) :: back) = (skb, frame.pushed) :: sentBytes frames back := by
  simp [sentBytes, found]

theorem sentBytes_buffers {frames : List RxSkb} {back : List (Addr × Nat)}
    (named : ∀ p ∈ back, p.2 < frames.length) :
    (sentBytes frames back).map Prod.fst = back.map Prod.fst := by
  induction back with
  | nil => rfl
  | cons p back ih =>
    obtain ⟨skb, i⟩ := p
    have found := List.getElem?_eq_getElem (named (skb, i) List.mem_cons_self)
    rw [sentBytes_cons found, List.map_cons, List.map_cons,
      ih fun p rest => named p (List.mem_cons_of_mem _ rest)]

/-- The buffers the stack uses: its own, different ones, and not too many. -/
structure Usable (xs : List Addr) (txQueueLen : UInt64) (back : List (Addr × Nat)) : Prop where
  distinct : (xs ++ back.map Prod.fst).Nodup
  valid : NULL ∉ back.map Prod.fst
  room : xs.length + back.length ≤ txQueueLen.toNat
  fits : xs.length + back.length < 2 ^ 31

theorem sendBack_queued {w : World} {xs : List Addr} {txQueueLen : UInt64} {frames : List RxSkb}
    {back : List (Addr × Nat)} (rep : Represents w.mem w.queue xs) (up : w.queue.enabled ≠ 0)
    (usable : Usable xs txQueueLen back) (named : ∀ p ∈ back, p.2 < frames.length) :
    Queued w (sendBack txQueueLen frames w back) xs (sentBytes frames back) := by
  induction back generalizing w xs with
  | nil => exact queued_nil rep
  | cons p back ih =>
    obtain ⟨skb, i⟩ := p
    obtain ⟨distinct, valid, room, fits⟩ := usable
    rw [List.length_cons] at room fits
    rw [List.map_cons] at distinct valid
    have named' : ∀ p ∈ back, p.2 < frames.length :=
      fun p rest => named p (List.mem_cons_of_mem _ rest)
    have fresh : skb ∉ xs := fun old =>
      (List.nodup_append.mp distinct).2.2 skb old skb List.mem_cons_self rfl
    have unused : skb ∉ back.map Prod.fst :=
      (List.nodup_cons.mp (List.nodup_append.mp distinct).2.1).1
    have below : i < frames.length := named (skb, i) List.mem_cons_self
    have found := List.getElem?_eq_getElem below
    have nonnull : skb ≠ NULL := fun null => valid (null ▸ List.mem_cons_self)
    have first : Queued w (sendFrame txQueueLen w skb frames[i]) xs [(skb, frames[i].pushed)] :=
      sendFrame_queued rep up (by omega) (by omega) nonnull fresh _
    have later : Usable (xs ++ [skb]) txQueueLen back := by
      refine ⟨by simpa using distinct, fun null => valid (List.mem_cons_of_mem _ null), ?_, ?_⟩
      · rw [List.length_append, List.length_singleton]
        omega
      · rw [List.length_append, List.length_singleton]
        omega
    have rest := ih first.represents (first.enabled ▸ up) later named'
    rw [sendBack, found, sentBytes_cons found]
    exact queued_cons first rest (sentBytes_buffers named' ▸ unused)

/-- A read of a header it accepts, in packets that lie apart, during which
nothing faults. -/
structure CleanRead (user : UserMem) (iv : List Iovec) (len : Int) (env : ReadEnv)
    (hdr : KvnetHeader) : Prop where
  accepted : fetchHeader lp64 user iv len env.header = .ok hdr
  measured : ioDevIovTotal lp64 iv = len
  nonneg : 0 ≤ len
  clean : ∀ i, i < hdr.count.toNat → env.fault i = none
  written : env.toIovec = none
  apart : PacketsApart user iv len hdr

section Read

variable {w : World} {iv : List Iovec} {len : Int} {env : ReadEnv} {hdr : KvnetHeader}
  {xs : List Addr}

theorem loop_counts (rep : Represents w.mem w.queue xs) (read : CleanRead w.user iv len env hdr)
    (nonempty : xs ≠ []) :
    (ioReadLoop lp64 hdr env.fault hdr.count.toNat 0 w 0).2 =
      lp64.toSsizeT (min hdr.count.toNat xs.length : Nat) := by
  refine ioReadLoop_count lp64 hdr env.fault rep hdr.count.toNat_lt (fun j hj => ?_) nonempty
  exact read.clean j (by omega)

/-- The caller is told how many packets it got. -/
theorem read_reports_all (rep : Represents w.mem w.queue xs)
    (read : CleanRead w.user iv len env hdr) :
    (ioReadToIovec lp64 w iv len env).reported = some (min hdr.count.toNat xs.length) := by
  have positive := count_pos (fetchHeader_ok read.accepted).1
  have bound : hdr.count.toNat < 2 ^ 32 := hdr.count.toNat_lt
  rw [ioReadToIovec_accepted read.accepted]
  cases xs with
  | nil =>
    obtain ⟨n, count⟩ : ∃ n, hdr.count.toNat = n + 1 := ⟨hdr.count.toNat - 1, by omega⟩
    rw [count, ioReadLoop_empty lp64 hdr env.fault rep, List.length_nil, Nat.min_zero]
    exact reported_error lp64 w iv env.toIovec (show readEmpty 0 < 0 by decide)
  | cons x xs =>
    rw [loop_counts rep read (List.cons_ne_nil x xs)]
    have queued : 0 < (x :: xs).length := Nat.succ_pos _
    exact (reported_count_iff lp64 _ iv (by omega) (by omega) env.toIovec).mpr
      ⟨read.written, lp64_reportable (by omega)⟩

/-- Each packet that is filled holds what its buffer carried, up to its room. -/
theorem read_packetBytes (rep : Represents w.mem w.queue xs)
    (read : CleanRead w.user iv len env hdr) {j : Nat} (queued : j < xs.length)
    (named : j < hdr.count.toNat) (small : (w.mem.cell xs[j]).data.length < 2 ^ 32) :
    packetBytes (ioReadToIovec lp64 w iv len env).world.user (hdr.pkt j) =
      (w.mem.cell xs[j]).data.take (loadU32 w.user (hdr.pkt j)).toNat := by
  have nonempty : xs ≠ [] := List.length_pos_iff.mp (by omega)
  have bound : hdr.count.toNat < 2 ^ 32 := hdr.count.toNat_lt
  obtain ⟨fits, _⟩ := lp64_header_fits read.accepted read.measured read.nonneg
  have quiet : ∀ i, i < min hdr.count.toNat xs.length → env.fault (0 + i) = none := by
    intro i hi
    exact read.clean _ (by omega)
  obtain ⟨users, _⟩ := ioReadLoop_fills lp64 hdr env.fault hdr.count.toNat 0 0 rep quiet
  have taken : (xs.take hdr.count.toNat).length ≤ hdr.count.toNat := List.length_take_le _ _
  obtain ⟨filled, _⟩ := fillAll_filled (batch_pairwise read.apart w.mem taken)
  rw [← users] at filled
  rw [ioReadToIovec_accepted read.accepted, loop_counts rep read nonempty, read.written,
    lp64_reportCount _ iv (by omega) (by omega)]
  generalize (ioReadLoop lp64 hdr env.fault hdr.count.toNat 0 w 0).1 = after at filled ⊢
  obtain ⟨pkt, slot⟩ : ∃ pkt : Nat, hdr.pkt j = pkt := ⟨_, rfl⟩
  obtain ⟨data, carried⟩ : ∃ data, (w.mem.cell xs[j]).data = data := ⟨_, rfl⟩
  have place : (pkt, data) ∈ batch hdr w.mem 0 (xs.take hdr.count.toNat) := by
    refine List.mem_mapIdx.mpr ⟨j, by rw [List.length_take]; omega, ?_⟩
    rw [List.getElem_take, Nat.zero_add, slot, carried]
  have upTo := share_le_capacity w.user pkt data
  -- the count that is written back lies in the header, clear of the packet
  have clear : ∀ a : Nat, pkt ≤ a → a < pkt + 4 + (share w.user pkt data).toNat →
      scatter after.user iv (leBytes 4 (min hdr.count.toNat xs.length)) a = after.user a := by
    intro a above below
    refine scatter_leBytes_outside after.user iv 4 _ fun inside => ?_
    have header : a ∈ iovAddrs iv len.toNat := (iovAddrs_mono iv (by omega)).subset inside
    have beside := read.apart.header j named a header
    rw [slot, Outside] at beside
    omega
  have length := filled.dataLen _ place
  rw [← loadU32_congr fun a above below => clear a above (by omega)] at length
  have bytes := filled.data _ place
  rw [← loadBytes_congr fun a above below => clear a (by omega) (by omega)] at bytes
  rw [carried] at small ⊢
  rw [slot, packetBytes, World.withUser, length, bytes, share, UInt32.toNat_min,
    UInt32.toNat_ofNat_of_lt' small, ← List.take_take]
  exact List.take_of_length_le (List.length_take_le' _ _)

end Read

/-- A write of whole Ethernet frames during which no packet fails. A packet of
2^32 - 2 bytes or more would overrun its buffer, and of a request of 2^31 bytes or
more the driver need not have the caller's slots. -/
structure CleanWrite (w : World) (iv : List Iovec) (len : Int) (env : WriteEnv)
    (hdr : KvnetHeader) : Prop where
  accepted : fetchHeader lp64 w.user iv len env.header = .ok hdr
  measured : ioDevIovTotal lp64 iv = len
  nonneg : 0 ≤ len
  short : len < 2 ^ 31
  clean : ∀ i, i < hdr.count.toNat → env.fault i = none
  whole : ∀ i : Nat, i < hdr.count.toNat → 14 ≤ (loadU32 w.user (hdr.pkt i)).toNat
  room : ∀ i : Nat, i < hdr.count.toNat → (loadU32 w.user (hdr.pkt i)).toNat + 2 < 2 ^ 32

/-- Pushing the Ethernet header back restores the packet. -/
theorem writeFrame_pushed {user : UserMem} {pkt : Addr} (junk : Nat → UInt8)
    (whole : 14 ≤ (loadU32 user pkt).toNat) :
    (writeFrame user pkt junk).pushed = packetBytes user pkt :=
  (writeFrame_carries user pkt junk).whole (by rwa [packetBytes_length])

section Write

variable {w : World} {iv : List Iovec} {len : Int} {env : WriteEnv} {hdr : KvnetHeader}

theorem write_injects (write : CleanWrite w iv len env hdr) :
    (ioWriteFromIovec lp64 w iv len env).world.kernel.rx.drop w.kernel.rx.length =
      batchFrames hdr env w.user 0 hdr.count.toNat := by
  obtain ⟨_, moved⟩ := ioWriteLoop_clean lp64 hdr env w hdr.count.toNat 0
    (by simpa using write.clean) lp64.toSsizeT_zero.symm
  rw [ioWriteFromIovec_accepted write.accepted, reportCount_kernel, moved.rx, List.drop_left]

theorem frame_pushed (write : CleanWrite w iv len env hdr) {i : Nat} (named : i < hdr.count.toNat) :
    (batchFrames hdr env w.user 0 hdr.count.toNat)[i]?.map RxSkb.pushed =
      some (packetBytes w.user (hdr.pkt i)) := by
  obtain ⟨fits, _⟩ := lp64_header_fits write.accepted write.measured write.nonneg
  have short := write.short
  have slot : toCInt (0 + i : Nat) = i := by
    rw [Nat.zero_add, toCInt_of_lt (Int.natCast_nonneg i) (by omega)]
  rw [batchFrames, List.getElem?_map, List.getElem?_range named, Option.map_some, Option.map_some,
    slot, writeFrame_pushed _ (write.whole i named)]

/-- A write leaves the transmit side alone. -/
theorem write_represents (w : World) (iv : List Iovec) (len : Int) (env : WriteEnv)
    {xs : List Addr} (rep : Represents w.mem w.queue xs) :
    Represents (ioWriteFromIovec lp64 w iv len env).world.mem
      (ioWriteFromIovec lp64 w iv len env).world.queue xs ∧
    (ioWriteFromIovec lp64 w iv len env).world.queue = w.queue := by
  obtain ⟨v, user, frames, world, injected⟩ := ioWriteFromIovec_injected lp64 w iv len env
  have queue : v.queue = w.queue := congrArg (fun vnet => vnet.netDev.queue) injected.vnet
  rw [world, World.withUser_mem, World.withUser_queue, injected.mem, queue]
  exact ⟨rep, rfl⟩

end Write

/-- What the stack sends of a write is found in the buffers by its place. -/
theorem sentBytes_get {frames : List RxSkb} {back : List (Addr × Nat)}
    (named : ∀ p ∈ back, p.2 < frames.length) {j : Nat} (below : j < back.length) :
    ∃ bytes, frames[back[j].2]?.map RxSkb.pushed = some bytes ∧
      (back[j].1, bytes) ∈ sentBytes frames back := by
  have inside : back[j].2 < frames.length := named back[j] (List.getElem_mem below)
  have found := List.getElem?_eq_getElem inside
  refine ⟨frames[back[j].2].pushed, by rw [found, Option.map_some], ?_⟩
  refine List.mem_filterMap.mpr ⟨back[j], List.getElem_mem below, ?_⟩
  rw [found, Option.map_some]

/-- Whole frames that are written, sent back by the stack in any order over a queue
that is up and has room, and read again are unchanged, provided that nothing faults
and that either request is shorter than 2^31 bytes: each is in the packet the reader
has named for its place in the queue, as far as there is room for it, and the reader
is told how many it got. -/
theorem written_read_back (w : World) (iv iv' : List Iovec) (len len' : Int) (wenv : WriteEnv)
    (renv : ReadEnv) (hdr hdr' : KvnetHeader) (xs : List Addr) (back : List (Addr × Nat))
    (txQueueLen : UInt64) (user : UserMem) (write : CleanWrite w iv len wenv hdr)
    (rep : Represents w.mem w.queue xs) (up : w.queue.enabled ≠ 0)
    (usable : Usable xs txQueueLen back) (named : ∀ p ∈ back, p.2 < hdr.count.toNat)
    (read : CleanRead user iv' len' renv hdr') (short : len' < 2 ^ 31) :
    let written := (ioWriteFromIovec lp64 w iv len wenv).world
    let frames := written.kernel.rx.drop w.kernel.rx.length
    let sent := sendBack txQueueLen frames written back
    let r := ioReadToIovec lp64 (sent.withUser user) iv' len' renv
    let source := userHeader lp64 w.user iv
    let target := userHeader lp64 user iv'
    r.reported = some (min target.count.toNat (xs.length + back.length)) ∧
    ∀ (j : Nat) (below : j < back.length), xs.length + j < target.count.toNat →
      packetBytes r.world.user (target.pkt (xs.length + j : Nat)) =
        (packetBytes w.user (source.pkt back[j].2)).take
          (loadU32 user (target.pkt (xs.length + j : Nat))).toNat := by
  intro written frames
  have injected : frames = batchFrames hdr wenv w.user 0 hdr.count.toNat := write_injects write
  have counted : ∀ p ∈ back, p.2 < frames.length := by
    intro p among
    rw [injected, batchFrames_length]
    exact named p among
  obtain ⟨represents, queue⟩ := write_represents w iv len wenv rep
  have queued := sendBack_queued represents (queue ▸ up) usable counted
  intro sent
  have rep' : Represents (sent.withUser user).mem (sent.withUser user).queue
      (xs ++ back.map Prod.fst) := by
    have places := queued.represents
    rwa [sentBytes_buffers counted] at places
  intro r source target
  have writes : hdr.Agrees source hdr.count.toNat :=
    short_agrees write.accepted write.measured write.nonneg write.short
  have reads : hdr'.Agrees target hdr'.count.toNat :=
    short_agrees read.accepted read.measured read.nonneg short
  rw [← reads.count]
  constructor
  · have told := read_reports_all rep' read
    rwa [List.length_append, List.length_map] at told
  · intro j below placed
    have origin := named _ (List.getElem_mem below)
    obtain ⟨bytes, pushed, among⟩ := sentBytes_get counted below
    have packet : bytes = packetBytes w.user (hdr.pkt back[j].2) := by
      rw [injected, frame_pushed write origin] at pushed
      exact (Option.some.inj pushed).symm
    have inside : xs.length + j < (xs ++ back.map Prod.fst).length := by
      rw [List.length_append, List.length_map]
      omega
    have buffer : (xs ++ back.map Prod.fst)[xs.length + j] = back[j].1 := by
      rw [List.getElem_append_right (Nat.le_add_right _ _)]
      simp
    have carried : ((sent.withUser user).mem.cell back[j].1).data = bytes := queued.data _ among
    have small : bytes.length < 2 ^ 32 := packet ▸ packetBytes_word _ _
    have filled := read_packetBytes rep' read inside placed
    rw [buffer, carried] at filled
    rw [← reads.slots _ placed, ← writes.slots _ origin, filled small, packet]
    rfl

/-- The header at 4096 names two user packets of 14 and 16 bytes. -/
def forwardWorld : World :=
  { batchWorld with
    user := storeBytes (storeBytes batchWorld.user
      8192 (leBytes 4 14 ++ (List.range 14).map UInt8.ofNat))
      12288 (leBytes 4 16 ++ (List.range 16).map UInt8.ofNat) }

def forwardEnv : WriteEnv := ⟨⟨true, false, fun _ => 0⟩, fun _ => none, fun _ _ => 0, none⟩

/-- The two are written, sent back in the other order, and read. -/
def forwarded : IoResult :=
  let written := (ioWriteFromIovec lp64 forwardWorld [⟨4096, 20⟩] 20 forwardEnv).world
  let sent := sendBack 256 (written.kernel.rx.drop forwardWorld.kernel.rx.length) written
    [(1, 1), (2, 0)]
  ioReadToIovec lp64 (sent.withUser pairWorld.user) [⟨4096, 20⟩] 20
    ⟨⟨true, false, fun _ => 0⟩, fun _ => none, none⟩

theorem written_read_back_forwarded : forwarded.reported = some 2 ∧
    packetBytes forwarded.world.user 8192 = packetBytes forwardWorld.user 12288 ∧
    packetBytes forwarded.world.user 12288 = packetBytes forwardWorld.user 8192 := by
  have count : batchHeader.count.toNat = 2 := by decide +kernel
  have packets : ∀ i : Nat, i < 2 → 14 ≤ (loadU32 forwardWorld.user (batchHeader.pkt i)).toNat ∧
      (loadU32 forwardWorld.user (batchHeader.pkt i)).toNat + 2 < 2 ^ 32 := by decide +kernel
  have write : CleanWrite forwardWorld [⟨4096, 20⟩] 20 forwardEnv batchHeader :=
    ⟨rfl, rfl, by decide, by decide, fun _ _ => rfl, fun i h => (packets i (by omega)).1,
      fun i h => (packets i (by omega)).2⟩
  have empty : Represents forwardWorld.mem forwardWorld.queue [] :=
    ⟨rfl, by decide, by decide, fun h => absurd rfl h, rfl⟩
  have usable : Usable [] 256 [(1, 1), (2, 0)] :=
    ⟨by decide, by decide, by decide, by decide⟩
  have read : CleanRead pairWorld.user [⟨4096, 20⟩] 20
      ⟨⟨true, false, fun _ => 0⟩, fun _ => none, none⟩ pairHeader :=
    ⟨rfl, rfl, by decide, fun _ _ => rfl, rfl, pair_apart⟩
  obtain ⟨told, same⟩ := written_read_back forwardWorld [⟨4096, 20⟩] [⟨4096, 20⟩] 20 20 forwardEnv
    ⟨⟨true, false, fun _ => 0⟩, fun _ => none, none⟩ batchHeader pairHeader [] [(1, 1), (2, 0)] 256
    pairWorld.user write empty (by decide) usable (by rw [count]; decide) read
    (by decide)
  have first := same 0 (by decide) (by decide +kernel)
  have second := same 1 (by decide) (by decide +kernel)
  refine ⟨told.trans (by decide +kernel), ?_, ?_⟩
  · exact first.trans (by decide +kernel)
  · exact second.trans (by decide +kernel)

end Kvnet
