import Kvnet.ClientMemory
import Kvnet.Loopback

/-!
# What the client receives

The whole way of a packet: the network stack sends it, the queue holds it, and
the packet loop of the client reads it through the library, up to 64 at a time.
Between two rounds of the loop, and while it waits in poll, any number of packets
may be sent. A read takes effect at once here; how reads and sends interleave
inside the driver is the subject of the modules on its sections and readers.
-/

namespace Kvnet

/-- A packet as the client has room for it. -/
def cut (bytes : List UInt8) : List UInt8 := bytes.take MAX_DATA_SIZE.toNat

/-- The packets of the array that the header counts. -/
def countedPackets (hdr : Addr) (pkt : List Addr) (user : UserMem) : List (List UInt8) :=
  (pkt.take (loadU32 user hdr).toNat).map (packetBytes user)

def World.payload (w : World) (skb : Addr) : List UInt8 := (w.mem.cell skb).data

/-- No access of user memory faults but for the first look at the header. -/
structure Faultless (env : ReadEnv) : Prop where
  clean : ∀ i, env.fault i = none
  written : env.toIovec = none

section Read

variable {hdr : Nat} {pkt : List Nat} (blocks : Malloced lp64 hdr pkt)

theorem mem_iovAddrs_single {base n a : Nat} (among : a ∈ iovAddrs [⟨base, n⟩] n) :
    base ≤ a ∧ a < base + n := by
  rw [iovAddrs, iovAddrs, List.append_nil, Nat.min_self] at among
  obtain ⟨i, below, rfl⟩ := List.mem_map.mp among
  exact ⟨Nat.le_add_right _ _, Nat.add_lt_add_left (List.mem_range.mp below) base⟩

include blocks

theorem loopLen_measured :
    ioDevIovTotal lp64 [⟨hdr, (pktLoopLen lp64).toNat⟩] = (pktLoopLen lp64).toNat := by
  have len := pktLoopLen_toNat blocks.pointer
  rw [ioDevIovTotal_single]
  refine lp64.toSsizeT_of_lt (Int.natCast_nonneg _) ?_
  simp only [lp64] at len ⊢
  omega

/-- A renewed header names packets apart from each other and from itself. -/
theorem renewed_apart {user : UserMem} (renewed : Renewed lp64 hdr pkt user) {h : KvnetHeader}
    (count : h.count.toNat = MAX_PACKETS) (slots : ∀ j p : Nat, pkt[j]? = some p → h.pkt j = p) :
    PacketsApart user [⟨hdr, (pktLoopLen lp64).toNat⟩] (pktLoopLen lp64).toNat h := by
  obtain ⟨data, size, _⟩ := max_sizes
  have slot {i : Nat} (named : i < h.count.toNat) : ∃ p : Nat, pkt[i]? = some p ∧ h.pkt i = p ∧
      (loadU32 user p).toNat = 8190 := by
    have below : i < pkt.length := by rw [blocks.length, ← count]; exact named
    have at_ := List.getElem?_eq_getElem below
    refine ⟨_, at_, slots i _ at_, ?_⟩
    rw [renewed.lengths _ (List.getElem_mem below), data]
  constructor
  · intro i j before named
    obtain ⟨p, at_, is_p, room⟩ := slot (Nat.lt_trans before named)
    obtain ⟨q, at', is_q, room'⟩ := slot named
    obtain ⟨inside, here⟩ := List.getElem?_eq_some_iff.mp at_
    obtain ⟨inside', there⟩ := List.getElem?_eq_some_iff.mp at'
    have far := List.pairwise_iff_getElem.mp blocks.apart i j inside inside' before
    rw [here, there] at far
    rw [is_p, is_q, Apart, room, room']
    omega
  · intro i named a among
    obtain ⟨p, at_, is_p, room⟩ := slot named
    rw [Int.toNat_natCast] at among
    have header := mem_iovAddrs_single among
    have beside := blocks.beside p (List.mem_of_getElem? at_)
    rw [is_p, Outside, room]
    omega

theorem renewed_cleanRead {user : UserMem} (renewed : Renewed lp64 hdr pkt user) {env : ReadEnv}
    (faultless : Faultless env) {h : KvnetHeader}
    (ok : aioHeader lp64 user [⟨hdr, (pktLoopLen lp64).toNat⟩] env.header = .ok h) :
    CleanRead user [⟨hdr, (pktLoopLen lp64).toNat⟩] (pktLoopLen lp64).toNat env h := by
  obtain ⟨count, slots⟩ := aioHeader_slots blocks renewed ok
  have measured := loopLen_measured blocks
  have nonneg : ¬ ((pktLoopLen lp64).toNat : Int) < 0 := by omega
  rw [aioHeader, measured, if_neg nonneg] at ok
  exact ⟨ok, measured, Int.natCast_nonneg _, fun i _ => faultless.clean i, faultless.written,
    renewed_apart blocks renewed count slots⟩

/-- The driver's part of a round: it takes nothing and fails, or the client has
the first packets of the queue. -/
theorem driverRead_receives {w : World} {xs : List Addr} (rep : Represents w.mem w.queue xs)
    (small : ∀ x ∈ xs, (w.payload x).length < 2 ^ 32) (renewed : Renewed lp64 hdr pkt w.user)
    {env : ReadEnv} (faultless : Faultless env) :
    let r := ioDevAioRead lp64 w [⟨hdr, (pktLoopLen lp64).toNat⟩] true env
    r.ret < 0 ∧ r.world.mem = w.mem ∧ r.world.queue = w.queue ∨
      0 ≤ r.ret ∧ Represents r.world.mem r.world.queue (xs.drop MAX_PACKETS) ∧
        r.world.payload = w.payload ∧
        countedPackets hdr pkt r.world.user =
          (xs.take MAX_PACKETS).map fun x => cut (w.payload x) := by
  intro r
  cases fetched : aioHeader lp64 w.user [⟨hdr, (pktLoopLen lp64).toNat⟩] env.header with
  | error e =>
    obtain ⟨same, negative⟩ := aioRead_error fetched
    exact Or.inl ⟨negative, congrArg World.mem same, congrArg World.queue same⟩
  | ok h =>
    obtain ⟨count, slots⟩ := aioHeader_slots blocks renewed fetched
    have read := renewed_cleanRead blocks renewed faultless fetched
    have is_read : r = _ := aioRead_ok fetched
    by_cases empty : xs = []
    · subst empty
      have none_left := ioReadLoop_empty lp64 h env.fault rep 63 0 0
      rw [is_read, count, show MAX_PACKETS = 63 + 1 from rfl, none_left]
      have negative : readEmpty 0 < 0 := by decide
      rw [reportCount_error lp64 w _ _ negative]
      exact Or.inl ⟨negative, rfl, rfl⟩
    obtain ⟨_, moved⟩ := ioReadLoop_clean lp64 h env.fault h.count.toNat 0 rep
      (fun j _ => faultless.clean _) lp64.toSsizeT_zero.symm
    have queued := List.length_pos_iff.mpr empty
    have counted := loop_counts rep read empty
    have same : r = ioReadToIovec lp64 w [⟨hdr, (pktLoopLen lp64).toNat⟩]
        (pktLoopLen lp64).toNat env := is_read.trans (ioReadToIovec_accepted read.accepted).symm
    have bytes {j : Nat} (below : j < xs.length) (named : j < h.count.toNat) :=
      read_packetBytes rep read below named (small _ (List.getElem_mem below))
    rw [← same] at bytes
    rw [count] at counted moved bytes
    generalize first : min MAX_PACKETS xs.length = k at counted
    have few : k ≤ 64 := first ▸ Nat.min_le_left _ _
    have positive : 0 < k := by
      rw [← first]
      exact Nat.lt_min.mpr ⟨by decide, queued⟩
    rw [count, counted, faultless.written, lp64_reportCount _ _ positive (by omega)] at is_read
    refine Or.inr ⟨?_, ?_, ?_, ?_⟩
    · rw [is_read]
      exact show (0 : Int) ≤ lp64.sizeofHeader + ((k - 1) * lp64.ptrSize : Nat) by omega
    · rw [is_read]
      exact moved.represents
    · rw [is_read]
      exact funext moved.data
    · have stored : loadU32 r.world.user hdr = UInt32.ofNat k := by
        have len := pktLoopLen_toNat blocks.pointer
        have word : (UInt32.ofNat k).toNat = k :=
          UInt32.toNat_ofNat_of_lt' (show k < 2 ^ 32 by omega)
        have whole : (leBytes 4 k).take (pktLoopLen lp64).toNat =
            leBytes 4 (UInt32.ofNat k).toNat := by
          rw [word]
          exact List.take_of_length_le (by rw [leBytes_length, len]; omega)
        rw [is_read, World.withUser, scatter, scatter, whole]
        exact loadU32_storeU32 _ hdr _
      have word : (loadU32 r.world.user hdr).toNat = k := by
        rw [stored, UInt32.toNat_ofNat_of_lt' (show k < 2 ^ 32 by omega)]
      have array := blocks.length
      refine List.ext_getElem ?_ fun j below below' => ?_
      · simp only [countedPackets, List.length_map, List.length_take, word, array]
        rw [first]
        exact Nat.min_eq_left few
      · simp only [List.length_map, List.length_take] at below'
        have here : j < xs.length := by omega
        have named : j < MAX_PACKETS := by omega
        have inside : j < pkt.length := by rw [array]; exact named
        have packet := bytes here named
        rw [slots j _ (List.getElem?_eq_getElem inside),
          renewed.lengths _ (List.getElem_mem inside)] at packet
        simp only [countedPackets, List.getElem_map, List.getElem_take]
        exact packet

/-- A round that does not succeed leaves the queue as it is; one that does has
given the client the first packets of it. -/
def RoundReceives (hdr : Addr) (pkt : List Addr) (w : World) (xs : List Addr) (r : RoundResult) :
    Prop :=
  ((∀ status, r.status = some status → ¬ kvnetSucceeded status = true) ∧
      r.world.mem = w.mem ∧ r.world.queue = w.queue) ∨
    (∃ status, r.status = some status ∧ kvnetSucceeded status = true) ∧
      Represents r.world.mem r.world.queue (xs.drop MAX_PACKETS) ∧
      r.world.payload = w.payload ∧
      countedPackets hdr pkt r.world.user =
        (xs.take MAX_PACKETS).map fun x => cut (w.payload x)

theorem round_receives {w : World} {xs : List Addr} (rep : Represents w.mem w.queue xs)
    (small : ∀ x ∈ xs, (w.payload x).length < 2 ^ 32) (renewed : Renewed lp64 hdr pkt w.user)
    {l : Lib} (driver : l.useTapDev = 0) (errno : UInt32) (outcome : PollOutcome) {data : DataEnv}
    (faultless : Faultless data.driver) : RoundReceives hdr pkt w xs
      (kvnetReadRound lp64 l w hdr (pktLoopLen lp64) errno outcome data) := by
  have idle {r : RoundResult} (world : r.world = w)
      (fails : ∀ status, r.status = some status → ¬ kvnetSucceeded status = true) :
      RoundReceives hdr pkt w xs r :=
    Or.inl ⟨fails, congrArg World.mem world, congrArg World.queue world⟩
  have failing (code : UInt32) (other : code &&& lowHalf ≠ KVNET_NO_ERROR) (e : UInt32) :
      ∀ status, some (kvnetMakeStatus e code) = some status → ¬ kvnetSucceeded status = true := by
    rintro _ ⟨⟩
    exact not_succeeded e other
  cases outcome with
  | fail e =>
    rw [kvnetReadRound]
    split
    · exact idle rfl fun _ none_yet => by cases none_yet
    · exact idle rfl (failing _ (by decide) e)
  | timeout =>
    simp only [kvnetReadRound, driver, ne_eq, not_true_eq_false, if_false]
    exact idle rfl (failing _ (by decide) errno)
  | ready revents =>
    simp only [kvnetReadRound, driver, ne_eq, not_true_eq_false, if_false]
    split
    · exact idle rfl (failing _ (by decide) errno)
    split
    · have received := driverRead_receives blocks rep small renewed faultless
      generalize ioDevAioRead lp64 w [⟨hdr, (pktLoopLen lp64).toNat⟩] true data.driver = r
        at received ⊢
      rcases received with ⟨negative, mem, queue⟩ | ⟨nonneg, rest⟩
      · rw [if_pos negative]
        exact Or.inl ⟨failing _ (by decide) errno, mem, queue⟩
      · rw [if_neg (Int.not_lt.mpr nonneg)]
        exact Or.inr ⟨⟨_, rfl, by rw [kvnetSucceeded, kvnetStatus_make]; decide⟩, rest⟩
    · exact idle rfl (failing _ (by decide) errno)

end Read

/-- net_dev_send of a buffer that the stack has filled: it is at the end of the
queue, or dropped. -/
theorem send_queues {w : World} {xs : List Addr} (rep : Represents w.mem w.queue xs) {skb : Addr}
    (valid : skb ≠ NULL) (fresh : skb ∉ xs) (data : List UInt8) (txQueueLen : UInt64) :
    let r := netDevSendSection (w.stackWrite skb data) skb txQueueLen
    r.1.user = w.user ∧ (∀ x, r.1.payload x = if x = skb then data else w.payload x) ∧
      Represents r.1.mem r.1.queue (if r.2 then xs ++ [skb] else xs) := by
  have written := stackWrite_represents rep skb data
  by_cases drops : SendDrops (w.stackWrite skb data).queue txQueueLen
  · simp only [netDevSendSection_drops drops, Bool.false_eq_true, if_false]
    have freed : ∀ x ∈ xs, (w.stackWrite skb data).mem.next x =
        ((w.stackWrite skb data).mem.kfreeSkb skb).next x := fun _ _ => rfl
    exact ⟨rfl, stackWrite_data w skb data, written.congr freed⟩
  · simp only [netDevSendSection_inserts drops, if_true]
    refine ⟨rfl, fun x => ?_, queueInsert_represents written valid fresh⟩
    exact (queueInsert_data _ _ skb x).trans (stackWrite_data w skb data x)

/-- `accepted` are the packets that net_dev_send has queued, `received` those
that the loop has found in its packets, each when it prints their lengths. -/
structure Reception where
  loop : PacketLoop
  accepted : List (List UInt8)
  received : List (List UInt8)

inductive ReceptionAction where
  | client (a : BodyAction)
  | send (skb : Addr) (data : List UInt8) (txQueueLen : UInt64)

namespace Reception

/-- What a step of the loop finds in its packets. -/
def found (hdr : Addr) (pkt : List Addr) (user : UserMem) : BodyAction → List (List UInt8)
  | .print => countedPackets hdr pkt user
  | _ => []

def step (hdr : Addr) (pkt : List Addr) (s : Reception) : ReceptionAction → Option Reception
  | .client a => (PacketLoop.step lp64 hdr pkt s.loop a).map fun loop =>
    { s with loop := loop, received := s.received ++ found hdr pkt s.loop.world.user a }
  | .send skb data txQueueLen =>
    let (world, inserted) :=
      netDevSendSection (s.loop.world.stackWrite skb data) skb txQueueLen
    some { s with
      loop := { s.loop with world := world }
      accepted := if inserted then s.accepted ++ [data] else s.accepted }

/-- The stack sends a buffer that is not in the queue, and a packet whose length
an skb can hold; reads do not fault. The only traffic is what is sent. -/
def Legal (s : Reception) : ReceptionAction → Prop
  | .client (.readRound _ data _) => Faultless data.driver
  | .client (.traffic _) => False
  | .client _ => True
  | .send skb data _ => skb ≠ NULL ∧ data.length < 2 ^ 32 ∧
    ∀ xs, Represents s.loop.world.mem s.loop.world.queue xs → skb ∉ xs

/-- The packets that were read and are to be printed. -/
def inHand (hdr : Addr) (pkt : List Addr) (loop : PacketLoop) : List (List UInt8) :=
  if loop.pc = .print then countedPackets hdr pkt loop.world.user else []

/-- What is queued. -/
def queued (w : World) (xs : List Addr) : List (List UInt8) := xs.map w.payload

/-- Every packet accepted is in one of three places, and they are in order. -/
structure Flows (hdr : Nat) (pkt : List Nat) (s : Reception) (xs : List Addr) : Prop where
  queue : Represents s.loop.world.mem s.loop.world.queue xs
  small : ∀ x ∈ xs, (s.loop.world.payload x).length < 2 ^ 32
  driver : s.loop.lib.useTapDev = 0
  renewed : s.loop.pc = .kvnetRead → Renewed lp64 hdr pkt s.loop.world.user
  counted : s.loop.pc = .print → Counted hdr s.loop.world.user
  all : s.received ++ inHand hdr pkt s.loop ++ (queued s.loop.world xs).map cut =
    s.accepted.map cut
  printed : s.loop.printed.flatten = s.received.map fun bytes => some (UInt32.ofNat bytes.length)

section Step

variable {hdr : Nat} {pkt : List Nat} {s t : Reception} {xs : List Addr}

theorem found_other {user : UserMem} {a : BodyAction} (other : a ≠ .print) :
    found hdr pkt user a = [] := by
  cases a with
  | print => exact absurd rfl other
  | _ => rfl

theorem inHand_idle {loop : PacketLoop} (idle : loop.pc ≠ .print) : inHand hdr pkt loop = [] :=
  if_neg idle

/-- The lengths that are printed are those of the packets. -/
theorem lengths_counted {user : UserMem} (array : pkt.length = MAX_PACKETS)
    (counted : Counted hdr user) : PacketLoop.lengths pkt hdr user =
      (countedPackets hdr pkt user).map fun bytes => some (UInt32.ofNat bytes.length) := by
  have few : (loadU32 user hdr).toNat ≤ pkt.length := array ▸ counted.2
  refine List.ext_getElem ?_ fun i below _ => ?_
  · simp only [PacketLoop.lengths, countedPackets, List.length_map, List.length_range,
      List.length_take, Nat.min_eq_left few]
  · simp only [PacketLoop.lengths, List.length_map, List.length_range] at below
    have inside : i < pkt.length := Nat.lt_of_lt_of_le below few
    simp only [PacketLoop.lengths, countedPackets, List.getElem_map, List.getElem_range,
      List.getElem_take, List.getElem?_eq_getElem inside, Option.map_some, packetBytes_length,
      UInt32.ofNat_toNat]

/-- A step of the loop, not to or from its printing, that leaves the queue alone. -/
theorem idle_flows (h : Flows hdr pkt s xs) {loop : PacketLoop}
    (mem : loop.world.mem = s.loop.world.mem) (queue : loop.world.queue = s.loop.world.queue)
    (lib : loop.lib = s.loop.lib) (printed : loop.printed = s.loop.printed)
    (before : s.loop.pc ≠ .print) (after : loop.pc ≠ .print)
    (renewed : loop.pc = .kvnetRead → Renewed lp64 hdr pkt loop.world.user) :
    Flows hdr pkt { s with loop := loop } xs := by
  have payload : loop.world.payload = s.loop.world.payload := by
    funext x
    rw [World.payload, mem]
    rfl
  refine ⟨by rw [mem, queue]; exact h.queue, payload ▸ h.small, lib ▸ h.driver, renewed,
    fun at_ => absurd at_ after, ?_, printed ▸ h.printed⟩
  have all := h.all
  rw [inHand_idle before] at all
  rw [inHand_idle after, queued, payload]
  exact all

theorem readRound_flows (blocks : Malloced lp64 hdr pkt) (h : Flows hdr pkt s xs)
    {outcome : PollOutcome} {data : DataEnv} {errno : UInt32} (faultless : Faultless data.driver)
    {loop : PacketLoop}
    (moved : PacketLoop.step lp64 hdr pkt s.loop (.readRound outcome data errno) = some loop) :
    ∃ ys, Flows hdr pkt { s with loop := loop } ys := by
  obtain ⟨here, same⟩ := Option.ite_none_right_eq_some.mp moved
  obtain rfl := Option.some.inj same
  have before : s.loop.pc ≠ .print := by rw [here]; decide
  have renewed := h.renewed here
  obtain ⟨_, again, counted⟩ := round_within blocks renewed s.loop.lib errno outcome data
  have received := round_receives blocks h.queue h.small renewed h.driver errno outcome faultless
  generalize kvnetReadRound lp64 s.loop.lib s.loop.world hdr (pktLoopLen lp64) errno outcome data =
    r at again counted received
  rcases received with ⟨fails, mem, queue⟩ | ⟨⟨status, ends, ok⟩, queue, payload, packets⟩
  · refine ⟨xs, ?_⟩
    cases ends : r.status with
    | none =>
      refine idle_flows h mem queue rfl rfl before (fun at_ => by cases at_) fun _ => ?_
      rw [again ends]
      exact renewed
    | some status =>
      simp only [if_neg (fails status ends)]
      exact idle_flows h mem queue rfl rfl before (fun at_ => by cases at_)
        fun at_ => by cases at_
  · simp only [ends, if_pos ok]
    refine ⟨xs.drop MAX_PACKETS, queue, fun x among => ?_, h.driver, fun at_ => (by cases at_),
      fun _ => counted status ends ok, ?_, h.printed⟩
    · rw [payload]
      exact h.small x (List.mem_of_mem_drop among)
    · have hand : inHand hdr pkt { s.loop with world := r.world, pc := .print } =
          (queued s.loop.world (xs.take MAX_PACKETS)).map cut := by
        rw [inHand, if_pos rfl, packets, queued, List.map_map]
        rfl
      have left : queued r.world (xs.drop MAX_PACKETS) =
          queued s.loop.world (xs.drop MAX_PACKETS) := by rw [queued, payload, queued]
      have all := h.all
      rw [inHand_idle before, List.append_nil] at all
      rw [hand, left, List.append_assoc, ← List.map_append, queued, queued, ← List.map_append,
        List.take_append_drop]
      exact all

theorem send_flows (h : Flows hdr pkt s xs) {skb : Addr} {data : List UInt8} {txQueueLen : UInt64}
    (legal : Legal s (.send skb data txQueueLen))
    (moved : step hdr pkt s (.send skb data txQueueLen) = some t) : ∃ ys, Flows hdr pkt t ys := by
  obtain ⟨valid, fits, fresh⟩ := legal
  have unqueued := fresh xs h.queue
  have sent := send_queues h.queue valid unqueued data txQueueLen
  simp only [step] at moved
  obtain rfl := Option.some.inj moved
  generalize netDevSendSection (s.loop.world.stackWrite skb data) skb txQueueLen = r at sent
  obtain ⟨world, inserted⟩ := r
  obtain ⟨user, payload, queue⟩ := sent
  dsimp only at user payload queue ⊢
  have kept : ∀ x ∈ xs, world.payload x = s.loop.world.payload x := by
    intro x among
    rw [payload, if_neg]
    rintro rfl
    exact unqueued among
  have before : queued world xs = queued s.loop.world xs := List.map_congr_left kept
  have small : ∀ x ∈ xs, (world.payload x).length < 2 ^ 32 := fun x among => by
    rw [kept x among]
    exact h.small x among
  have hand : inHand hdr pkt { s.loop with world := world } = inHand hdr pkt s.loop := by
    simp only [inHand, user]
  have renewed : s.loop.pc = .kvnetRead → Renewed lp64 hdr pkt world.user := by
    rw [user]
    exact h.renewed
  have counted : s.loop.pc = .print → Counted hdr world.user := by
    rw [user]
    exact h.counted
  have all := h.all
  cases inserted with
  | false =>
    refine ⟨xs, queue, small, h.driver, renewed, counted, ?_, h.printed⟩
    rw [hand, before]
    exact all
  | true =>
    refine ⟨xs ++ [skb], queue, fun x among => ?_, h.driver, renewed, counted, ?_, h.printed⟩
    · rcases List.mem_append.mp among with old | new
      · exact small x old
      · rw [payload, if_pos (List.mem_singleton.mp new)]
        exact fits
    · have last : queued world (xs ++ [skb]) = queued s.loop.world xs ++ [data] := by
        rw [← before, queued, List.map_append, List.map_singleton, payload, if_pos rfl]
        rfl
      simp only [hand, last, if_true, List.map_append]
      rw [← List.append_assoc, all]

theorem step_flows (blocks : Malloced lp64 hdr pkt) (h : Flows hdr pkt s xs)
    {a : ReceptionAction} (legal : Legal s a) (moved : step hdr pkt s a = some t) :
    ∃ ys, Flows hdr pkt t ys := by
  cases a with
  | send skb data txQueueLen => exact send_flows h legal moved
  | client a =>
    obtain ⟨loop, stepped, rfl⟩ := Option.map_eq_some_iff.mp moved
    cases a with
    | readRound outcome data errno =>
      rw [found_other (by simp), List.append_nil]
      exact readRound_flows blocks h legal stepped
    | traffic world => exact legal.elim
    | test canRunLoop =>
      obtain ⟨here, same⟩ := Option.ite_none_right_eq_some.mp stepped
      obtain rfl := Option.some.inj same
      rw [found_other (by simp), List.append_nil]
      refine ⟨xs, idle_flows h rfl rfl rfl rfl (by rw [here]; decide) ?_ ?_⟩
      · cases canRunLoop
        · exact fun at_ => by cases at_
        · exact fun at_ => by cases at_
      · cases canRunLoop
        · exact fun at_ => by cases at_
        · exact fun at_ => by cases at_
    | renew =>
      obtain ⟨here, same⟩ := Option.ite_none_right_eq_some.mp stepped
      obtain rfl := Option.some.inj same
      rw [found_other (by simp), List.append_nil]
      refine ⟨xs, idle_flows h rfl rfl rfl rfl (by rw [here]; decide) ?_ fun _ => ?_⟩
      · dsimp only
        split
        · decide
        · decide
      · exact renew_renewed blocks s.loop.world.user
    | print =>
      obtain ⟨here, same⟩ := Option.ite_none_right_eq_some.mp stepped
      obtain rfl := Option.some.inj same
      have hand : inHand hdr pkt s.loop = countedPackets hdr pkt s.loop.world.user := if_pos here
      have all := h.all
      rw [hand] at all
      refine ⟨xs, h.queue, h.small, h.driver, fun at_ => (by cases at_), fun at_ => (by cases at_),
        ?_, ?_⟩
      · rw [inHand_idle fun at_ => (by cases at_), List.append_nil]
        exact all
      · simp only [found, List.flatten_append, List.flatten_singleton, List.map_append, h.printed,
          lengths_counted blocks.length (h.counted here)]
    | cancel canceled =>
      obtain rfl := Option.some.inj stepped
      rw [found_other (by simp), List.append_nil]
      exact ⟨xs, h.queue, h.small, h.driver, h.renewed, h.counted, h.all, h.printed⟩

end Step

/-- The client has read nothing from the driver yet, and some packets are queued
already. -/
structure Starts (s : Reception) (xs : List Addr) : Prop where
  pc : s.loop.pc = .test
  driver : s.loop.lib.useTapDev = 0
  printed : s.loop.printed = []
  received : s.received = []
  queue : Represents s.loop.world.mem s.loop.world.queue xs
  small : ∀ x ∈ xs, (s.loop.world.payload x).length < 2 ^ 32
  accepted : s.accepted = queued s.loop.world xs

/-- In every run in which no user access faults, however sends and rounds follow
each other, each packet that net_dev_send takes reaches the client once, in order
and whole up to 8190 bytes: what the loop has found, what it is about to print
and what is queued are together what was accepted; and it prints their lengths. -/
theorem received_in_order (hdr : Addr) (pkt : List Addr) (s₀ s : Reception)
    (actions : List ReceptionAction) (xs₀ : List Addr) (blocks : Malloced lp64 hdr pkt)
    (start : Starts s₀ xs₀) (legal : Execution.Meets (step hdr pkt) Legal s₀ actions)
    (h : Execution.run (step hdr pkt) s₀ actions = some s) :
    ∃ xs, Represents s.loop.world.mem s.loop.world.queue xs ∧
      s.received ++ inHand hdr pkt s.loop ++ (queued s.loop.world xs).map cut =
        s.accepted.map cut ∧
      s.loop.printed.flatten = s.received.map fun bytes => some (UInt32.ofNat bytes.length) := by
  have begins : Flows hdr pkt s₀ xs₀ := by
    refine ⟨start.queue, start.small, start.driver, ?_, ?_, ?_, ?_⟩
    · exact fun at_ => by rw [start.pc] at at_; cases at_
    · exact fun at_ => by rw [start.pc] at at_; cases at_
    · rw [inHand_idle (by rw [start.pc]; decide), start.received, start.accepted]
      rfl
    · rw [start.printed, start.received]
      rfl
  obtain ⟨xs, flows⟩ := Execution.run_guarded_invariant (fun s => ∃ xs, Flows hdr pkt s xs)
    (fun _ _ _ ⟨_, held⟩ legal moved => step_flows blocks held legal moved) ⟨xs₀, begins⟩ legal h
  exact ⟨xs, flows.queue, flows.all, flows.printed⟩

end Reception

/-- The client is about to read while two packets are queued. -/
def waiting : Reception :=
  ⟨⟨⟨3, 0, 0⟩, pairWorld, .test, []⟩, [[0xaa], [0xbb]], []⟩

/-- A third is sent, and one round reads all of them. -/
def thirdSent : List ReceptionAction :=
  [.send 3 [0xcc, 0xcd] 256, .client (.test true), .client .renew,
    .client (.readRound (.ready POLLIN) noFrame 0), .client .print]

theorem received_in_order_thirdSent : ∃ s,
    Execution.run (Reception.step 4096 packetBlocks) waiting thirdSent = some s ∧
      s.accepted.map cut = [[0xaa], [0xbb], [0xcc, 0xcd]] ∧
      s.loop.printed.flatten = [some 1, some 1, some 2] := by
  have ran : (Execution.run (Reception.step 4096 packetBlocks) waiting thirdSent).map (fun s =>
      (s.received, s.loop.pc, s.loop.world.queue.head)) =
        some ([[0xaa], [0xbb], [0xcc, 0xcd]], .test, NULL) := by decide +kernel
  obtain ⟨s, run, at_⟩ := Option.map_eq_some_iff.mp ran
  simp only [Prod.mk.injEq] at at_
  obtain ⟨received, pc, drained⟩ := at_
  have start : Reception.Starts waiting [1, 2] :=
    ⟨rfl, rfl, rfl, rfl, pair_represents, by decide, rfl⟩
  have fresh : ∀ xs, Represents pairWorld.mem pairWorld.queue xs → 3 ∉ xs := by
    intro xs rep
    rw [← pair_represents.unique rep]
    decide
  have legal : Execution.Meets (Reception.step 4096 packetBlocks) Reception.Legal waiting
      thirdSent :=
    ⟨⟨by decide, by decide, fresh⟩, fun _ _ => ⟨trivial, fun _ _ => ⟨trivial, fun _ _ =>
      ⟨⟨fun _ => rfl, rfl⟩, fun _ _ => ⟨trivial, fun _ _ => trivial⟩⟩⟩⟩⟩
  obtain ⟨xs, rep, all, printed⟩ := Reception.received_in_order 4096 packetBlocks waiting s
    thirdSent [1, 2] packetBlocks_malloced start legal run
  have empty : xs = [] := rep.head_eq_null_iff.mp drained
  rw [empty, received, Reception.inHand_idle (by rw [pc]; decide)] at all
  exact ⟨s, run, all.symm, by rw [printed, received]; rfl⟩

end Kvnet
