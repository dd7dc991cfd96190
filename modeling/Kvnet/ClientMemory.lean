import Kvnet.Backends
import Kvnet.Client
import Kvnet.ReadBatch
import Mathlib.Data.List.Pairwise

/-!
# The memory of the packet loop

pktLoop has a header and 64 packets from malloc, and keeps the addresses of the
packets in an array on its stack. Before each read it renews their lengths, the
header's slots and its count; after it, it looks at as many packets as the header
then counts. At its end it frees what the array names.
-/

namespace Kvnet

def MAX_DATA_SIZE : UInt32 := 8190

/-- sizeof(struct kvnet_packet), packed: a length and one byte of data. -/
def sizeofPacket : Nat := 4 + 1

def MAX_PACKET_SIZE : Nat := sizeofPacket + MAX_DATA_SIZE.toNat

/-- The loop that allocates the packets, from index i on: the array after it, and
whether it got to the end. The array holds at first what the stack held before;
`malloc` is what the calls answer. -/
def allocPackets (malloc : Nat → Addr) : Nat → List Addr → List Addr × Bool
  | _, [] => ([], true)
  | i, _ :: stack =>
    if malloc i = NULL then (NULL :: stack, false)
    else
      let (pkt, all) := allocPackets malloc (i + 1) stack
      (malloc i :: pkt, all)

/-- What the loop at cleanup frees. -/
def freePackets (pkt : List Addr) : List Addr := pkt.filter fun p => p ≠ NULL

/-- The packets malloc gave: those before its first failure. -/
def allocatedPackets (malloc : Nat → Addr) (i n : Nat) : List Addr :=
  ((List.range' i n).map malloc).takeWhile fun p => p ≠ NULL

theorem allocPackets_freed_iff (malloc : Nat → Addr) (i : Nat) (stack : List Addr) :
    freePackets (allocPackets malloc i stack).1 = allocatedPackets malloc i stack.length ↔
      ∀ j p, stack[j]? = some p → (∃ k, k < j ∧ malloc (i + k) = NULL) → p = NULL := by
  induction stack generalizing i with
  | nil => simp [allocPackets, freePackets, allocatedPackets]
  | cons p stack ih =>
    have none_before : ¬ ∃ k, k < 0 ∧ malloc (i + k) = NULL := by
      rintro ⟨k, before, _⟩
      exact Nat.not_lt_zero k before
    rw [allocPackets, allocatedPackets, List.length_cons, List.range'_succ, List.map_cons]
    by_cases failed : malloc i = NULL
    · rw [if_pos failed, List.takeWhile_cons_of_neg (by simp [failed])]
      have rest : freePackets (NULL :: stack) = [] ↔ ∀ q ∈ stack, q = NULL := by
        simp [freePackets]
      rw [rest]
      constructor
      · intro blank j q at_ before
        cases j with
        | zero => exact absurd before none_before
        | succ j => exact blank q (List.mem_of_getElem? at_)
      · intro blank q among
        obtain ⟨j, at_⟩ := List.getElem?_of_mem among
        exact blank (j + 1) q at_ ⟨0, Nat.succ_pos j, failed⟩
    · have kept : freePackets (malloc i :: (allocPackets malloc (i + 1) stack).1) =
          malloc i :: freePackets (allocPackets malloc (i + 1) stack).1 :=
        List.filter_cons_of_pos (by simpa using failed)
      have shift : ∀ j, (∃ k, k < j + 1 ∧ malloc (i + k) = NULL) ↔
          ∃ k, k < j ∧ malloc (i + 1 + k) = NULL := by
        intro j
        constructor
        · rintro ⟨k, before, null⟩
          cases k with
          | zero => exact absurd null failed
          | succ k => exact ⟨k, by omega, by rwa [Nat.add_assoc, Nat.add_comm 1 k]⟩
        · rintro ⟨k, before, null⟩
          exact ⟨k + 1, by omega, by rwa [Nat.add_assoc, Nat.add_comm 1 k] at null⟩
      rw [if_neg failed, List.takeWhile_cons_of_pos (by simpa using failed), kept,
        List.cons_inj_right]
      refine (ih (i + 1)).trans ?_
      constructor
      · intro blank j q at_ before
        cases j with
        | zero => exact absurd before none_before
        | succ j => exact blank j q at_ ((shift j).mp before)
      · intro blank j q at_ before
        exact blank (j + 1) q at_ ((shift j).mpr before)

/-- Cleanup frees the packets that were allocated, and nothing else, exactly when
the slots behind the one malloc failed for happened to be NULL before. -/
theorem cleanup_frees_allocated_iff (malloc : Nat → Addr) (stack : List Addr) :
    freePackets (allocPackets malloc 0 stack).1 = allocatedPackets malloc 0 stack.length ↔
      ∀ j p, stack[j]? = some p → (∃ k, k < j ∧ malloc k = NULL) → p = NULL := by
  simpa only [Nat.zero_add] using allocPackets_freed_iff malloc 0 stack

example : freePackets (allocPackets (fun i => if i = 1 then NULL else 512) 0 [7, 8, 9]).1 =
    [512, 9] := by decide

/-- The loop that renews the lengths. -/
def renewLengths : List Addr → UserMem → UserMem
  | [], user => user
  | p :: pkt, user => renewLengths pkt (storeU32 user p MAX_DATA_SIZE)

/-- The loop that renews the slots, from index i on. -/
def renewSlots (arch : Arch) (hdr : Addr) : Nat → List Addr → UserMem → UserMem
  | _, [], user => user
  | i, p :: pkt, user =>
    renewSlots arch hdr (i + 1) pkt
      (storeBytes user (hdr + 4 + i * arch.ptrSize) (leBytes arch.ptrSize p))

def renew (arch : Arch) (hdr : Addr) (pkt : List Addr) (user : UserMem) : UserMem :=
  storeU32 (renewSlots arch hdr 0 pkt (renewLengths pkt user)) hdr (UInt32.ofNat MAX_PACKETS)

/-- Blocks as malloc hands them out: apart from each other, and with addresses
that a pointer holds. -/
structure Malloced (arch : Arch) (hdr : Nat) (pkt : List Nat) : Prop where
  length : pkt.length = MAX_PACKETS
  valid : hdr ≠ NULL
  pointer : arch.ptrSize ≤ 8
  header : hdr + (pktLoopLen arch).toNat < 2 ^ arch.wordBits
  packets : ∀ p ∈ pkt, p < 256 ^ arch.ptrSize
  apart : pkt.Pairwise fun p q => p + MAX_PACKET_SIZE ≤ q ∨ q + MAX_PACKET_SIZE ≤ p
  beside : ∀ p ∈ pkt, p + MAX_PACKET_SIZE ≤ hdr ∨ hdr + (pktLoopLen arch).toNat ≤ p

/-- The address a lies in none of the blocks. -/
def OutsideBlocks (arch : Arch) (hdr : Nat) (pkt : List Nat) (a : Nat) : Prop :=
  (a < hdr ∨ hdr + (pktLoopLen arch).toNat ≤ a) ∧ ∀ p ∈ pkt, a < p ∨ p + MAX_PACKET_SIZE ≤ a

/-- The header and the packets as a read finds them. -/
structure Renewed (arch : Arch) (hdr : Nat) (pkt : List Nat) (user : UserMem) : Prop where
  count : loadU32 user hdr = UInt32.ofNat MAX_PACKETS
  slots : ∀ i p, pkt[i]? = some p →
    loadBytes user (hdr + 4 + i * arch.ptrSize) arch.ptrSize = leBytes arch.ptrSize p
  lengths : ∀ p ∈ pkt, loadU32 user p = MAX_DATA_SIZE

theorem max_sizes : MAX_DATA_SIZE.toNat = 8190 ∧ MAX_PACKET_SIZE = 8195 ∧ MAX_PACKETS = 64 := by
  decide

theorem pktLoopLen_toNat {arch : Arch} (pointer : arch.ptrSize ≤ 8) :
    (pktLoopLen arch).toNat = 4 + 64 * arch.ptrSize := by
  have size : arch.sizeofHeader + (MAX_PACKETS - 1) * arch.ptrSize = 4 + 64 * arch.ptrSize := by
    simp only [Arch.sizeofHeader, MAX_PACKETS]
    omega
  rw [pktLoopLen, size, UInt32.toNat_ofNat_of_lt' (show _ < 2 ^ 32 by omega)]

theorem renewLengths_outside (pkt : List Nat) (user : UserMem) {a : Nat}
    (outside : ∀ p ∈ pkt, a < p ∨ p + 4 ≤ a) : renewLengths pkt user a = user a := by
  induction pkt generalizing user with
  | nil => rfl
  | cons p pkt ih =>
    rw [renewLengths, ih _ fun q among => outside q (List.mem_cons_of_mem p among)]
    exact storeU32_outside user (outside p List.mem_cons_self)

theorem renewLengths_length {pkt : List Nat} (user : UserMem)
    (apart : pkt.Pairwise fun p q => p + 4 ≤ q ∨ q + 4 ≤ p) :
    ∀ p ∈ pkt, loadU32 (renewLengths pkt user) p = MAX_DATA_SIZE := by
  induction pkt generalizing user with
  | nil => exact fun _ none_there => absurd none_there List.not_mem_nil
  | cons p pkt ih =>
    obtain ⟨beside, later⟩ := List.pairwise_cons.mp apart
    intro q among
    rw [renewLengths]
    rcases List.mem_cons.mp among with rfl | rest
    · have kept : loadU32 (renewLengths pkt (storeU32 user q MAX_DATA_SIZE)) q =
          loadU32 (storeU32 user q MAX_DATA_SIZE) q := by
        refine loadU32_congr fun x above below => ?_
        refine renewLengths_outside pkt _ fun r among => ?_
        have := beside r among
        omega
      rw [kept, loadU32_storeU32]
    · exact ih _ later q rest

theorem renewSlots_outside (arch : Arch) (hdr : Nat) (i : Nat) (pkt : List Nat) (user : UserMem)
    {a : Nat} (outside : a < hdr + 4 + i * arch.ptrSize ∨
      hdr + 4 + (i + pkt.length) * arch.ptrSize ≤ a) :
    renewSlots arch hdr i pkt user a = user a := by
  induction pkt generalizing i user with
  | nil => rfl
  | cons p pkt ih =>
    have here : (i + 1) * arch.ptrSize = i * arch.ptrSize + arch.ptrSize := Nat.succ_mul _ _
    have whole : (i + (p :: pkt).length) * arch.ptrSize =
        (i + 1 + pkt.length) * arch.ptrSize := by
      rw [List.length_cons, Nat.add_assoc, Nat.add_comm 1]
    have grows : (i + 1) * arch.ptrSize ≤ (i + 1 + pkt.length) * arch.ptrSize :=
      Nat.mul_le_mul_right _ (Nat.le_add_right _ _)
    rw [renewSlots, ih (i + 1) _ (by omega)]
    refine storeBytes_outside user ?_
    rw [leBytes_length]
    omega

theorem renewSlots_slot (arch : Arch) (hdr : Nat) (i : Nat) (pkt : List Nat) (user : UserMem)
    {j : Nat} {p : Nat} (at_ : pkt[j]? = some p) :
    loadBytes (renewSlots arch hdr i pkt user) (hdr + 4 + (i + j) * arch.ptrSize) arch.ptrSize =
      leBytes arch.ptrSize p := by
  induction pkt generalizing i j user with
  | nil => cases at_
  | cons q pkt ih =>
    rw [renewSlots]
    cases j with
    | zero =>
      obtain rfl : q = p := Option.some.inj at_
      have here : (i + 1) * arch.ptrSize = i * arch.ptrSize + arch.ptrSize := Nat.succ_mul _ _
      have stored := loadBytes_storeBytes user (hdr + 4 + i * arch.ptrSize) (leBytes arch.ptrSize q)
      rw [leBytes_length] at stored
      rw [show i + 0 = i from rfl]
      refine (loadBytes_congr fun x _ below => ?_).trans stored
      exact renewSlots_outside arch hdr (i + 1) pkt _ (Or.inl (by omega))
    | succ j =>
      rw [show i + (j + 1) = i + 1 + j by omega]
      exact ih (i + 1) _ at_

section Blocks

variable {arch : Arch} {hdr : Nat} {pkt : List Nat} (blocks : Malloced arch hdr pkt)

include blocks

theorem Malloced.apart_of_ne {p q : Nat} (hp : p ∈ pkt) (hq : q ∈ pkt) (ne : p ≠ q) :
    p + MAX_PACKET_SIZE ≤ q ∨ q + MAX_PACKET_SIZE ≤ p := by
  have : Std.Symm fun p q : Nat => p + MAX_PACKET_SIZE ≤ q ∨ q + MAX_PACKET_SIZE ≤ p :=
    ⟨fun _ _ => Or.symm⟩
  exact blocks.apart.forall hp hq ne

/-- Renewing writes to the blocks only. -/
theorem renew_outside (user : UserMem) {a : Nat} (outside : OutsideBlocks arch hdr pkt a) :
    renew arch hdr pkt user a = user a := by
  obtain ⟨_, packet, few⟩ := max_sizes
  have len := pktLoopLen_toNat blocks.pointer
  have header := outside.1
  have size : (0 + pkt.length) * arch.ptrSize = 64 * arch.ptrSize := by
    rw [Nat.zero_add, blocks.length, few]
  rw [renew, storeU32_outside _ (by omega), renewSlots_outside arch hdr 0 pkt _ (by omega)]
  refine renewLengths_outside pkt user fun p among => ?_
  have := outside.2 p among
  omega

theorem renew_renewed (user : UserMem) : Renewed arch hdr pkt (renew arch hdr pkt user) := by
  obtain ⟨_, packet, few⟩ := max_sizes
  have len := pktLoopLen_toNat blocks.pointer
  have size : (0 + pkt.length) * arch.ptrSize = 64 * arch.ptrSize := by
    rw [Nat.zero_add, blocks.length, few]
  constructor
  · exact loadU32_storeU32 _ hdr _
  · intro i p at_
    have stored := renewSlots_slot arch hdr 0 pkt (renewLengths pkt user) at_
    rw [Nat.zero_add] at stored
    refine (loadBytes_congr fun x above _ => ?_).trans stored
    exact storeU32_outside _ (Or.inr (by omega))
  · intro p among
    have beside := blocks.beside p among
    have apart : pkt.Pairwise fun p q => p + 4 ≤ q ∨ q + 4 ≤ p :=
      blocks.apart.imp fun {p q} far => by omega
    rw [← renewLengths_length user apart p among]
    refine loadU32_congr fun x above below => ?_
    rw [renew, storeU32_outside _ (by omega)]
    exact renewSlots_outside arch hdr 0 pkt _ (by omega)

end Blocks

/-- Only the blocks are written, and no packet's length grows beyond its block. -/
structure WithinBlocks (arch : Arch) (hdr : Nat) (pkt : List Nat) (user user' : UserMem) :
    Prop where
  outside : ∀ a, OutsideBlocks arch hdr pkt a → user' a = user a
  lengths : ∀ p ∈ pkt, (loadU32 user' p).toNat ≤ MAX_DATA_SIZE.toNat

theorem WithinBlocks.trans {arch : Arch} {hdr : Nat} {pkt : List Nat} {user user' user'' : UserMem}
    (h : WithinBlocks arch hdr pkt user user') (h' : WithinBlocks arch hdr pkt user' user'') :
    WithinBlocks arch hdr pkt user user'' :=
  ⟨fun a outside => (h'.outside a outside).trans (h.outside a outside), h'.lengths⟩

/-- A packet that faults has got some of its data, and its old length. -/
theorem readPacket_fault_user (w : World) (p skb : Addr) (f : FillFault) :
    ∃ bytes, bytes.length ≤ (loadU32 w.user p).toNat ∧
      (readPacket w p skb (some f)).1.user = storeBytes w.user (p + 4) bytes := by
  have room := share_le_capacity w.user p (w.mem.cell skb).data
  have taken := taken_length w.user p (w.mem.cell skb).data
  cases f with
  | getUser =>
    refine ⟨[], Nat.zero_le _, funext fun a => ?_⟩
    exact (storeBytes_outside w.user (Nat.lt_or_ge a (p + 4))).symm
  | copyToUser copied =>
    refine ⟨((w.mem.cell skb).data.take (share w.user p (w.mem.cell skb).data).toNat).take copied,
      ?_, rfl⟩
    rw [List.length_take, taken]
    exact Nat.le_trans (Nat.min_le_right _ _) room
  | putUser =>
    exact ⟨(w.mem.cell skb).data.take (share w.user p (w.mem.cell skb).data).toNat,
      Nat.le_trans (Nat.le_of_eq taken) room, rfl⟩

section Within

variable {arch : Arch} {hdr : Nat} {pkt : List Nat} (blocks : Malloced arch hdr pkt)

include blocks

/-- A store to one packet's block that leaves its length in bounds. -/
theorem within_of_packet {user user' : UserMem} {p : Nat} (among : p ∈ pkt)
    (before : ∀ q ∈ pkt, (loadU32 user q).toNat ≤ MAX_DATA_SIZE.toNat)
    (outside : ∀ a, a < p ∨ p + 4 + MAX_DATA_SIZE.toNat ≤ a → user' a = user a)
    (length : (loadU32 user' p).toNat ≤ MAX_DATA_SIZE.toNat) :
    WithinBlocks arch hdr pkt user user' := by
  obtain ⟨data, packet, _⟩ := max_sizes
  refine ⟨fun a away => outside a ?_, fun q other => ?_⟩
  · have := away.2 p among
    omega
  · by_cases same : q = p
    · exact same ▸ length
    · have far := blocks.apart_of_ne among other (Ne.symm same)
      rw [loadU32_congr fun x above below => outside x (by omega)]
      exact before q other

theorem readPacket_within {w : World} {p skb : Nat} (among : p ∈ pkt)
    (before : ∀ q ∈ pkt, (loadU32 w.user q).toNat ≤ MAX_DATA_SIZE.toNat)
    (fault : Option FillFault) :
    WithinBlocks arch hdr pkt w.user (readPacket w p skb fault).1.user := by
  have room := before p among
  cases fault with
  | none =>
    have upTo := share_le_capacity w.user p (w.mem.cell skb).data
    rw [readPacket_user]
    refine within_of_packet blocks among before (fun a away => ?_) ?_
    · exact fillUser_outside w.user p _ (by omega)
    · rw [fillUser_dataLen]
      omega
  | some f =>
    obtain ⟨bytes, upTo, stored⟩ := readPacket_fault_user w p skb f
    rw [stored]
    refine within_of_packet blocks among before (fun a away => ?_) ?_
    · exact storeBytes_outside w.user (by omega)
    · rw [loadU32_congr fun x _ below => storeBytes_outside w.user (Or.inl below)]
      exact room

/-- The loop of the driver's read, whatever faults. -/
theorem ioReadLoop_within {h : KvnetHeader} (named : ∀ j : Nat, j < pkt.length → h.pkt j ∈ pkt)
    (fault : Nat → Option FillFault) (n i : Nat) (few : i + n ≤ pkt.length) {w : World} (ret : Int)
    (before : ∀ q ∈ pkt, (loadU32 w.user q).toNat ≤ MAX_DATA_SIZE.toNat) :
    WithinBlocks arch hdr pkt w.user (ioReadLoop arch h fault n i w ret).1.user := by
  induction n generalizing i w ret with
  | zero => exact ⟨fun _ _ => rfl, before⟩
  | succ n ih =>
    have removed : w.queueRemove.2.user = w.user := rfl
    rw [ioReadLoop]
    by_cases empty : w.queueRemove.1 = NULL
    · simp only [if_pos empty]
      exact ⟨fun _ _ => rfl, before⟩
    · simp only [if_neg empty]
      have first : WithinBlocks arch hdr pkt w.user
          (readPacket w.queueRemove.2 (h.pkt i) w.queueRemove.1 (fault i)).1.user :=
        readPacket_within blocks (w := w.queueRemove.2) (named i (by omega)) before (fault i)
      split
      · exact first
      · exact first.trans (ih (i + 1) (by omega) _ first.lengths)

/-- Writing the count back, or part of it. -/
theorem within_of_header {user user' : UserMem}
    (before : ∀ q ∈ pkt, (loadU32 user q).toNat ≤ MAX_DATA_SIZE.toNat)
    (outside : ∀ a, a < hdr ∨ hdr + 4 ≤ a → user' a = user a) :
    WithinBlocks arch hdr pkt user user' := by
  obtain ⟨_, packet, _⟩ := max_sizes
  have len := pktLoopLen_toNat blocks.pointer
  refine ⟨fun a away => outside a ?_, fun q among => ?_⟩
  · have := away.1
    omega
  · have beside := blocks.beside q among
    rw [loadU32_congr fun x above below => outside x (by omega)]
    exact before q among

theorem reportCount_within {w : World} (len : Nat) (ret : Int) (fault : Option Nat)
    (before : ∀ q ∈ pkt, (loadU32 w.user q).toNat ≤ MAX_DATA_SIZE.toNat) :
    WithinBlocks arch hdr pkt w.user (reportCount arch w [⟨hdr, len⟩] ret fault).world.user := by
  have stored (bytes : List UInt8) (short : bytes.length ≤ 4) :
      WithinBlocks arch hdr pkt w.user (scatter w.user [⟨hdr, len⟩] bytes) := by
    refine within_of_header blocks before fun a away => storeBytes_outside w.user ?_
    have := List.length_take_le' len bytes
    simp only
    omega
  by_cases count : 0 ≤ ret
  · cases fault with
    | none =>
      simp only [reportCount, if_pos count]
      exact stored _ (by rw [leBytes_length])
    | some written =>
      simp only [reportCount, if_pos count]
      refine stored _ ?_
      rw [List.length_take, leBytes_length]
      exact Nat.min_le_right _ _
  · rw [reportCount_error arch w _ fault (by omega)]
    exact ⟨fun _ _ => rfl, before⟩

end Within

/-- The kernel's copy of a header has the slots of the user's that are inside. -/
theorem headerAt_pkt (arch : Arch) (user : UserMem) (hdr : Nat) {n j : Nat}
    (inside : 4 + (j + 1) * arch.ptrSize ≤ n) (around : Int → UInt8) :
    (headerAt arch (loadBytes user hdr n) around).pkt j =
      leNat (loadBytes user (hdr + 4 + j * arch.ptrSize) arch.ptrSize) := by
  rw [headerAt_pkt_bytes]
  refine congrArg leNat (List.map_congr_left fun k among => ?_)
  have below := List.mem_range.mp among
  have place : 4 + (j : Int) * arch.ptrSize + k = (4 + j * arch.ptrSize + k : Nat) := by
    push_cast
    rfl
  rw [Nat.succ_mul] at inside
  rw [place, headerByte_loadBytes (by omega)]
  exact congrArg user
    (show hdr + (4 + j * arch.ptrSize + k) = hdr + 4 + j * arch.ptrSize + k by omega)

section Header

variable {arch : Arch} {hdr : Nat} {pkt : List Nat} {user : UserMem}
  (blocks : Malloced arch hdr pkt) (renewed : Renewed arch hdr pkt user)

include renewed

theorem lengths_renewed : ∀ p ∈ pkt, (loadU32 user p).toNat ≤ MAX_DATA_SIZE.toNat :=
  fun p among => Nat.le_of_eq (congrArg UInt32.toNat (renewed.lengths p among))

include blocks

theorem slot_renewed {i p : Nat} (at_ : pkt[i]? = some p) :
    leNat (loadBytes user (hdr + 4 + i * arch.ptrSize) arch.ptrSize) = p := by
  rw [renewed.slots i p at_, leNat_leBytes]
  exact Nat.mod_eq_of_lt (blocks.packets p (List.mem_of_getElem? at_))

/-- The driver takes a renewed header for the 64 packets of pktLoop. -/
theorem aioHeader_slots {env : HeaderEnv} {h : KvnetHeader}
    (ok : aioHeader arch user [⟨hdr, (pktLoopLen arch).toNat⟩] env = .ok h) :
    h.count.toNat = MAX_PACKETS ∧ ∀ j p : Nat, pkt[j]? = some p → h.pkt j = p := by
  obtain ⟨_, _, few⟩ := max_sizes
  have size := blocks.pointer
  have len := pktLoopLen_toNat size
  have half := arch.two_pow_wordBits.2
  have kept : arch.toSsizeT (pktLoopLen arch).toNat = (pktLoopLen arch).toNat :=
    arch.toSsizeT_of_lt (Int.natCast_nonneg _) (by omega)
  have narrow : toCInt (pktLoopLen arch).toNat = (pktLoopLen arch).toNat :=
    toCInt_of_lt (Int.natCast_nonneg _) (by omega)
  have nonneg : ¬ ((pktLoopLen arch).toNat : Int) < 0 := by omega
  rw [aioHeader, ioDevIovTotal_single, kept, if_neg nonneg] at ok
  obtain ⟨_, read⟩ := fetchHeader_copies ok
  rw [copiedHeader, narrow, Int.toNat_natCast, gather, gather, List.append_nil,
    Nat.min_self] at read
  have enough : 4 ≤ (pktLoopLen arch).toNat := by omega
  subst read
  constructor
  · rw [headerAt_count arch user hdr enough, renewed.count]
    rfl
  · intro j p at_
    have below := (List.getElem?_eq_some_iff.mp at_).1
    have inside : 4 + (j + 1) * arch.ptrSize ≤ (pktLoopLen arch).toNat := by
      rw [len]
      rw [blocks.length, few] at below
      exact Nat.add_le_add_left (Nat.mul_le_mul_right _ below) 4
    rw [headerAt_pkt arch user hdr inside, slot_renewed blocks renewed at_]

theorem aioHeader_renewed {env : HeaderEnv} {h : KvnetHeader}
    (ok : aioHeader arch user [⟨hdr, (pktLoopLen arch).toNat⟩] env = .ok h) :
    h.count.toNat = MAX_PACKETS ∧ ∀ j : Nat, j < pkt.length → h.pkt j ∈ pkt := by
  obtain ⟨count, slots⟩ := aioHeader_slots blocks renewed ok
  refine ⟨count, fun j below => ?_⟩
  rw [slots j _ (List.getElem?_eq_getElem below)]
  exact List.getElem_mem below

end Header

theorem aioRead_error {arch : Arch} {w : World} {iv : List Iovec} {env : ReadEnv} {e : Int}
    (refused : aioHeader arch w.user iv env.header = .error e) :
    (ioDevAioRead arch w iv true env).world = w ∧ (ioDevAioRead arch w iv true env).ret < 0 := by
  rw [ioDevAioRead, if_neg (by decide)]
  by_cases negative : ioDevIovTotal arch iv < 0
  · simp only [if_pos negative]
    exact ⟨trivial, show -EINVAL < 0 by decide⟩
  · simp only [aioHeader, if_neg negative] at refused
    simp only [if_neg negative, ioReadToIovec, refused]
    exact ⟨trivial, fetchHeader_error refused⟩

/-- A count the packets in the array are enough for. -/
def Counted (hdr : Addr) (user : UserMem) : Prop :=
  0 < (loadU32 user hdr).toNat ∧ (loadU32 user hdr).toNat ≤ MAX_PACKETS

section Round

variable {arch : Arch} {hdr : Nat} {pkt : List Nat} (blocks : Malloced arch hdr pkt)

include blocks

theorem driverRead_within {w : World} (renewed : Renewed arch hdr pkt w.user) (env : ReadEnv) :
    let r := ioDevAioRead arch w [⟨hdr, (pktLoopLen arch).toNat⟩] true env
    WithinBlocks arch hdr pkt w.user r.world.user ∧ (0 ≤ r.ret → Counted hdr r.world.user) := by
  intro r
  have before := lengths_renewed renewed
  cases fetched : aioHeader arch w.user [⟨hdr, (pktLoopLen arch).toNat⟩] env.header with
  | error e =>
    obtain ⟨same, negative⟩ := aioRead_error fetched
    have user : r.world.user = w.user := congrArg World.user same
    rw [user]
    exact ⟨⟨fun _ _ => rfl, before⟩, fun nonneg => absurd nonneg (Int.not_le.mpr negative)⟩
  | ok h =>
    obtain ⟨count, named⟩ := aioHeader_renewed blocks renewed fetched
    have few := blocks.length
    have filled := ioReadLoop_within blocks named env.fault h.count.toNat 0 (by omega) 0 before
    have counted := ioReadLoop_ret arch h env.fault h.count.toNat 0 w (by rw [count]; decide)
    have read : r = _ := aioRead_ok fetched
    rw [Int.natCast_zero, arch.toSsizeT_zero] at counted
    rw [read]
    refine ⟨filled.trans (reportCount_within blocks _ _ _ filled.lengths), fun nonneg => ?_⟩
    generalize ioReadLoop arch h env.fault h.count.toNat 0 w 0 = result at counted nonneg
    rcases counted with negative | ⟨k, positive, upTo, ret⟩
    · rw [reportCount_error arch _ _ _ negative] at nonneg
      exact absurd nonneg (Int.not_le.mpr negative)
    · have half := arch.two_pow_wordBits.2
      have most : k ≤ 64 := by rw [count] at upTo; exact (Nat.zero_add 64) ▸ upTo
      have ret' : result.2 = k := by
        rw [ret, arch.toSsizeT_of_lt (Int.natCast_nonneg k) (by omega)]
      have len := pktLoopLen_toNat blocks.pointer
      have word : (UInt32.ofNat k).toNat = k := UInt32.toNat_ofNat_of_lt' (show k < 2 ^ 32 by omega)
      have whole : (leBytes 4 (UInt32.ofNat k).toNat).take (pktLoopLen arch).toNat =
          leBytes 4 (UInt32.ofNat k).toNat :=
        List.take_of_length_le (by rw [leBytes_length, len]; omega)
      cases fault : env.toIovec with
      | some written =>
        rw [fault, ret', reportCount, if_pos (Int.natCast_nonneg k)] at nonneg
        exact absurd nonneg (show ¬ (0 : Int) ≤ -EFAULT by decide)
      | none =>
        rw [ret', reportCount, if_pos (Int.natCast_nonneg k)]
        have stored : loadU32 (scatter result.1.user [⟨hdr, (pktLoopLen arch).toNat⟩]
            (leBytes 4 (UInt32.ofNat k).toNat)) hdr = UInt32.ofNat k := by
          rw [scatter, scatter, whole]
          exact loadU32_storeU32 _ hdr _
        simp only [Counted, World.withUser, Int.toNat_natCast]
        rw [stored, word]
        exact ⟨positive, most⟩

theorem tapFill_within {user : UserMem} (renewed : Renewed arch hdr pkt user)
    (frame : List UInt8) :
    WithinBlocks arch hdr pkt user (tapFill arch user hdr frame) ∧
      loadU32 (tapFill arch user hdr frame) hdr = 1 := by
  obtain ⟨_, _, few⟩ := max_sizes
  have len := pktLoopLen_toNat blocks.pointer
  have header := blocks.header
  have before := lengths_renewed renewed
  have some_packet : 0 < pkt.length := by rw [blocks.length, few]; decide
  obtain ⟨p, at_⟩ : ∃ p, pkt[0]? = some p := ⟨_, List.getElem?_eq_getElem some_packet⟩
  have among := List.mem_of_getElem? at_
  have slot : packetSlot arch user hdr 0 = p := by
    have place : arch.toSizeT ((hdr : Int) + 4 + 0 * arch.ptrSize) =
        hdr + 4 + 0 * arch.ptrSize := by
      have cast : (hdr : Int) + 4 + 0 * arch.ptrSize = (hdr + 4 + 0 * arch.ptrSize : Nat) := by
        push_cast
        rfl
      rw [cast, arch.toSizeT_natCast, Nat.mod_eq_of_lt (by omega)]
    rw [packetSlot, place]
    exact slot_renewed blocks renewed at_
  have room := before p among
  have taken := List.length_take_le (loadU32 user p).toNat frame
  refine ⟨?_, loadU32_storeU32 _ hdr 1⟩
  have filled : WithinBlocks arch hdr pkt user
      (storeU32 (storeBytes user (p + 4) (frame.take (loadU32 user p).toNat)) p
        (UInt32.ofNat (frame.take (loadU32 user p).toNat).length)) := by
    refine within_of_packet blocks among before (fun a away => ?_) ?_
    · rw [storeU32_outside _ (by omega), storeBytes_outside user (by omega)]
    · rw [loadU32_storeU32, UInt32.toNat_ofNat']
      exact Nat.le_trans (Nat.mod_le _ _) (Nat.le_trans taken room)
  simp only [tapFill, slot]
  exact filled.trans
    (within_of_header blocks filled.lengths fun a away => storeU32_outside _ away)

omit blocks in
theorem not_succeeded (errno : UInt32) {e : UInt32} (other : e &&& lowHalf ≠ KVNET_NO_ERROR) :
    ¬ kvnetSucceeded (kvnetMakeStatus errno e) = true := by
  simp [kvnetSucceeded, kvnetStatus_make, other]

/-- A round of kvnet_read on renewed memory stays within the blocks, changes
nothing if it is to be tried again, and counts packets there are if it succeeds. -/
theorem round_within {w : World} (renewed : Renewed arch hdr pkt w.user) (l : Lib)
    (errno : UInt32) (outcome : PollOutcome) (data : DataEnv) :
    let r := kvnetReadRound arch l w hdr (pktLoopLen arch) errno outcome data
    WithinBlocks arch hdr pkt w.user r.world.user ∧ (r.status = none → r.world = w) ∧
      ∀ status, r.status = some status → kvnetSucceeded status = true →
        Counted hdr r.world.user := by
  have idle {r : RoundResult} (world : r.world = w)
      (fails : ∀ status, r.status = some status → ¬ kvnetSucceeded status = true) :
      WithinBlocks arch hdr pkt w.user r.world.user ∧ (r.status = none → r.world = w) ∧
        ∀ status, r.status = some status → kvnetSucceeded status = true →
          Counted hdr r.world.user := by
    rw [world]
    exact ⟨⟨fun _ _ => rfl, lengths_renewed renewed⟩, fun _ => rfl,
      fun status ends ok => absurd ok (fails status ends)⟩
  have failing (code : UInt32) (other : code &&& lowHalf ≠ KVNET_NO_ERROR) (e : UInt32) :
      ∀ status, some (kvnetMakeStatus e code) = some status → ¬ kvnetSucceeded status = true := by
    rintro _ ⟨⟩
    exact not_succeeded e other
  cases outcome with
  | fail e =>
    simp only [kvnetReadRound]
    split
    · exact idle rfl (fun _ none_yet => by cases none_yet)
    · exact idle rfl (failing _ (by decide) e)
  | timeout =>
    simp only [kvnetReadRound]
    split
    · split
      · exact idle rfl (failing _ (by decide) errno)
      · exact idle rfl (fun _ none_yet => by cases none_yet)
    · exact idle rfl (failing _ (by decide) errno)
  | ready revents =>
    simp only [kvnetReadRound]
    split
    · exact idle rfl (failing _ (by decide) errno)
    split
    · split
      · cases data.frame with
        | none => exact idle rfl (failing _ (by decide) errno)
        | some frame =>
          obtain ⟨within, one⟩ := tapFill_within blocks renewed frame
          refine ⟨within, fun none_yet => (by cases none_yet), fun _ _ _ => ?_⟩
          simp only [Counted, World.withUser, one]
          decide
      · obtain ⟨within, counted⟩ := driverRead_within blocks renewed data.driver
        split
        · rename_i failed
          refine ⟨within, fun none_yet => (by cases none_yet), fun status ends ok => ?_⟩
          exact absurd ok (failing _ (by decide) errno status ends)
        · rename_i moved
          exact ⟨within, fun none_yet => (by cases none_yet),
            fun _ _ _ => counted (Int.not_lt.mp moved)⟩
    · exact idle rfl (failing _ (by decide) errno)

end Round

/-- What is next in the body of pktLoop's while loop. -/
inductive BodyPc where
  | test
  | renew
  | kvnetRead
  | print
  | cleanup
  deriving DecidableEq

/-- pktLoop between its allocations and its cleanup. `printed` has, for each read,
the lengths of the packets it counted, none for one that the array does not have. -/
structure PacketLoop where
  lib : Lib
  world : World
  pc : BodyPc
  printed : List (List (Option UInt32))

inductive BodyAction where
  | test (canRunLoop : Bool)
  | renew
  | readRound (outcome : PollOutcome) (data : DataEnv) (errno : UInt32)
  | print
  | cancel (canceled : Int32)
  | traffic (world : World)

namespace PacketLoop

def lengths (pkt : List Addr) (hdr : Addr) (user : UserMem) : List (Option UInt32) :=
  (List.range (loadU32 user hdr).toNat).map fun i => pkt[i]?.map (loadU32 user)

/-- Main, the handlers and the kernel only reach the library's flag and the
kernel's side of the world. -/
def step (arch : Arch) (hdr : Addr) (pkt : List Addr) (s : PacketLoop) :
    BodyAction → Option PacketLoop
  | .test canRunLoop =>
    if s.pc = .test then some { s with pc := if canRunLoop then .renew else .cleanup } else none
  | .renew =>
    if s.pc = .renew then
      some { s with
        world := s.world.withUser (renew arch hdr pkt s.world.user)
        pc := if validArguments arch s.lib hdr (pktLoopLen arch) then .kvnetRead else .cleanup }
    else none
  | .readRound outcome data errno =>
    if s.pc = .kvnetRead then
      let r := kvnetReadRound arch s.lib s.world hdr (pktLoopLen arch) errno outcome data
      some { s with
        world := r.world
        pc := match r.status with
          | none => .kvnetRead
          | some status => if kvnetSucceeded status then .print else .cleanup }
    else none
  | .print =>
    if s.pc = .print then
      some { s with pc := .test, printed := s.printed ++ [lengths pkt hdr s.world.user] }
    else none
  | .cancel canceled => some { s with lib := { s.lib with canceled := canceled } }
  | .traffic world => some { s with world := world.withUser s.world.user }

/-- A line of lengths as it should be: one to 64 packets, all in the array, and
none longer than its block. -/
structure Sound (line : List (Option UInt32)) : Prop where
  some_packet : 0 < line.length
  few : line.length ≤ MAX_PACKETS
  fits : ∀ len ∈ line, ∃ n, len = some n ∧ n.toNat ≤ MAX_DATA_SIZE.toNat

/-- The loop has written to its blocks only, and knows what is in them. -/
structure Contained (arch : Arch) (hdr : Nat) (pkt : List Nat) (user : UserMem)
    (s : PacketLoop) : Prop where
  outside : ∀ a, OutsideBlocks arch hdr pkt a → s.world.user a = user a
  renewed : s.pc = .kvnetRead → Renewed arch hdr pkt s.world.user
  counted : s.pc = .print → Counted hdr s.world.user ∧
    ∀ p ∈ pkt, (loadU32 s.world.user p).toNat ≤ MAX_DATA_SIZE.toNat
  printed : ∀ line ∈ s.printed, Sound line

section Step

variable {arch : Arch} {hdr : Nat} {pkt : List Nat} {user : UserMem} {s t : PacketLoop}

theorem lengths_sound (array : pkt.length = MAX_PACKETS) (counted : Counted hdr user)
    (bounded : ∀ p ∈ pkt, (loadU32 user p).toNat ≤ MAX_DATA_SIZE.toNat) :
    Sound (lengths pkt hdr user) := by
  constructor
  · rw [lengths, List.length_map, List.length_range]
    exact counted.1
  · rw [lengths, List.length_map, List.length_range]
    exact counted.2
  · intro len among
    obtain ⟨i, below, rfl⟩ := List.mem_map.mp among
    have inside : i < pkt.length := by
      rw [array]
      exact Nat.lt_of_lt_of_le (List.mem_range.mp below) counted.2
    rw [List.getElem?_eq_getElem inside]
    exact ⟨_, rfl, bounded _ (List.getElem_mem inside)⟩

theorem step_contained (blocks : Malloced arch hdr pkt) (h : Contained arch hdr pkt user s)
    {a : BodyAction} (moved : step arch hdr pkt s a = some t) : Contained arch hdr pkt user t := by
  cases a with
  | test canRunLoop =>
    obtain ⟨_, rest⟩ := Option.ite_none_right_eq_some.mp moved
    obtain rfl := Option.some.inj rest
    cases canRunLoop
    · exact ⟨h.outside, nofun, nofun, h.printed⟩
    · exact ⟨h.outside, nofun, nofun, h.printed⟩
  | renew =>
    obtain ⟨_, rest⟩ := Option.ite_none_right_eq_some.mp moved
    obtain rfl := Option.some.inj rest
    refine ⟨fun a away => ?_, fun _ => renew_renewed blocks s.world.user, fun at_ => ?_, h.printed⟩
    · exact (renew_outside blocks s.world.user away).trans (h.outside a away)
    · dsimp only at at_
      split at at_
      · cases at_
      · cases at_
  | readRound outcome data errno =>
    simp only [step, Option.ite_none_right_eq_some, Option.some.injEq] at moved
    obtain ⟨here, rfl⟩ := moved
    obtain ⟨within, again, counted⟩ :=
      round_within blocks (h.renewed here) s.lib errno outcome data
    generalize kvnetReadRound arch s.lib s.world hdr (pktLoopLen arch) errno outcome data = r
      at within again counted
    refine ⟨fun a away => (within.outside a away).trans (h.outside a away), ?_, ?_, h.printed⟩
    · intro at_
      cases ends : r.status with
      | none =>
        simp only [again ends]
        exact h.renewed here
      | some status =>
        simp only [ends] at at_
        split at at_
        · cases at_
        · cases at_
    · intro at_
      cases ends : r.status with
      | none =>
        simp only [ends] at at_
        cases at_
      | some status =>
        simp only [ends] at at_
        split at at_
        · rename_i ok
          exact ⟨counted status ends ok, within.lengths⟩
        · cases at_
  | print =>
    obtain ⟨here, rest⟩ := Option.ite_none_right_eq_some.mp moved
    obtain rfl := Option.some.inj rest
    refine ⟨h.outside, nofun, nofun, fun line among => ?_⟩
    rcases List.mem_append.mp among with old | new
    · exact h.printed line old
    · obtain rfl := List.mem_singleton.mp new
      obtain ⟨counted, bounded⟩ := h.counted here
      exact lengths_sound blocks.length counted bounded
  | cancel canceled =>
    obtain rfl := Option.some.inj moved
    exact ⟨h.outside, h.renewed, h.counted, h.printed⟩
  | traffic world =>
    obtain rfl := Option.some.inj moved
    exact ⟨h.outside, h.renewed, h.counted, h.printed⟩

end Step

/-- However often pktLoop reads, through whichever backend and whatever faults,
it and the kernel on its behalf write to the header and the packets malloc gave
it and nowhere else, and each count it acts on is one its array is enough for. -/
theorem stays_in_blocks (arch : Arch) (hdr : Addr) (pkt : List Addr) (s₀ s : PacketLoop)
    (actions : List BodyAction) (blocks : Malloced arch hdr pkt) (start : s₀.pc = .test)
    (unprinted : s₀.printed = []) (h : Execution.run (step arch hdr pkt) s₀ actions = some s) :
    (∀ a, OutsideBlocks arch hdr pkt a → s.world.user a = s₀.world.user a) ∧
      ∀ line ∈ s.printed, Sound line := by
  have contained := Execution.run_invariant (Contained arch hdr pkt s₀.world.user)
    (fun _ _ _ held moved => step_contained blocks held moved)
    ⟨fun _ _ => rfl, by simp [start], by simp [start], by simp [unprinted]⟩ h
  exact ⟨contained.outside, contained.printed⟩

end PacketLoop

/-- 64 packets one behind the other. -/
def packetBlocks : List Addr := (List.range MAX_PACKETS).map fun i => 65536 + i * MAX_PACKET_SIZE

theorem packetBlocks_malloced : Malloced lp64 4096 packetBlocks := by
  have at_block {p : Nat} (among : p ∈ packetBlocks) :
      65536 ≤ p ∧ p < 65536 + 64 * MAX_PACKET_SIZE := by
    obtain ⟨i, below, rfl⟩ := List.mem_map.mp among
    have last := Nat.mul_lt_mul_of_pos_right (List.mem_range.mp below)
      (by decide : 0 < MAX_PACKET_SIZE)
    exact ⟨Nat.le_add_right _ _, Nat.add_lt_add_left last 65536⟩
  refine ⟨by decide, by decide, by decide, by decide, fun p among => ?_, ?_, fun p among => ?_⟩
  · have := at_block among
    have : 65536 + 64 * MAX_PACKET_SIZE < 256 ^ lp64.ptrSize := by decide
    omega
  · refine List.pairwise_map.mpr (List.pairwise_lt_range.imp fun {i j} before => Or.inl ?_)
    have := Nat.mul_le_mul_right MAX_PACKET_SIZE before
    rw [Nat.succ_mul] at this
    omega
  · have := at_block among
    have : 4096 + (pktLoopLen lp64).toNat ≤ 65536 := by decide
    exact Or.inr (by omega)

def tapLoop : PacketLoop := ⟨⟨3, 0, 1⟩, pairWorld, .test, []⟩

/-- Three bytes arrive on TAP, and the next read is cancelled. -/
def oneFrame : List BodyAction :=
  [.test true, .renew, .readRound .timeout noFrame 0,
    .readRound (.ready POLLIN) { noFrame with frame := some [1, 2, 3] } 0, .print, .test true,
    .renew, .cancel 1, .readRound .timeout noFrame 0]

theorem stays_in_blocks_oneFrame : ∃ s,
    Execution.run (PacketLoop.step lp64 4096 packetBlocks) tapLoop oneFrame = some s ∧
      s.printed = [[some 3]] ∧ s.pc = .cleanup ∧ s.world.user 0 = pairWorld.user 0 := by
  have ran : (Execution.run (PacketLoop.step lp64 4096 packetBlocks) tapLoop oneFrame).map
      (fun s => (s.printed, s.pc)) = some ([[some 3]], .cleanup) := by decide +kernel
  obtain ⟨s, run, at_⟩ := Option.map_eq_some_iff.mp ran
  obtain ⟨printed, pc⟩ := Prod.mk.inj at_
  obtain ⟨kept, _⟩ := PacketLoop.stays_in_blocks lp64 4096 packetBlocks tapLoop s oneFrame
    packetBlocks_malloced rfl rfl run
  refine ⟨s, run, printed, pc, kept 0 ⟨Or.inl (by decide), fun p among => ?_⟩⟩
  obtain ⟨i, _, rfl⟩ := List.mem_map.mp among
  exact Or.inl (Nat.lt_of_lt_of_le (by decide : 0 < 65536) (Nat.le_add_right _ _))

end Kvnet
