import Kvnet.ReadBatch

/-!
# Filling a packet access by access

io_read_fill_network_packet reads what room there is, copies the data, counts the
packet and writes its length. Other threads can run between any two of these
accesses, and between the bytes of the copy. When none does, the accesses amount
to the call, whichever of them faults.
-/

namespace Kvnet

/-- The access io_read_fill_network_packet is at. `room` is what get_user has read. -/
inductive FillPc where
  | getUser
  | copyToUser (room len : UInt32) (copied : Nat)
  | count (room len : UInt32)
  | putUser (room len : UInt32)
  deriving DecidableEq

namespace FillPc

/-- Where it is with so many bytes copied. -/
def copy (room len : UInt32) (copied : Nat) : FillPc :=
  if copied < len.toNat then .copyToUser room len copied else .count room len

/-- The fault that can end it here. Counting does not fault. -/
def fault : FillPc → Option FillFault
  | .getUser => some .getUser
  | .copyToUser _ _ copied => some (.copyToUser copied)
  | .count _ _ => none
  | .putUser _ _ => some .putUser

def room : FillPc → UInt32
  | .getUser => 0
  | .copyToUser room _ _ | .count room _ | .putUser room _ => room

/-- How many bytes it is to copy, once it knows. -/
def len : FillPc → Nat
  | .getUser => 0
  | .copyToUser _ len _ | .count _ len | .putUser _ len => len.toNat

/-- How many of them it has copied. -/
def copied : FillPc → Nat
  | .getUser => 0
  | .copyToUser _ _ copied => copied
  | .count _ len | .putUser _ len => len.toNat

/-- What it has copied of the data is in the user packet. -/
structure Holds (user : UserMem) (pkt : Addr) (data : List UInt8) (pc : FillPc) : Prop where
  len : pc.len = (min (UInt32.ofNat data.length) pc.room).toNat
  within : pc.copied ≤ pc.len
  bytes : loadBytes user (pkt + 4) pc.copied = data.take pc.copied

end FillPc

/-- One access, and the next if there is one. -/
def fillNext (w : World) (pkt skb : Addr) : FillPc → World × Option FillPc
  | .getUser =>
    let room := loadU32 w.user pkt
    let (buf, mem) := w.mem.loadSkb .skb skb
    (w.withMem mem, some (.copy room (min buf.len room) 0))
  | .copyToUser room len copied =>
    let byte := (w.mem.cell skb).data.getD copied 0
    (w.withUser (storeBytes w.user (pkt + 4 + copied) [byte]), some (.copy room len (copied + 1)))
  | .count room len =>
    (w.withStats { w.stats with
      txPackets := w.stats.txPackets + 1, txBytes := w.stats.txBytes + len },
      some (.putUser room len))
  | .putUser _ len => (w.withUser (storeU32 w.user pkt len), none)

/-- The first n accesses when nothing comes between them. -/
def fillAlone (w : World) (pkt skb : Addr) : Nat → World × Option FillPc
  | 0 => (w, some .getUser)
  | n + 1 =>
    match fillAlone w pkt skb n with
    | (w, some pc) => fillNext w pkt skb pc
    | (w, none) => (w, none)

/-- One byte behind those that have been stored. -/
theorem storeBytes_next (user : UserMem) (a : Nat) {data : List UInt8} {n : Nat}
    (inside : n < data.length) :
    storeBytes (storeBytes user a (data.take n)) (a + n) [data.getD n 0] =
      storeBytes user a (data.take (n + 1)) := by
  have shorter : (data.take n).length = n := List.length_take_of_le (Nat.le_of_lt inside)
  have longer : (data.take (n + 1)).length = n + 1 := List.length_take_of_le inside
  have split : data.take (n + 1) = data.take n ++ [data.getD n 0] := by
    rw [List.take_add_one, List.getD_eq_getElem?_getD, List.getElem?_eq_getElem inside]
    rfl
  refine funext fun x : Nat => ?_
  rcases Nat.lt_trichotomy x (a + n) with before | rfl | behind
  · rw [storeBytes_outside _ (Or.inl before)]
    by_cases stored : a ≤ x
    · have there : x - a < (data.take n).length := by omega
      have below : x < a + (n + 1) := Nat.lt_succ_of_lt before
      simp only [storeBytes, shorter, longer]
      rw [if_pos ⟨stored, before⟩, if_pos ⟨stored, below⟩, split, List.getD_eq_getElem?_getD,
        List.getD_eq_getElem?_getD, List.getElem?_append_left there]
    · have outside : x < a := Nat.lt_of_not_le stored
      rw [storeBytes_outside _ (Or.inl outside), storeBytes_outside _ (Or.inl outside)]
  · have here : (data.take n ++ [data.getD n 0]).getD n 0 = data.getD n 0 := by
      rw [List.getD_eq_getElem?_getD, List.getElem?_append_right (Nat.le_of_eq shorter), shorter,
        Nat.sub_self]
      rfl
    have first : a + n ≤ a + n ∧ a + n < a + n + 1 := by omega
    have last : a ≤ a + n ∧ a + n < a + (n + 1) := by omega
    simp only [storeBytes, longer, List.length_singleton]
    rw [if_pos first, if_pos last, Nat.sub_self, Nat.add_sub_cancel_left, split, here]
    rfl
  · have ends : a + n + [data.getD n 0].length ≤ x := behind
    have short : a + (data.take n).length ≤ x := by omega
    have long : a + (data.take (n + 1)).length ≤ x := by omega
    rw [storeBytes_outside _ (Or.inr ends), storeBytes_outside _ (Or.inr short),
      storeBytes_outside _ (Or.inr long)]

section Alone

variable (w : World) (pkt skb : Addr)

/-- After get_user and the copy of c bytes. -/
theorem fillAlone_copied {c : Nat}
    (upTo : c ≤ (share w.user pkt (w.mem.cell skb).data).toNat) :
    fillAlone w pkt skb (c + 1) =
      ((w.withMem (w.mem.loadSkb .skb skb).2).withUser
          (storeBytes w.user (pkt + 4) ((w.mem.cell skb).data.take c)),
        some (.copy (loadU32 w.user pkt) (share w.user pkt (w.mem.cell skb).data) c)) := by
  induction c with
  | zero =>
    have nothing : storeBytes w.user (pkt + 4) [] = w.user := by
      funext x
      exact storeBytes_outside w.user (by simp only [List.length_nil]; omega)
    rw [List.take_zero, nothing]
    rfl
  | succ c ih =>
    have inside := share_le_length w.user pkt (w.mem.cell skb).data
    have next := storeBytes_next w.user (pkt + 4) (show c < (w.mem.cell skb).data.length by omega)
    rw [fillAlone, ih (by omega), FillPc.copy, if_pos (by omega), ← next]
    rfl

theorem fillAlone_counted :
    fillAlone w pkt skb ((share w.user pkt (w.mem.cell skb).data).toNat + 2) =
      ((ioReadFillNetworkPacket w pkt skb (some .putUser)).1,
        some (.putUser (loadU32 w.user pkt) (share w.user pkt (w.mem.cell skb).data))) := by
  rw [fillAlone, fillAlone_copied w pkt skb (Nat.le_refl _), FillPc.copy,
    if_neg (Nat.lt_irrefl _)]
  rfl

/-- The accesses of a call that nothing comes between amount to the call. -/
theorem fillAlone_ends :
    fillAlone w pkt skb ((share w.user pkt (w.mem.cell skb).data).toNat + 3) =
      ((ioReadFillNetworkPacket w pkt skb none).1, none) := by
  rw [fillAlone, fillAlone_counted]
  rfl

/-- And if one of them faults, to the call that faults there. -/
theorem fillAlone_faults {n : Nat} {pc : FillPc} {f : FillFault} {v : World}
    (reached : fillAlone w pkt skb n = (v, some pc)) (faults : pc.fault = some f) :
    v = (ioReadFillNetworkPacket w pkt skb (some f)).1 := by
  have ended (m : Nat) : fillAlone w pkt skb
      ((share w.user pkt (w.mem.cell skb).data).toNat + 3 + m) =
        ((ioReadFillNetworkPacket w pkt skb none).1, none) := by
    induction m with
    | zero => exact fillAlone_ends w pkt skb
    | succ m ih => rw [← Nat.add_assoc, fillAlone, ih]
  cases n with
  | zero =>
    obtain ⟨rfl, same⟩ := Prod.mk.inj reached
    obtain rfl := Option.some.inj same
    obtain rfl := Option.some.inj faults
    rfl
  | succ c =>
    rcases Nat.lt_trichotomy c (share w.user pkt (w.mem.cell skb).data).toNat with
      copying | rfl | behind
    · rw [fillAlone_copied w pkt skb (Nat.le_of_lt copying), FillPc.copy, if_pos copying] at reached
      obtain ⟨rfl, same⟩ := Prod.mk.inj reached
      obtain rfl := Option.some.inj same
      obtain rfl := Option.some.inj faults
      have cut := List.take_take (i := c) (j := (share w.user pkt (w.mem.cell skb).data).toNat)
        (l := (w.mem.cell skb).data)
      rw [Nat.min_eq_left (Nat.le_of_lt copying)] at cut
      rw [← cut]
      rfl
    · rw [fillAlone_copied w pkt skb (Nat.le_refl _), FillPc.copy,
        if_neg (Nat.lt_irrefl _)] at reached
      obtain ⟨_, same⟩ := Prod.mk.inj reached
      obtain rfl := Option.some.inj same
      cases faults
    · rcases Nat.eq_or_lt_of_le behind with rfl | after
      · rw [Nat.succ_eq_add_one, fillAlone_counted w pkt skb] at reached
        obtain ⟨rfl, same⟩ := Prod.mk.inj reached
        obtain rfl := Option.some.inj same
        obtain rfl := Option.some.inj faults
        rfl
      · obtain ⟨m, rfl⟩ := Nat.exists_eq_add_of_le after
        have late := ended m
        rw [show (share w.user pkt (w.mem.cell skb).data).toNat + 3 + m =
          ((share w.user pkt (w.mem.cell skb).data).toNat + 1).succ + m + 1 by omega,
          reached] at late
        cases late

end Alone

/-- Besides writing user memory, an access does what a part of the call does. -/
theorem fillNext_step (w : World) (pkt skb : Addr) (pc : FillPc) :
    ∃ counted, FillStep w (fillNext w pkt skb pc).1 skb counted := by
  cases pc with
  | getUser =>
    refine ⟨false, rfl, rfl, ⟨rfl, rfl, rfl, rfl, rfl, rfl, rfl⟩, ⟨[.load .skb skb], rfl, ?_⟩,
      fun _ => rfl, ?_⟩
    · simp
    · simp [fillNext]
  | count room len =>
    refine ⟨true, rfl, rfl, ⟨rfl, rfl, rfl, rfl, rfl, rfl, rfl⟩,
      ⟨[], (List.append_nil _).symm, ?_⟩, fun _ => rfl, rfl⟩
    simp
  | copyToUser room len copied | putUser room len =>
    refine ⟨false, rfl, rfl, ⟨rfl, rfl, rfl, rfl, rfl, rfl, rfl⟩,
      ⟨[], (List.append_nil _).symm, ?_⟩, fun _ => rfl, ?_⟩
    · simp
    · simp [fillNext]

namespace FillPc

variable {user user' : UserMem} {pkt : Addr} {data : List UInt8} {pc : FillPc}

theorem getUser_holds (user : UserMem) (pkt : Addr) (data : List UInt8) :
    FillPc.getUser.Holds user pkt data where
  len := by
    rw [UInt32.toNat_min]
    exact (Nat.min_zero _).symm
  within := Nat.le_refl 0
  bytes := rfl

/-- Only a store into the bytes that are being copied can undo it. -/
theorem Holds.congr (h : pc.Holds user pkt data)
    (same : ∀ x, pkt + 4 ≤ x → x < pkt + 4 + pc.len → user' x = user x) :
    pc.Holds user' pkt data where
  len := h.len
  within := h.within
  bytes := by
    have within := h.within
    rw [← h.bytes]
    exact loadBytes_congr fun x above below => same x above (Nat.lt_of_lt_of_le below
      (Nat.add_le_add_left within _))

theorem Holds.len_le (h : pc.Holds user pkt data) : pc.len ≤ data.length := by
  rw [h.len, UInt32.toNat_min]
  refine Nat.le_trans (Nat.min_le_left _ _) ?_
  rw [UInt32.toNat_ofNat']
  exact Nat.mod_le _ _

/-- The bytes before the next one to copy are in place. -/
theorem copy_holds {room len : UInt32} {copied : Nat}
    (short : len = min (UInt32.ofNat data.length) room) (within : copied ≤ len.toNat)
    (bytes : loadBytes user (pkt + 4) copied = data.take copied) :
    (FillPc.copy room len copied).Holds user pkt data := by
  rw [FillPc.copy]
  by_cases more : copied < len.toNat
  · rw [if_pos more]
    exact ⟨congrArg UInt32.toNat short, within, bytes⟩
  · obtain rfl : copied = len.toNat := Nat.le_antisymm within (Nat.le_of_not_lt more)
    rw [if_neg more]
    exact ⟨congrArg UInt32.toNat short, within, bytes⟩

end FillPc

section Next

variable {w v : World} {pkt skb : Addr} {pc next : FillPc}

/-- An access leaves what has been copied in place and adds its own byte. -/
theorem fillNext_holds (h : pc.Holds w.user pkt (w.mem.cell skb).data)
    (moved : fillNext w pkt skb pc = (v, some next)) :
    next.Holds v.user pkt (w.mem.cell skb).data := by
  cases pc with
  | getUser =>
    obtain ⟨rfl, same⟩ := Prod.mk.inj moved
    obtain rfl := Option.some.inj same
    exact FillPc.copy_holds rfl (Nat.zero_le _) rfl
  | copyToUser room len copied =>
    obtain ⟨rfl, same⟩ := Prod.mk.inj moved
    obtain rfl := Option.some.inj same
    have before : loadBytes (storeBytes w.user (pkt + 4 + copied)
        [(w.mem.cell skb).data.getD copied 0]) (pkt + 4) copied =
          (w.mem.cell skb).data.take copied := by
      refine (loadBytes_congr fun x _ below => ?_).trans h.bytes
      exact storeBytes_outside _ (Or.inl below)
    rcases Nat.lt_or_eq_of_le h.within with more | last
    · have inside : copied < (w.mem.cell skb).data.length := Nat.lt_of_lt_of_le more h.len_le
      have here : storeBytes w.user (pkt + 4 + copied) [(w.mem.cell skb).data.getD copied 0]
          (pkt + 4 + copied) = (w.mem.cell skb).data.getD copied 0 := by
        simp [storeBytes]
      refine FillPc.copy_holds (UInt32.toNat.inj h.len) more ?_
      change loadBytes (storeBytes w.user (pkt + 4 + copied)
        [(w.mem.cell skb).data.getD copied 0]) (pkt + 4) (copied + 1) = _
      rw [loadBytes_concat, before, here, List.take_add_one, List.getD_eq_getElem?_getD,
        List.getElem?_eq_getElem inside]
      rfl
    · obtain rfl : copied = len.toNat := last
      rw [FillPc.copy, if_neg (by omega)]
      exact ⟨h.len, Nat.le_refl _, before⟩
  | count room len =>
    obtain ⟨rfl, same⟩ := Prod.mk.inj moved
    obtain rfl := Option.some.inj same
    exact ⟨h.len, h.within, h.bytes⟩
  | putUser room len =>
    cases (Prod.mk.inj moved).2

/-- The last access leaves a packet with its length and its data. -/
theorem fillNext_ends (h : pc.Holds w.user pkt (w.mem.cell skb).data)
    (moved : fillNext w pkt skb pc = (v, none)) :
    loadBytes v.user (pkt + 4) (loadU32 v.user pkt).toNat =
      (w.mem.cell skb).data.take
        (min (UInt32.ofNat (w.mem.cell skb).data.length) pc.room).toNat := by
  cases pc with
  | getUser | copyToUser room len copied | count room len =>
    cases (Prod.mk.inj moved).2
  | putUser room len =>
    obtain ⟨rfl, _⟩ := Prod.mk.inj moved
    have data := h.bytes
    have behind : loadBytes (storeU32 w.user pkt len) (pkt + 4) len.toNat =
        loadBytes w.user (pkt + 4) len.toNat :=
      loadBytes_congr fun x above _ => storeU32_outside _ (Or.inr above)
    change loadBytes (storeU32 w.user pkt len) (pkt + 4)
      (loadU32 (storeU32 w.user pkt len) pkt).toNat = _
    rw [loadU32_storeU32, behind, ← h.len]
    exact data

end Next

end Kvnet
