import Kvnet.IoHeader
import Kvnet.QueueRefinement

/-!
# Reading a batch of packets

io_read_to_iovec takes packets off the transmit queue one at a time and copies
each into a user packet. The module is compiled without USE_BLOCKING_READ. The
loop variable `ret` counts packets until a fault overwrites it.
-/

namespace Kvnet

/-- The user access of a packet that faults; copy_to_user may have copied some
bytes before. -/
inductive FillFault where
  | getUser
  | copyToUser (copied : Nat)
  | putUser
  deriving DecidableEq, Repr

/-- io_read_fill_network_packet -/
def ioReadFillNetworkPacket (w : World) (pkt skb : Addr) (fault : Option FillFault) :
    World × Int :=
  if fault = some .getUser then (w, -EFAULT)
  else
    let dataLen := loadU32 w.user pkt
    let (buf, mem) := w.mem.loadSkb .skb skb
    let w := w.withMem mem
    let len := min buf.len dataLen
    let bytes := buf.data.take len.toNat
    match fault with
    | some (.copyToUser copied) =>
      (w.withUser (storeBytes w.user (pkt + 4) (bytes.take copied)), -EFAULT)
    | fault =>
      let w := w.withUser (storeBytes w.user (pkt + 4) bytes)
      let w := w.withStats { w.stats with
        txPackets := w.stats.txPackets + 1, txBytes := w.stats.txBytes + len }
      if fault = some .putUser then (w, -EFAULT)
      else (w.withUser (storeU32 w.user pkt len), 0)

/-- One packet of the loop body: fill the user packet and free the buffer,
which happens whether or not the fill succeeds. -/
def readPacket (w : World) (pkt skb : Addr) (fault : Option FillFault) : World × Int :=
  let (w, failed) := ioReadFillNetworkPacket w pkt skb fault
  (w.withMem (w.mem.kfreeSkb skb), failed)

/-- What `ret` becomes when the queue has run empty. -/
def readEmpty (ret : Int) : Int := if ret = 0 then -EAGAIN else ret

/-- The loop from index i on, with n indices to go. -/
def ioReadLoop (arch : Arch) (hdr : KvnetHeader) (fault : Nat → Option FillFault) :
    Nat → Nat → World → Int → World × Int
  | 0, _, w, ret => (w, ret)
  | n + 1, i, w, ret =>
    let (skb, w) := w.queueRemove
    if skb = NULL then (w, readEmpty ret)
    else
      let (w, failed) := readPacket w (hdr.pkt i) skb (fault i)
      if failed ≠ 0 then (w, -EFAULT)
      else ioReadLoop arch hdr fault n (i + 1) w (arch.toSsizeT (ret + 1))

/-- What the environment decides during a read. `toIovec` is the number of
bytes the final memcpy_toiovec writes before it faults. -/
structure ReadEnv where
  header : HeaderEnv
  fault : Nat → Option FillFault
  toIovec : Option Nat

/-- io_read_to_iovec -/
def ioReadToIovec (arch : Arch) (w : World) (iv : List Iovec) (len : Int) (env : ReadEnv) :
    IoResult :=
  match fetchHeader arch w.user iv len env.header with
  | .error e => ⟨w, e, none⟩
  | .ok hdr =>
    let (w, ret) := ioReadLoop arch hdr env.fault hdr.count.toNat 0 w 0
    reportCount arch w iv ret env.toIovec

/-- A faulting packet is counted only when its last access is the one that faults. -/
def FillFault.counted : FillFault → Bool
  | .putUser => true
  | _ => false

/-- What filling a packet does besides writing user memory. -/
structure FillStep (w w' : World) (skb : Addr) (counted : Bool) : Prop where
  next : w'.mem.next = w.mem.next
  queue : w'.queue = w.queue
  frame : World.TxFrame w w'
  log : ∃ loads, w'.mem.log = w.mem.log ++ loads ∧ ∀ e ∈ loads, e = SkbEvent.load .skb skb
  data : ∀ x, (w'.mem.cell x).data = (w.mem.cell x).data
  stats : w'.stats = { w.stats with
    txPackets := w.stats.txPackets + if counted then 1 else 0, txBytes := w'.stats.txBytes }

/-- The same with the buffer freed after it. -/
structure PacketStep (w w' : World) (skb : Addr) (counted : Bool) : Prop where
  next : w'.mem.next = w.mem.next
  queue : w'.queue = w.queue
  frame : World.TxFrame w w'
  log : ∃ loads, w'.mem.log = w.mem.log ++ loads ++ [.free skb] ∧
    ∀ e ∈ loads, e = SkbEvent.load .skb skb
  data : ∀ x, (w'.mem.cell x).data = (w.mem.cell x).data
  stats : w'.stats = { w.stats with
    txPackets := w.stats.txPackets + if counted then 1 else 0, txBytes := w'.stats.txBytes }

theorem fill_ok (w : World) (pkt skb : Addr) :
    (ioReadFillNetworkPacket w pkt skb none).2 = 0 ∧
      FillStep w (ioReadFillNetworkPacket w pkt skb none).1 skb true :=
  ⟨rfl, rfl, rfl, ⟨rfl, rfl, rfl, rfl, rfl, rfl, rfl⟩,
    ⟨[.load .skb skb], rfl, by simp⟩, fun _ => rfl, rfl⟩

theorem fill_fault (w : World) (pkt skb : Addr) (f : FillFault) :
    (ioReadFillNetworkPacket w pkt skb (some f)).2 = -EFAULT ∧
      FillStep w (ioReadFillNetworkPacket w pkt skb (some f)).1 skb f.counted := by
  cases f with
  | getUser =>
    refine ⟨rfl, rfl, rfl, ⟨rfl, rfl, rfl, rfl, rfl, rfl, rfl⟩, ⟨[], ?_, by simp⟩, fun _ => rfl, ?_⟩
    · simp [ioReadFillNetworkPacket]
    · simp [FillFault.counted, ioReadFillNetworkPacket]
  | copyToUser copied =>
    refine ⟨rfl, rfl, rfl, ⟨rfl, rfl, rfl, rfl, rfl, rfl, rfl⟩,
      ⟨[.load .skb skb], rfl, by simp⟩, fun _ => rfl, ?_⟩
    simp [FillFault.counted, ioReadFillNetworkPacket]
  | putUser =>
    exact ⟨rfl, rfl, rfl, ⟨rfl, rfl, rfl, rfl, rfl, rfl, rfl⟩,
      ⟨[.load .skb skb], rfl, by simp⟩, fun _ => rfl, rfl⟩

theorem fill_step (w : World) (pkt skb : Addr) (fault : Option FillFault) :
    ∃ counted, FillStep w (ioReadFillNetworkPacket w pkt skb fault).1 skb counted := by
  cases fault with
  | none => exact ⟨true, (fill_ok w pkt skb).2⟩
  | some f => exact ⟨f.counted, (fill_fault w pkt skb f).2⟩

theorem FillStep.free {w w' : World} {skb : Addr} {counted : Bool}
    (h : FillStep w w' skb counted) :
    PacketStep w (w'.withMem (w'.mem.kfreeSkb skb)) skb counted := by
  obtain ⟨loads, log, hloads⟩ := h.log
  refine ⟨h.next, h.queue, ?_, ⟨loads, ?_, hloads⟩, h.data, h.stats⟩
  · exact h.frame.trans (World.TxFrame.withMem _ _)
  · rw [World.withMem_mem, SkbMem.kfreeSkb_log, log]

theorem readPacket_ok (w : World) (pkt skb : Addr) :
    (readPacket w pkt skb none).2 = 0 ∧ PacketStep w (readPacket w pkt skb none).1 skb true :=
  ⟨(fill_ok w pkt skb).1, (fill_ok w pkt skb).2.free⟩

theorem readPacket_fault (w : World) (pkt skb : Addr) (f : FillFault) :
    (readPacket w pkt skb (some f)).2 = -EFAULT ∧
      PacketStep w (readPacket w pkt skb (some f)).1 skb f.counted :=
  ⟨(fill_fault w pkt skb f).1, (fill_fault w pkt skb f).2.free⟩

/-- What taking the buffers `taken` off the queue leaves behind: they are freed
in order, and `counted` of them are in tx_packets. -/
structure Taken (w w' : World) (taken rest : List Addr) (counted : Nat) : Prop where
  represents : Represents w'.mem w'.queue rest
  frame : World.TxFrame w w'
  freed : w'.mem.freed = w.mem.freed ++ taken
  data : ∀ x, (w'.mem.cell x).data = (w.mem.cell x).data
  stats : w'.stats = { w.stats with
    txPackets := w.stats.txPackets + UInt32.ofNat counted, txBytes := w'.stats.txBytes }

theorem taken_none {w : World} {xs : List Addr} (h : Represents w.mem w.queue xs) :
    Taken w w [] xs 0 :=
  ⟨h, World.TxFrame.refl w, by simp, fun _ => rfl, by simp⟩

theorem Taken.trans {w w' w'' : World} {ys zs xs us : List Addr} {m n : Nat}
    (h : Taken w w' ys us m) (h' : Taken w' w'' zs xs n) : Taken w w'' (ys ++ zs) xs (m + n) where
  represents := h'.represents
  frame := h.frame.trans h'.frame
  freed := by rw [h'.freed, h.freed, List.append_assoc]
  data := fun x => (h'.data x).trans (h.data x)
  stats := by
    rw [h'.stats, h.stats]
    simp [UInt32.ofNat_add, UInt32.add_assoc]

theorem remove_frame (w : World) : World.TxFrame w w.queueRemove.2 :=
  ⟨rfl, rfl, rfl, rfl, rfl, queueRemove_enabled w.mem w.queue, rfl⟩

theorem queueRemove_nil {w : World} (h : Represents w.mem w.queue []) :
    w.queueRemove = (NULL, w) := by
  simp only [World.queueRemove, queueRemove, queueRemove_empty h]
  rfl

theorem queueRemove_first {w : World} {x : Addr} {xs : List Addr}
    (h : Represents w.mem w.queue (x :: xs)) : w.queueRemove.1 = x := by
  simp only [World.queueRemove, queueRemove, queueRemove_cons h]

theorem queueRemove_null_iff {w : World} {xs : List Addr} (h : Represents w.mem w.queue xs) :
    w.queueRemove.1 = NULL ↔ xs = [] := by
  cases xs with
  | nil => simp only [queueRemove_nil h]
  | cons x xs => simp only [queueRemove_first h, h.first_valid, reduceCtorEq]

theorem queueRemove_rest {w : World} {x : Addr} {xs : List Addr}
    (h : Represents w.mem w.queue (x :: xs)) :
    Represents w.queueRemove.2.mem w.queueRemove.2.queue xs :=
  queueRemove_represents h

/-- One round of the loop on a nonempty queue. -/
theorem packet_taken {w w' : World} {x : Addr} {xs : List Addr} {counted : Bool}
    (h : Represents w.mem w.queue (x :: xs)) (step : PacketStep w.queueRemove.2 w' x counted) :
    Taken w w' [x] xs (if counted then 1 else 0) where
  represents := by
    rw [step.queue]
    exact (queueRemove_rest h).congr fun y _ => (congrFun step.next y).symm
  frame := (remove_frame w).trans step.frame
  freed := by
    obtain ⟨loads, hlog, hloads⟩ := step.log
    have silent : loads.filterMap SkbEvent.freed = [] := by
      refine List.filterMap_eq_nil_iff.mpr fun e he => ?_
      rw [hloads e he]
      rfl
    have taken : w.queueRemove.2.mem.log = w.mem.log ++ [.load .head x, .store .buf x] :=
      queueRemove_log h
    simp only [SkbMem.freed, hlog, taken, List.filterMap_append, silent]
    simp [List.filterMap_cons, SkbEvent.freed]
  data := fun y => (step.data y).trans (queueRemove_data w.mem w.queue y)
  stats := by
    rw [step.stats]
    cases counted <;> rfl

section Loop

variable (arch : Arch) (hdr : KvnetHeader) (fault : Nat → Option FillFault)

theorem ioReadLoop_empty {w : World} (h : Represents w.mem w.queue []) (n i : Nat) (ret : Int) :
    ioReadLoop arch hdr fault (n + 1) i w ret = (w, readEmpty ret) := by
  simp only [ioReadLoop, queueRemove_nil h, if_pos]

theorem ioReadLoop_next {w : World} {x : Addr} {xs : List Addr}
    (h : Represents w.mem w.queue (x :: xs)) (n : Nat) {i : Nat} (ret : Int)
    (ok : fault i = none) :
    ioReadLoop arch hdr fault (n + 1) i w ret =
      ioReadLoop arch hdr fault n (i + 1) (readPacket w.queueRemove.2 (hdr.pkt i) x none).1
        (arch.toSsizeT (ret + 1)) := by
  have nonempty := h.first_valid
  have done := (readPacket_ok w.queueRemove.2 (hdr.pkt i) x).1
  simp only [ioReadLoop, queueRemove_first h, if_neg nonempty, ok, done, ne_eq, not_true_eq_false,
    if_false]

theorem ioReadLoop_fails {w : World} {x : Addr} {xs : List Addr}
    (h : Represents w.mem w.queue (x :: xs)) (n : Nat) {i : Nat} (ret : Int) {f : FillFault}
    (fails : fault i = some f) :
    ioReadLoop arch hdr fault (n + 1) i w ret =
      ((readPacket w.queueRemove.2 (hdr.pkt i) x (some f)).1, -EFAULT) := by
  have nonempty := h.first_valid
  have failed := (readPacket_fault w.queueRemove.2 (hdr.pkt i) x f).1
  have nonzero : -EFAULT ≠ 0 := by decide
  simp only [ioReadLoop, queueRemove_first h, if_neg nonempty, fails, failed, if_pos nonzero]

/-- Without a fault the loop moves as many packets as both sides have. -/
theorem ioReadLoop_clean {w : World} {xs : List Addr} (n i : Nat) {ret : Int}
    (h : Represents w.mem w.queue xs) (clean : ∀ j, j < min n xs.length → fault (i + j) = none)
    (before : ret = arch.toSsizeT i) :
    (ioReadLoop arch hdr fault n i w ret).2 =
        (if n ≤ xs.length then arch.toSsizeT (i + n : Nat)
          else readEmpty (arch.toSsizeT (i + xs.length : Nat))) ∧
      Taken w (ioReadLoop arch hdr fault n i w ret).1 (xs.take n) (xs.drop n)
        (min n xs.length) := by
  induction n generalizing i w ret xs with
  | zero =>
    refine ⟨by simp [ioReadLoop, before], ?_⟩
    simpa [ioReadLoop] using taken_none h
  | succ n ih =>
    cases xs with
    | nil =>
      rw [ioReadLoop_empty arch hdr fault h]
      exact ⟨by simp [before], by simpa using taken_none h⟩
    | cons x xs =>
      have first : fault i = none := by simpa using clean 0 (by simp)
      rw [ioReadLoop_next arch hdr fault h n ret first]
      have taken := packet_taken h (readPacket_ok w.queueRemove.2 (hdr.pkt i) x).2
      have later : ∀ j, j < min n xs.length → fault (i + 1 + j) = none := by
        intro j hj
        have shifted := clean (j + 1) (by simp only [List.length_cons]; omega)
        rwa [show i + (j + 1) = i + 1 + j by omega] at shifted
      have next : arch.toSsizeT (ret + 1) = arch.toSsizeT (i + 1 : Nat) := by
        rw [before, arch.toSsizeT_succ, Int.natCast_succ]
      obtain ⟨hret, hrest⟩ := ih (i + 1) taken.represents later next
      constructor
      · rw [hret]
        simp only [List.length_cons, Nat.add_le_add_iff_right, Nat.add_right_comm i 1,
          ← Nat.add_assoc]
      · have both := taken.trans hrest
        have counts : (if true then 1 else 0) + min n xs.length =
            min (n + 1) (x :: xs).length := by
          simp only [List.length_cons, if_true]
          omega
        rw [counts] at both
        exact both

/-- So it counts the packets it moves. -/
theorem ioReadLoop_count {w : World} {xs : List Addr} {n : Nat}
    (h : Represents w.mem w.queue xs) (fits : n < 2 ^ 32)
    (clean : ∀ j, j < min n xs.length → fault j = none) (nonempty : xs ≠ []) :
    (ioReadLoop arch hdr fault n 0 w 0).2 = arch.toSsizeT (min n xs.length : Nat) := by
  have quiet : ∀ j, j < min n xs.length → fault (0 + j) = none := by simpa using clean
  have some_queued : 0 < xs.length := List.length_pos_iff.mpr nonempty
  rw [(ioReadLoop_clean arch hdr fault n 0 h quiet arch.toSsizeT_zero.symm).1, Nat.zero_add,
    Nat.zero_add]
  by_cases enough : n ≤ xs.length
  · rw [if_pos enough, Nat.min_eq_left enough]
  · have some_taken : arch.toSsizeT xs.length ≠ 0 := by
      rcases arch.toSsizeT_count (show xs.length < 2 ^ 32 by omega) with kept | wrapped
      · omega
      · omega
    rw [if_neg enough, Nat.min_eq_right (by omega), readEmpty, if_neg some_taken]

/-- A fault ends the loop: the packet it strikes is taken and lost, and the
count of the packets before it is overwritten. -/
theorem ioReadLoop_fault {w : World} {xs : List Addr} {j : Nat} {f : FillFault} (n i : Nat)
    (ret : Int) (h : Represents w.mem w.queue xs) (inside : j < min n xs.length)
    (first : ∀ k, k < j → fault (i + k) = none) (fails : fault (i + j) = some f) :
    (ioReadLoop arch hdr fault n i w ret).2 = -EFAULT ∧
      Taken w (ioReadLoop arch hdr fault n i w ret).1 (xs.take (j + 1)) (xs.drop (j + 1))
        (j + if f.counted then 1 else 0) := by
  induction j generalizing n i w ret xs with
  | zero =>
    obtain ⟨n, rfl⟩ : ∃ k, n = k + 1 := ⟨n - 1, by omega⟩
    obtain ⟨x, xs, rfl⟩ : ∃ y ys, xs = y :: ys :=
      List.exists_cons_of_ne_nil (by rintro rfl; simp at inside)
    rw [ioReadLoop_fails arch hdr fault h n ret (by simpa using fails)]
    have taken := packet_taken h (readPacket_fault w.queueRemove.2 (hdr.pkt i) x f).2
    exact ⟨rfl, by simpa using taken⟩
  | succ j ih =>
    obtain ⟨n, rfl⟩ : ∃ k, n = k + 1 := ⟨n - 1, by omega⟩
    obtain ⟨x, xs, rfl⟩ : ∃ y ys, xs = y :: ys :=
      List.exists_cons_of_ne_nil (by rintro rfl; simp at inside)
    rw [ioReadLoop_next arch hdr fault h n ret (by simpa using first 0 (by omega))]
    have taken := packet_taken h (readPacket_ok w.queueRemove.2 (hdr.pkt i) x).2
    have later : ∀ k, k < j → fault (i + 1 + k) = none := by
      intro k hk
      have shifted := first (k + 1) (by omega)
      rwa [show i + (k + 1) = i + 1 + k by omega] at shifted
    have struck : fault (i + 1 + j) = some f := by
      rwa [show i + 1 + j = i + (j + 1) by omega]
    obtain ⟨hret, hrest⟩ := ih n (i + 1) (arch.toSsizeT (ret + 1)) taken.represents
      (by simp only [List.length_cons] at inside; omega) later struck
    refine ⟨hret, ?_⟩
    have both := taken.trans hrest
    have counts : (if true then 1 else 0) + (j + if f.counted then 1 else 0) =
        j + 1 + if f.counted then 1 else 0 := by
      simp only [if_true]
      omega
    rw [counts] at both
    exact both

end Loop

/-- The caller is told how many packets left the queue, and an error leaves the
queue as it was. -/
def ReadReports (w : World) (xs : List Addr) (r : IoResult) : Prop :=
  (∃ taken rest, xs = taken ++ rest ∧ Represents r.world.mem r.world.queue rest ∧
    r.reported = some taken.length) ∧
  (r.ret < 0 → r.world.queue = w.queue ∧ r.world.mem.next = w.mem.next)

theorem ioReadToIovec_accepted {arch : Arch} {w : World} {iv : List Iovec} {len : Int}
    {env : ReadEnv} {hdr : KvnetHeader}
    (accepted : fetchHeader arch w.user iv len env.header = .ok hdr) :
    ioReadToIovec arch w iv len env =
      reportCount arch (ioReadLoop arch hdr env.fault hdr.count.toNat 0 w 0).1 iv
        (ioReadLoop arch hdr env.fault hdr.count.toNat 0 w 0).2 env.toIovec := by
  simp only [ioReadToIovec, accepted]

/-- Writing the count back changes user memory only. -/
theorem Taken.report {w w' : World} {taken rest : List Addr} {counted : Nat}
    (h : Taken w w' taken rest counted) (arch : Arch) (iv : List Iovec) (ret : Int)
    (fault : Option Nat) :
    Taken w (reportCount arch w' iv ret fault).world taken rest counted := by
  obtain ⟨user, world⟩ := reportCount_world arch w' iv ret fault
  rw [world]
  exact ⟨h.represents, h.frame.trans (World.TxFrame.withUser _ _), h.freed, h.data, h.stats⟩

/-- Whatever first fault strikes the packets a read takes comes after the packet
was counted. -/
def FaultsCounted (arch : Arch) (w : World) (iv : List Iovec) (len : Int) (env : ReadEnv)
    (queued : Nat) : Prop :=
  ∀ hdr, fetchHeader arch w.user iv len env.header = .ok hdr →
    ∀ j f, j < min hdr.count.toNat queued → (∀ k, k < j → env.fault k = none) →
      env.fault j = some f → f.counted = true

/-- A read takes the first packets of the queue, whatever it reports, and leaves
at most one of them uncounted. -/
theorem ioReadToIovec_taken {w : World} {xs : List Addr} (rep : Represents w.mem w.queue xs)
    (arch : Arch) (iv : List Iovec) (len : Int) (env : ReadEnv) :
    ∃ taken rest counted, xs = taken ++ rest ∧
      Taken w (ioReadToIovec arch w iv len env).world taken rest counted ∧
      (FaultsCounted arch w iv len env xs.length ∧ counted = taken.length ∨
        ¬ FaultsCounted arch w iv len env xs.length ∧ counted + 1 = taken.length) := by
  cases accepted : fetchHeader arch w.user iv len env.header with
  | error e =>
    refine ⟨[], xs, 0, rfl, ?_, Or.inl ⟨fun hdr ok => ?_, rfl⟩⟩
    · simpa only [ioReadToIovec, accepted] using taken_none rep
    · rw [accepted] at ok
      cases ok
  | ok hdr =>
    rw [ioReadToIovec_accepted accepted]
    rcases clean_or_first env.fault (min hdr.count.toNat xs.length) with clean | fault
    · obtain ⟨_, moved⟩ := ioReadLoop_clean arch hdr env.fault hdr.count.toNat 0 rep
        (by simpa using clean) arch.toSsizeT_zero.symm
      refine ⟨_, _, _, (List.take_append_drop hdr.count.toNat xs).symm, moved.report _ _ _ _,
        Or.inl ⟨fun hdr' ok j f inside _ struck => ?_, by simp⟩⟩
      obtain rfl : hdr = hdr' := Except.ok.inj (accepted.symm.trans ok)
      rw [clean j inside] at struck
      cases struck
    · obtain ⟨j, f, inside, before, struck⟩ := fault
      obtain ⟨_, moved⟩ := ioReadLoop_fault arch hdr env.fault hdr.count.toNat 0 0 rep inside
        (by simpa using before) (by simpa using struck)
      refine ⟨_, _, _, (List.take_append_drop (j + 1) xs).symm, moved.report _ _ _ _, ?_⟩
      have length : (xs.take (j + 1)).length = j + 1 := by
        rw [List.length_take]
        omega
      cases counts : f.counted with
      | true =>
        refine Or.inl ⟨fun hdr' ok j' f' inside' before' struck' => ?_, by simp [length]⟩
        have same := first_unique before struck before' struck'
        rw [← same, struck] at struck'
        exact Option.some.inj struck' ▸ counts
      | false =>
        refine Or.inr ⟨fun all => ?_, by simp [length]⟩
        have counted := all hdr accepted j f inside before struck
        rw [counts] at counted
        cases counted

/-- What left the queue is known, so a read reports it exactly when it reports
its number. -/
theorem readReports_iff_reported {w w' : World} {xs taken rest : List Addr} {arch : Arch}
    {iv : List Iovec} {ret : Int} {fault : Option Nat} {counted : Nat}
    (moved : Taken w w' taken rest counted) (split : xs = taken ++ rest)
    (some_taken : 0 < taken.length) :
    ReadReports w xs (reportCount arch w' iv ret fault) ↔
      (reportCount arch w' iv ret fault).reported = some taken.length := by
  have left := (moved.report arch iv ret fault).represents
  constructor
  · rintro ⟨⟨told, rest', split', rep, count⟩, _⟩
    have same : rest' = rest := rep.unique left
    have both : told ++ rest = taken ++ rest := by rw [← split, split', same]
    rw [List.append_cancel_right both] at count
    exact count
  · intro count
    refine ⟨⟨taken, rest, split, left, count⟩, fun negative => ?_⟩
    have positive := IoResult.reported_pos count some_taken
    omega

/-- A read reports what it took exactly when no user access of a packet it takes
faults and the count can be written back and returned, or when there is nothing
to take. -/
theorem read_reports_iff (arch : Arch) (w : World) (iv : List Iovec) (len : Int) (env : ReadEnv)
    (hdr : KvnetHeader) (xs : List Addr) (rep : Represents w.mem w.queue xs)
    (accepted : fetchHeader arch w.user iv len env.header = .ok hdr) :
    ReadReports w xs (ioReadToIovec arch w iv len env) ↔
      xs = [] ∨ (∀ i, i < min hdr.count.toNat xs.length → env.fault i = none) ∧
        env.toIovec = none ∧ arch.Reportable (min hdr.count.toNat xs.length) := by
  have positive := count_pos (fetchHeader_ok accepted).1
  have bound : hdr.count.toNat < 2 ^ 32 := hdr.count.toNat_lt
  rw [ioReadToIovec_accepted accepted]
  by_cases empty : xs = []
  · subst empty
    obtain ⟨n, hn⟩ : ∃ n, hdr.count.toNat = n + 1 := ⟨hdr.count.toNat - 1, by omega⟩
    have again : readEmpty 0 < 0 := by decide
    rw [hn, ioReadLoop_empty arch hdr env.fault rep]
    refine iff_of_true ⟨⟨[], [], rfl, ?_, ?_⟩, fun _ => ?_⟩ (Or.inl rfl)
    · simpa only [World.queue, reportCount_mem, reportCount_vnet] using rep
    · exact reported_error arch w iv env.toIovec again
    · rw [reportCount_error arch w iv env.toIovec again]
      exact ⟨rfl, rfl⟩
  have some_queued : 0 < xs.length := List.length_pos_iff.mpr empty
  simp only [empty, false_or]
  rcases clean_or_first env.fault (min hdr.count.toNat xs.length) with clean | fault
  · have quiet : ∀ j, j < min hdr.count.toNat xs.length → env.fault (0 + j) = none := by
      simpa using clean
    obtain ⟨_, moved⟩ := ioReadLoop_clean arch hdr env.fault hdr.count.toNat 0 rep quiet
      arch.toSsizeT_zero.symm
    have count := ioReadLoop_count arch hdr env.fault rep bound clean empty
    have length : (xs.take hdr.count.toNat).length = min hdr.count.toNat xs.length :=
      List.length_take
    rw [readReports_iff_reported moved (List.take_append_drop _ xs).symm (by omega), count, length]
    rw [reported_count_iff arch _ iv (by omega) (by omega)]
    constructor
    · intro told
      exact ⟨clean, told⟩
    · rintro ⟨_, told⟩
      exact told
  · obtain ⟨j, f, inside, before, struck⟩ := fault
    obtain ⟨hret, moved⟩ := ioReadLoop_fault arch hdr env.fault hdr.count.toNat 0 0 rep inside
      (by simpa using before) (by simpa using struck)
    have length : (xs.take (j + 1)).length = j + 1 := by
      rw [List.length_take]
      omega
    rw [readReports_iff_reported moved (List.take_append_drop _ xs).symm (by omega), hret, length,
      reported_error arch _ iv env.toIovec (by decide)]
    constructor
    · intro none_told
      have zero := Option.some.inj none_told
      omega
    · intro h
      rw [h.1 j inside] at struck
      cases struck

/-- Two one-byte buffers are queued and the header at 4096 names two user
packets of capacity 100. -/
def pairWorld : World where
  mem := ⟨fun a => if a = 1 then ⟨2, [0xaa]⟩ else ⟨NULL, [0xbb]⟩, []⟩
  user := storeBytes (storeBytes (storeBytes (fun _ => 0)
    4096 (leBytes 4 2 ++ leBytes 8 8192 ++ leBytes 8 12288)) 8192 (leBytes 4 100))
    12288 (leBytes 4 100)
  vnet := ⟨⟨1, 1, 0⟩, ⟨1, 1, ⟨0, 0, 0, 0, 0, 0, 0, 0, 0, 0⟩, ⟨1, 2, 2, 1⟩, 64⟩, ⟨[], 256⟩⟩
  kernel := ⟨[], [], 65, 64, true⟩

def pairRead (fault : Nat → Option FillFault) : IoResult :=
  ioReadToIovec lp64 pairWorld [⟨4096, 20⟩] 20 ⟨⟨true, false, fun _ => 0⟩, fault, none⟩

theorem pair_represents : Represents pairWorld.mem pairWorld.queue [1, 2] :=
  ⟨⟨rfl, rfl, rfl⟩, by decide, by decide, fun _ => rfl, rfl⟩

theorem read_reports_pair : ReadReports pairWorld [1, 2] (pairRead fun _ => none) :=
  (read_reports_iff lp64 pairWorld _ 20 ⟨⟨true, false, fun _ => 0⟩, fun _ => none, none⟩ _ [1, 2]
    pair_represents rfl).mpr (Or.inr ⟨fun _ _ => rfl, rfl, lp64_reportable (by decide +kernel)⟩)

/-- The second packet's data_len cannot be read: both buffers are gone, the
first one even delivered, and the caller is told of none. -/
theorem pair_read_fault :
    ¬ ReadReports pairWorld [1, 2] (pairRead fun i => if i = 1 then some .getUser else none) := by
  rintro ⟨⟨taken, rest, hsplit, hrep, hcount⟩, _⟩
  have drained : rest = [] := hrep.head_eq_null_iff.mp (by decide +kernel)
  have silent : (pairRead fun i => if i = 1 then some .getUser else none).reported = some 0 := by
    decide +kernel
  have none_told : taken = [] := by
    rw [silent] at hcount
    exact List.length_eq_zero_iff.mp (Option.some.inj hcount).symm
  rw [drained, none_told] at hsplit
  cases hsplit

end Kvnet
