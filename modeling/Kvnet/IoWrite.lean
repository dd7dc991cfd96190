import Kvnet.IoHeader

/-!
# Writing a batch of packets

io_write_from_iovec turns each user packet into a frame for the network stack.
Frames are handed over one by one and cannot be recalled; the loop variable
`ret` counts them until a failure overwrites it.
-/

namespace Kvnet

def NET_IP_ALIGN : UInt32 := 2

/-- The step of a packet that fails: reading its length, allocating the buffer,
or copying its data. -/
inductive WriteFault where
  | getUser
  | devAllocSkb
  | copyFromUser
  deriving DecidableEq, Repr

/-- What the environment decides during a write. `junk i` is what the memory of
the i-th buffer holds from the start of its data on. -/
structure WriteEnv where
  header : HeaderEnv
  fault : Nat → Option WriteFault
  junk : Nat → Nat → UInt8
  toIovec : Option Nat

/-- dev_alloc_skb followed by skb_reserve. -/
def devAllocSkb (length reserve : UInt32) : RxSkb := ⟨length, reserve.toNat, [], []⟩

/-- eth_type_trans: the first 14 bytes are taken for the Ethernet header, and
pulled if the buffer holds that many. -/
def ethTypeTrans (skb : RxSkb) (junk : Nat → UInt8) : RxSkb :=
  { skb with
    macHeader := (List.range 14).map fun j => skb.data.getD j (junk j)
    data := if 14 ≤ skb.data.length then skb.data.drop 14 else skb.data }

def netifRxNi (w : World) (skb : RxSkb) : World :=
  { w with kernel := { w.kernel with rx := w.kernel.rx ++ [skb] } }

/-- The frame made of the user packet at `pkt`. -/
def writeFrame (user : UserMem) (pkt : Addr) (junk : Nat → UInt8) : RxSkb :=
  let dataLen := loadU32 user pkt
  let skb := devAllocSkb (dataLen + NET_IP_ALIGN) NET_IP_ALIGN
  ethTypeTrans { skb with data := loadBytes user (pkt + 4) dataLen.toNat } junk

/-- One packet of the loop body once nothing of it fails: the frame goes to the
network stack and is counted. -/
def writePacket (w : World) (pkt : Addr) (junk : Nat → UInt8) : World :=
  let w := netifRxNi w (writeFrame w.user pkt junk)
  w.withStats { w.stats with
    rxPackets := w.stats.rxPackets + 1, rxBytes := w.stats.rxBytes + loadU32 w.user pkt }

def WriteFault.error : WriteFault → Int
  | .getUser => -EFAULT
  | .devAllocSkb => -ENOMEM
  | .copyFromUser => -EFAULT

/-- The loop from index i on, with n indices to go. The source indexes the
slots with an int. -/
def ioWriteLoop (arch : Arch) (hdr : KvnetHeader) (env : WriteEnv) :
    Nat → Nat → World → Int → World × Int
  | 0, _, w, ret => (w, ret)
  | n + 1, i, w, ret =>
    match env.fault i with
    | some fault => (w, fault.error)
    | none =>
      ioWriteLoop arch hdr env n (i + 1) (writePacket w (hdr.pkt (toCInt i)) (env.junk i))
        (arch.toSsizeT (ret + 1))

/-- io_write_from_iovec -/
def ioWriteFromIovec (arch : Arch) (w : World) (iv : List Iovec) (len : Int) (env : WriteEnv) :
    IoResult :=
  match fetchHeader arch w.user iv len env.header with
  | .error e => ⟨w, e, none⟩
  | .ok hdr =>
    let (w, ret) := ioWriteLoop arch hdr env hdr.count.toNat 0 w 0
    reportCount arch w iv ret env.toIovec

/-- What injecting frames changes: the receive path and its two counters. -/
structure Injected (w w' : World) (frames : List RxSkb) : Prop where
  rx : w'.kernel = { w.kernel with rx := w.kernel.rx ++ frames }
  mem : w'.mem = w.mem
  user : w'.user = w.user
  vnet : w'.vnet = (w.withStats { w.stats with
    rxPackets := w.stats.rxPackets + UInt32.ofNat frames.length,
    rxBytes := w'.stats.rxBytes }).vnet

theorem injected_nil (w : World) : Injected w w [] :=
  ⟨by simp, rfl, rfl, by simp [World.withStats, World.stats]⟩

theorem injected_cons {w w' : World} {pkt : Addr} {junk : Nat → UInt8} {frames : List RxSkb}
    (h : Injected (writePacket w pkt junk) w' frames) :
    Injected w w' (writeFrame w.user pkt junk :: frames) where
  rx := by
    rw [h.rx]
    simp [writePacket, netifRxNi, World.withStats]
  mem := h.mem
  user := h.user
  vnet := by
    have count : w.stats.rxPackets + 1 + UInt32.ofNat frames.length =
        w.stats.rxPackets + UInt32.ofNat (writeFrame w.user pkt junk :: frames).length := by
      rw [List.length_cons, UInt32.ofNat_add, UInt32.add_assoc,
        UInt32.add_comm 1 (UInt32.ofNat frames.length)]
      rfl
    rw [← count, h.vnet]
    rfl

section Loop

variable (arch : Arch) (hdr : KvnetHeader) (env : WriteEnv)

/-- The frames made of the n packets from index i on, in header order. -/
def batchFrames (user : UserMem) (i n : Nat) : List RxSkb :=
  (List.range n).map fun j =>
    writeFrame user (hdr.pkt (toCInt (i + j : Nat))) (env.junk (i + j))

theorem batchFrames_succ (user : UserMem) (i n : Nat) :
    batchFrames hdr env user i (n + 1) =
      writeFrame user (hdr.pkt (toCInt i)) (env.junk i) :: batchFrames hdr env user (i + 1) n := by
  rw [batchFrames, List.range_succ_eq_map, List.map_cons, List.map_map]
  refine congrArg (List.cons _) (List.map_congr_left fun j _ => ?_)
  simp only [Function.comp, show i + j.succ = i + 1 + j by omega]

@[simp] theorem batchFrames_length (user : UserMem) (i n : Nat) :
    (batchFrames hdr env user i n).length = n := by
  simp [batchFrames]

theorem ioWriteLoop_next {w : World} (n : Nat) {i : Nat} (ret : Int) (ok : env.fault i = none) :
    ioWriteLoop arch hdr env (n + 1) i w ret =
      ioWriteLoop arch hdr env n (i + 1) (writePacket w (hdr.pkt (toCInt i)) (env.junk i))
        (arch.toSsizeT (ret + 1)) := by
  rw [ioWriteLoop, ok]

theorem ioWriteLoop_fails {w : World} (n : Nat) {i : Nat} (ret : Int) {f : WriteFault}
    (fails : env.fault i = some f) : ioWriteLoop arch hdr env (n + 1) i w ret = (w, f.error) := by
  rw [ioWriteLoop, fails]

/-- Without a failure every named packet becomes a frame. -/
theorem ioWriteLoop_clean (w : World) (n i : Nat) {ret : Int}
    (clean : ∀ j, j < n → env.fault (i + j) = none) (before : ret = arch.toSsizeT i) :
    (ioWriteLoop arch hdr env n i w ret).2 = arch.toSsizeT (i + n : Nat) ∧
      Injected w (ioWriteLoop arch hdr env n i w ret).1 (batchFrames hdr env w.user i n) := by
  induction n generalizing i w ret with
  | zero => exact ⟨before, injected_nil w⟩
  | succ n ih =>
    have later : ∀ j, j < n → env.fault (i + 1 + j) = none := by
      intro j hj
      have shifted := clean (j + 1) (by omega)
      rwa [show i + (j + 1) = i + 1 + j by omega] at shifted
    rw [ioWriteLoop_next arch hdr env n ret (by simpa using clean 0 (by omega)), batchFrames_succ]
    have next : arch.toSsizeT (ret + 1) = arch.toSsizeT (i + 1 : Nat) := by
      rw [before, arch.toSsizeT_succ, Int.natCast_succ]
    obtain ⟨hret, hrest⟩ :=
      ih (writePacket w (hdr.pkt (toCInt i)) (env.junk i)) (i + 1) later next
    refine ⟨?_, injected_cons hrest⟩
    rw [hret, Nat.add_right_comm, Nat.add_assoc]

/-- A failure ends the loop with an error; the frames before it stay injected. -/
theorem ioWriteLoop_fault {j : Nat} {f : WriteFault} (w : World) (n i : Nat) (ret : Int)
    (inside : j < n) (first : ∀ k, k < j → env.fault (i + k) = none)
    (fails : env.fault (i + j) = some f) :
    (ioWriteLoop arch hdr env n i w ret).2 = f.error ∧
      Injected w (ioWriteLoop arch hdr env n i w ret).1 (batchFrames hdr env w.user i j) := by
  induction j generalizing n i w ret with
  | zero =>
    obtain ⟨n, rfl⟩ : ∃ k, n = k + 1 := ⟨n - 1, by omega⟩
    rw [ioWriteLoop_fails arch hdr env n ret (by simpa using fails)]
    exact ⟨rfl, injected_nil w⟩
  | succ j ih =>
    obtain ⟨n, rfl⟩ : ∃ k, n = k + 1 := ⟨n - 1, by omega⟩
    have later : ∀ k, k < j → env.fault (i + 1 + k) = none := by
      intro k hk
      have shifted := first (k + 1) (by omega)
      rwa [show i + (k + 1) = i + 1 + k by omega] at shifted
    have struck : env.fault (i + 1 + j) = some f := by
      rwa [show i + 1 + j = i + (j + 1) by omega]
    rw [ioWriteLoop_next arch hdr env n ret (by simpa using first 0 (by omega)), batchFrames_succ]
    obtain ⟨hret, hrest⟩ := ih (writePacket w (hdr.pkt (toCInt i)) (env.junk i))
      n (i + 1) (arch.toSsizeT (ret + 1)) (by omega) later struck
    exact ⟨hret, injected_cons hrest⟩

end Loop

theorem WriteFault.error_neg (f : WriteFault) : f.error < 0 := by
  cases f <;> decide

/-- The caller is told how many frames reached the network stack, and after an
error none has. -/
def WriteReports (w : World) (r : IoResult) : Prop :=
  (∃ frames, r.world.kernel.rx = w.kernel.rx ++ frames ∧ r.reported = some frames.length) ∧
  (r.ret < 0 → r.world.kernel.rx = w.kernel.rx)

theorem ioWriteFromIovec_accepted {arch : Arch} {w : World} {iv : List Iovec} {len : Int}
    {env : WriteEnv} {hdr : KvnetHeader}
    (accepted : fetchHeader arch w.user iv len env.header = .ok hdr) :
    ioWriteFromIovec arch w iv len env =
      reportCount arch (ioWriteLoop arch hdr env hdr.count.toNat 0 w 0).1 iv
        (ioWriteLoop arch hdr env hdr.count.toNat 0 w 0).2 env.toIovec := by
  simp only [ioWriteFromIovec, accepted]

/-- Whatever it reports, a write changes nothing but user memory and what the
frames it injected change. -/
theorem ioWriteFromIovec_injected (arch : Arch) (w : World) (iv : List Iovec) (len : Int)
    (env : WriteEnv) : ∃ w' user frames,
      (ioWriteFromIovec arch w iv len env).world = w'.withUser user ∧ Injected w w' frames := by
  cases accepted : fetchHeader arch w.user iv len env.header with
  | error e => exact ⟨w, w.user, [], by simp only [ioWriteFromIovec, accepted]; rfl, injected_nil w⟩
  | ok hdr =>
    rw [ioWriteFromIovec_accepted accepted]
    obtain ⟨user, world⟩ := reportCount_world arch
      (ioWriteLoop arch hdr env hdr.count.toNat 0 w 0).1 iv
      (ioWriteLoop arch hdr env hdr.count.toNat 0 w 0).2 env.toIovec
    rcases clean_or_first env.fault hdr.count.toNat with clean | ⟨j, f, inside, before, struck⟩
    · obtain ⟨_, moved⟩ := ioWriteLoop_clean arch hdr env w hdr.count.toNat 0
        (by simpa using clean) arch.toSsizeT_zero.symm
      exact ⟨_, user, _, world, moved⟩
    · obtain ⟨_, moved⟩ := ioWriteLoop_fault arch hdr env w hdr.count.toNat 0 0 inside
        (by simpa using before) (by simpa using struck)
      exact ⟨_, user, _, world, moved⟩

theorem writeReports_iff_reported {w w' : World} {frames : List RxSkb} {arch : Arch}
    {iv : List Iovec} {ret : Int} {fault : Option Nat} (moved : Injected w w' frames)
    (some_sent : 0 < frames.length) :
    WriteReports w (reportCount arch w' iv ret fault) ↔
      (reportCount arch w' iv ret fault).reported = some frames.length := by
  have rx : (reportCount arch w' iv ret fault).world.kernel.rx = w.kernel.rx ++ frames := by
    rw [reportCount_kernel, moved.rx]
  constructor
  · rintro ⟨⟨told, hrx, count⟩, _⟩
    rw [rx] at hrx
    rw [List.append_cancel_left hrx]
    exact count
  · intro count
    refine ⟨⟨frames, rx, count⟩, fun negative => ?_⟩
    have positive := IoResult.reported_pos count some_sent
    omega

/-- A write reports what it injected exactly when its first packet fails, or
when no packet fails and the count can be written back and returned. -/
theorem write_reports_iff (arch : Arch) (w : World) (iv : List Iovec) (len : Int) (env : WriteEnv)
    (hdr : KvnetHeader) (accepted : fetchHeader arch w.user iv len env.header = .ok hdr) :
    WriteReports w (ioWriteFromIovec arch w iv len env) ↔
      env.fault 0 ≠ none ∨
        (∀ i, i < hdr.count.toNat → env.fault i = none) ∧ env.toIovec = none ∧
          arch.Reportable hdr.count.toNat := by
  have positive := count_pos (fetchHeader_ok accepted).1
  have bound : hdr.count.toNat < 2 ^ 32 := hdr.count.toNat_lt
  rw [ioWriteFromIovec_accepted accepted]
  rcases clean_or_first env.fault hdr.count.toNat with clean | ⟨j, f, inside, before, struck⟩
  · obtain ⟨hret, moved⟩ := ioWriteLoop_clean arch hdr env w hdr.count.toNat 0
      (by simpa using clean) arch.toSsizeT_zero.symm
    have unstruck : ¬ env.fault 0 ≠ none := fun first => first (clean 0 positive)
    rw [writeReports_iff_reported moved (by rw [batchFrames_length]; exact positive), hret,
      Nat.zero_add, batchFrames_length]
    simp only [unstruck, false_or]
    rw [reported_count_iff arch _ iv positive bound]
    constructor
    · intro told
      exact ⟨clean, told⟩
    · rintro ⟨_, told⟩
      exact told
  · obtain ⟨hret, moved⟩ := ioWriteLoop_fault arch hdr env w hdr.count.toNat 0 0 inside
      (by simpa using before) (by simpa using struck)
    have silent := reported_error arch (ioWriteLoop arch hdr env hdr.count.toNat 0 w 0).1 iv
      env.toIovec (hret ▸ f.error_neg)
    by_cases start : j = 0
    · subst start
      have unmoved : batchFrames hdr env w.user 0 0 = [] := rfl
      rw [unmoved] at moved
      refine iff_of_true ⟨⟨[], ?_, silent⟩, fun _ => ?_⟩ (Or.inl (by rw [struck]; simp))
      · rw [reportCount_kernel, moved.rx]
      · rw [reportCount_kernel, moved.rx, List.append_nil]
    · rw [writeReports_iff_reported moved (by rw [batchFrames_length]; omega), silent,
        batchFrames_length]
      constructor
      · intro none_told
        exact False.elim (start (Option.some.inj none_told).symm)
      · rintro (first | ⟨all, _⟩)
        · exact False.elim (first (before 0 (by omega)))
        · rw [all j inside] at struck
          cases struck

/-- The header at 4096 names two user packets of 3 and 2 bytes. -/
def batchWorld : World where
  mem := ⟨fun _ => ⟨NULL, []⟩, []⟩
  user := storeBytes (storeBytes (storeBytes (fun _ => 0)
    4096 (leBytes 4 2 ++ leBytes 8 8192 ++ leBytes 8 12288)) 8192 (leBytes 4 3))
    12288 (leBytes 4 2)
  vnet := ⟨⟨1, 1, 0⟩, ⟨1, 1, ⟨0, 0, 0, 0, 0, 0, 0, 0, 0, 0⟩, ⟨NULL, NULL, 0, 1⟩, 64⟩, ⟨[], 256⟩⟩
  kernel := ⟨[], [], 65, 64, true⟩

def batchWrite (fault : Nat → Option WriteFault) : IoResult :=
  ioWriteFromIovec lp64 batchWorld [⟨4096, 20⟩] 20
    ⟨⟨true, false, fun _ => 0⟩, fault, fun _ _ => 0, none⟩

theorem write_reports_batch : WriteReports batchWorld (batchWrite fun _ => none) :=
  (write_reports_iff lp64 batchWorld _ 20
    ⟨⟨true, false, fun _ => 0⟩, fun _ => none, fun _ _ => 0, none⟩ _ rfl).mpr
    (Or.inr ⟨fun _ _ => rfl, rfl, lp64_reportable (by decide +kernel)⟩)

/-- No buffer for the second packet: the first frame is with the network stack,
and the caller is told of none. -/
theorem batch_write_fault :
    ¬ WriteReports batchWorld (batchWrite fun i => if i = 1 then some .devAllocSkb else none) := by
  rintro ⟨_, unsent⟩
  have error : (batchWrite fun i => if i = 1 then some .devAllocSkb else none).ret < 0 := by
    decide +kernel
  have sent : (batchWrite fun i =>
      if i = 1 then some .devAllocSkb else none).world.kernel.rx.length = 1 := by
    decide +kernel
  rw [unsent error] at sent
  cases sent

end Kvnet
