import Mathlib.Data.List.Perm.Basic
import Kvnet.IoDev
import Kvnet.Execution

/-!
# Transmit accounting

Every skb passed to net_dev_send should end in one of three 32-bit counters or
still be queued. A run is a sequence of whole calls. An skb may be passed again
under the same address once the driver has freed it, which is how the caller's
ownership is stated; the fuel of a flush is one more than the number of buffers
ever passed, so that it never runs out.
-/

namespace Kvnet

structure TxRun where
  world : World
  passed : List Addr

inductive TxCall where
  | netDevSend (skb : Addr) (txQueueLen : UInt64)
  | ioReadToIovec (iv : List Iovec) (len : Int) (env : ReadEnv)
  | netDevOpen
  | netDevClose

/-- The caller of net_dev_send owns the buffer: each earlier time this address
was passed, the driver has freed it. -/
def MayPass (mem : SkbMem) (passed : List Addr) (skb : Addr) : Prop :=
  skb ≠ NULL ∧ passed.count skb = mem.freed.count skb

instance (mem : SkbMem) (passed : List Addr) (skb : Addr) : Decidable (MayPass mem passed skb) :=
  inferInstanceAs (Decidable (_ ∧ _))

def txStep (arch : Arch) (s : TxRun) : TxCall → Option TxRun
  | .netDevSend skb txQueueLen =>
    if MayPass s.world.mem s.passed skb then
      some ⟨netDevSend s.world skb txQueueLen, s.passed ++ [skb]⟩
    else none
  | .ioReadToIovec iv len env =>
    some { s with world := (ioReadToIovec arch s.world iv len env).world }
  | .netDevOpen => some { s with world := netDevOpen s.world }
  | .netDevClose =>
    (netDevClose (s.passed.length + 1) s.world).map fun w => { s with world := w }

/-- The driver after vnet_init: an initialised queue, all counters zero, and
nothing done to any skb yet. -/
structure TxFresh (s : TxRun) : Prop where
  queue : s.world.queue = queueInit s.world.queue
  stats : s.world.stats = ⟨0, 0, 0, 0, 0, 0, 0, 0, 0, 0⟩
  log : s.world.mem.log = []
  passed : s.passed = []

/-- Modulo 2^32, the skbs passed so far are counted or queued, and those that
left the driver are counted once. -/
structure Conserved (s : TxRun) : Prop where
  passed : (s.passed.length : Int) ≡ s.world.stats.txPackets.toNat +
    s.world.stats.txDropped.toNat + s.world.stats.txErrors.toNat +
    s.world.queue.size.toInt [ZMOD 2 ^ 32]
  left : s.world.mem.freed.length ≡ s.world.stats.txPackets.toNat +
    s.world.stats.txDropped.toNat + s.world.stats.txErrors.toNat [MOD 2 ^ 32]

/-- No read loses a packet to a fault that strikes before the packet is counted. -/
def CountsFaults (arch : Arch) (s : TxRun) : TxCall → Prop
  | .ioReadToIovec iv len env =>
    ∀ xs, Represents s.world.mem s.world.queue xs →
      FaultsCounted arch s.world iv len env xs.length
  | _ => True

/-- The queue stands for a list, and each buffer is queued or freed as many
times as it was passed. -/
structure TxLedger (s : TxRun) (xs : List Addr) : Prop where
  represents : Represents s.world.mem s.world.queue xs
  count : ∀ x, xs.count x + s.world.mem.freed.count x = s.passed.count x

theorem TxLedger.not_queued {s : TxRun} {xs : List Addr} (h : TxLedger s xs) {skb : Addr}
    (mayPass : MayPass s.world.mem s.passed skb) : skb ∉ xs := by
  have balance := h.count skb
  rw [mayPass.2] at balance
  exact List.count_eq_zero.mp (by omega)

/-- What was passed is queued or freed. -/
theorem TxLedger.length {s : TxRun} {xs : List Addr} (h : TxLedger s xs) :
    s.passed.length = xs.length + s.world.mem.freed.length := by
  have perm : (xs ++ s.world.mem.freed).Perm s.passed := by
    refine List.perm_iff_count.mpr fun x => ?_
    rw [List.count_append]
    exact h.count x
  rw [← perm.length_eq, List.length_append]

theorem fresh_ledger {s : TxRun} (h : TxFresh s) : TxLedger s [] := by
  constructor
  · rw [h.queue]
    exact Represents.init s.world.mem s.world.queue
  · intro x
    simp [SkbMem.freed, h.log, h.passed]

theorem send_ledger {s : TxRun} {xs : List Addr} (h : TxLedger s xs) {skb : Addr}
    (mayPass : MayPass s.world.mem s.passed skb) (txQueueLen : UInt64) :
    ∃ ys, TxLedger ⟨netDevSend s.world skb txQueueLen, s.passed ++ [skb]⟩ ys ∧
      (SendDrops s.world.queue txQueueLen ∧ ys = xs ∨
        ¬ SendDrops s.world.queue txQueueLen ∧ ys = xs ++ [skb]) := by
  by_cases drops : SendDrops s.world.queue txQueueLen
  · refine ⟨xs, ⟨?_, fun x => ?_⟩, Or.inl ⟨drops, rfl⟩⟩
    · rw [netDevSend, netDevSendSection_drops drops]
      exact h.represents.kfree skb
    · have balance := h.count x
      rw [netDevSend, netDevSendSection_drops drops]
      simp only [SkbMem.freed, World.withMem_mem, SkbMem.kfreeSkb_log, List.filterMap_append,
        List.count_append] at balance ⊢
      have last : [SkbEvent.free skb].filterMap SkbEvent.freed = [skb] := rfl
      rw [last]
      omega
  · refine ⟨xs ++ [skb], ⟨?_, fun x => ?_⟩, Or.inr ⟨drops, rfl⟩⟩
    · rw [netDevSend, netDevSendSection_inserts drops]
      exact queueInsert_represents h.represents mayPass.1 (h.not_queued mayPass)
    · have balance := h.count x
      rw [netDevSend, netDevSendSection_inserts drops]
      simp only [World.withQueue_mem, queueInsert_freed h.represents, List.count_append]
      omega

/-- A call that frees a prefix of the queue keeps the ledger. -/
theorem taken_ledger {s : TxRun} {w : World} {taken rest : List Addr}
    (h : TxLedger s (taken ++ rest)) (represents : Represents w.mem w.queue rest)
    (freed : w.mem.freed = s.world.mem.freed ++ taken) : TxLedger { s with world := w } rest := by
  refine ⟨represents, fun x => ?_⟩
  have balance := h.count x
  rw [List.count_append] at balance
  change rest.count x + w.mem.freed.count x = s.passed.count x
  rw [freed, List.count_append]
  omega

/-- The two congruences say the same thing of a ledger. -/
theorem conserved_iff {s : TxRun} {xs : List Addr} (h : TxLedger s xs) :
    Conserved s ↔ s.world.mem.freed.length ≡ s.world.stats.txPackets.toNat +
      s.world.stats.txDropped.toNat + s.world.stats.txErrors.toNat [MOD 2 ^ 32] := by
  refine ⟨fun c => c.left, fun left => ⟨?_, left⟩⟩
  have size : s.world.queue.size.toInt ≡ xs.length [ZMOD 2 ^ 32] := by
    rw [h.represents.size, Int.ModEq, Int32.toInt_ofNat']
    exact Int.bmod_emod
  have counted := (Int.natCast_modEq_iff.mpr left).add size.symm
  rw [h.length, Nat.add_comm]
  exact_mod_cast counted

/-- A call that frees `gone` and counts some keeps the congruence exactly when
it counts as many as it frees. -/
theorem conserved_step {s t : TxRun} {xs ys : List Addr} (gone : List Addr)
    (counted dropped : Nat) (h : TxLedger s xs) (h' : TxLedger t ys) (before : Conserved s)
    (freed : t.world.mem.freed = s.world.mem.freed ++ gone)
    (stats : t.world.stats = { s.world.stats with
      txPackets := s.world.stats.txPackets + UInt32.ofNat counted,
      txDropped := s.world.stats.txDropped + UInt32.ofNat dropped,
      txBytes := t.world.stats.txBytes }) :
    Conserved t ↔ gone.length ≡ counted + dropped [MOD 2 ^ 32] := by
  have left := (conserved_iff h).mp before
  rw [conserved_iff h', freed, stats, List.length_append]
  simp only [Nat.ModEq, UInt32.toNat_add, UInt32.toNat_ofNat'] at left ⊢
  omega

/-- What each call does to the ledger, and when it conserves the count. -/
theorem txStep_spec {arch : Arch} {s t : TxRun} {xs : List Addr} {call : TxCall}
    (h : TxLedger s xs) (step : txStep arch s call = some t) :
    (∃ ys, TxLedger t ys) ∧ (Conserved s → (Conserved t ↔ CountsFaults arch s call)) := by
  cases call with
  | netDevSend skb txQueueLen =>
    simp only [txStep, Option.ite_none_right_eq_some, Option.some.injEq] at step
    obtain ⟨mayPass, rfl⟩ := step
    obtain ⟨ys, h', _⟩ := send_ledger h mayPass txQueueLen
    refine ⟨⟨ys, h'⟩, fun before => iff_of_true ?_ trivial⟩
    by_cases drops : SendDrops s.world.queue txQueueLen
    · refine (conserved_step [skb] 0 1 h h' before ?_ ?_).mpr rfl
      · simp only [netDevSend, netDevSendSection_drops drops]
        simp [SkbMem.freed, SkbEvent.freed]
      · simp only [netDevSend, netDevSendSection_drops drops]
        simp
    · refine (conserved_step [] 0 0 h h' before ?_ ?_).mpr rfl
      · simp only [netDevSend, netDevSendSection_inserts drops, World.withQueue_mem,
          queueInsert_freed h.represents, List.append_nil]
      · simp only [netDevSend, netDevSendSection_inserts drops]
        simp
  | ioReadToIovec iv len env =>
    obtain rfl := Option.some.inj step
    obtain ⟨taken, rest, counted, rfl, moved, counts⟩ :=
      ioReadToIovec_taken h.represents arch iv len env
    have h' := taken_ledger h moved.represents moved.freed
    refine ⟨⟨rest, h'⟩, fun before => ?_⟩
    rw [conserved_step taken counted 0 h h' before moved.freed (by simpa using moved.stats)]
    have only : CountsFaults arch s (.ioReadToIovec iv len env) ↔
        FaultsCounted arch s.world iv len env (taken ++ rest).length :=
      ⟨fun all => all _ h.represents, fun one ys rep => h.represents.unique rep ▸ one⟩
    rw [only]
    rcases counts with ⟨all, count⟩ | ⟨lost, count⟩
    · exact iff_of_true (by rw [count]; rfl) all
    · refine iff_of_false (fun same => ?_) lost
      rw [← count, Nat.ModEq] at same
      omega
  | netDevOpen =>
    obtain rfl := Option.some.inj step
    have h' : TxLedger { s with world := netDevOpen s.world } xs :=
      ⟨enableQueue_represents h.represents 1, h.count⟩
    refine ⟨⟨xs, h'⟩, fun before => iff_of_true ?_ trivial⟩
    have stats : (netDevOpen s.world).stats = s.world.stats := rfl
    exact (conserved_step [] 0 0 h h' before (List.append_nil _).symm (by simp [stats])).mpr rfl
  | netDevClose =>
    obtain ⟨w, hclose, rfl⟩ := Option.map_eq_some_iff.mp step
    have closed := netDevClose_closes h.represents hclose
    have h' : TxLedger { s with world := w } [] :=
      taken_ledger (by rwa [List.append_nil]) closed.represents closed.freed
    refine ⟨⟨[], h'⟩, fun before => iff_of_true ?_ trivial⟩
    refine (conserved_step xs 0 xs.length h h' before closed.freed ?_).mpr (by rw [Nat.zero_add])
    simp [closed.stats]

/-- In every state of a run the count is conserved, exactly when no read of the
run loses a packet to a fault in get_user or copy_to_user. -/
theorem conserved_iff_counts_faults (arch : Arch) (s₀ s : TxRun) (calls : List TxCall)
    (fresh : TxFresh s₀) (h : Execution.run (txStep arch) s₀ calls = some s) :
    Execution.Always (txStep arch) Conserved s₀ calls ↔
      Execution.Meets (txStep arch) (CountsFaults arch) s₀ calls := by
  refine Execution.always_iff_meets (fun s => ∃ xs, TxLedger s xs) ?_ ?_
    ⟨[], fresh_ledger fresh⟩ ?_ h
  · rintro s call t ⟨xs, ledger⟩ step
    exact (txStep_spec ledger step).1
  · rintro s call t ⟨xs, ledger⟩ before step
    exact (txStep_spec ledger step).2 before
  · refine (conserved_iff (fresh_ledger fresh)).mpr ?_
    simp only [SkbMem.freed, fresh.log, fresh.stats]
    rfl

/-- A driver just loaded whose user memory holds a header for one packet. -/
def loaded : TxRun where
  world :=
    { mem := ⟨fun _ => ⟨NULL, [0xaa]⟩, []⟩
      user := storeBytes (fun _ => 0) 4096 (leBytes 4 1 ++ leBytes 8 8192)
      vnet := ⟨⟨1, 0, 0⟩, ⟨0, 0, ⟨0, 0, 0, 0, 0, 0, 0, 0, 0, 0⟩, ⟨0, 0, 0, 0⟩, 0⟩, ⟨[], 256⟩⟩
      kernel := ⟨[], [], 64, 0, false⟩ }
  passed := []

/-- The interface comes up, one packet is sent, and one read takes it. -/
def sendAndRead (fault : Option FillFault) : List TxCall :=
  [.netDevOpen, .netDevSend 1 256,
    .ioReadToIovec [⟨4096, 12⟩] 12 ⟨⟨true, false, fun _ => 0⟩, fun _ => fault, none⟩]

theorem loaded_fresh : TxFresh loaded := ⟨rfl, rfl, rfl, rfl⟩

theorem sendAndRead_runs (fault : Option FillFault) :
    ∃ s, Execution.run (txStep lp64) loaded (sendAndRead fault) = some s :=
  ⟨_, rfl⟩

theorem conserved_iff_counts_faults_read :
    Execution.Always (txStep lp64) Conserved loaded (sendAndRead none) := by
  obtain ⟨s, hrun⟩ := sendAndRead_runs none
  refine (conserved_iff_counts_faults lp64 loaded s _ loaded_fresh hrun).mpr
    ⟨trivial, fun _ _ => ⟨trivial, fun _ _ => ⟨?_, fun _ _ => trivial⟩⟩⟩
  intro xs rep hdr ok j f inside before struck
  cases struck

/-- The packet whose data_len cannot be read is freed and counted nowhere. -/
theorem faulting_read_uncounted : TxFresh loaded ∧
    ∃ s, Execution.run (txStep lp64) loaded (sendAndRead (some .getUser)) = some s ∧
      ¬ Conserved s := by
  refine ⟨loaded_fresh, _, rfl, fun conserved => ?_⟩
  exact absurd conserved.left (by decide +kernel)

end Kvnet
