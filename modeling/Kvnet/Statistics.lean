import Kvnet.IoRead
import Kvnet.IoWrite
import Kvnet.Pool
import Kvnet.RacyCounter

/-!
# Statistics under concurrency

io_write_from_iovec counts each frame it has handed to the network stack,
io_read_fill_network_packet each packet it has copied, and both count the bytes.
No lock is held, so each of the two additions is a load and a store that those of
other calls can fall between. One side of the statistics, receive or transmit, is
modelled with any number of threads on it.
-/

namespace Kvnet

inductive Field where
  | packets
  | bytes
  deriving DecidableEq

/-- A thread with what it has still to add, and what it has loaded of the first. -/
structure Adding where
  adds : List (Field × UInt32)
  loaded : Option UInt32

def Adding.idle : Adding := ⟨[], none⟩

/-- x_packets++; x_bytes += len; -/
def countPacket (len : UInt32) : Adding := ⟨[(.packets, 1), (.bytes, len)], none⟩

/-- `handed` are the lengths of the packets that were to be counted. -/
structure Counts where
  handed : List UInt32
  counter : Field → UInt32
  threads : List Adding

inductive CountAction where
  | hand (k : Nat) (len : UInt32)
  | access (k : Nat)

namespace Counts

/-- The thread has handed over a packet, and is about to count it. -/
def hand (s : Counts) (k : Nat) (len : UInt32) (th : Adding) : Option Counts :=
  if th.adds = [] then
    some { s with handed := s.handed ++ [len], threads := s.threads.set k (countPacket len) }
  else none

/-- The thread's next load or store. -/
def access (s : Counts) (k : Nat) (th : Adding) : Option Counts :=
  match th.adds, th.loaded with
  | [], _ => none
  | (f, _) :: _, none =>
    some { s with threads := s.threads.set k { th with loaded := some (s.counter f) } }
  | (f, amount) :: rest, some v =>
    some { s with
      counter := Function.update s.counter f (v + amount), threads := s.threads.set k ⟨rest, none⟩ }

def step (s : Counts) : CountAction → Option Counts
  | .hand k len => s.threads[k]?.bind (s.hand k len)
  | .access k => s.threads[k]?.bind (s.access k)

/-- No thread is at work, and nothing has been counted. -/
structure Fresh (s : Counts) : Prop where
  handed : s.handed = []
  counter : ∀ f, s.counter f = 0
  threads : ∀ th ∈ s.threads, th = Adding.idle

def Idle (s : Counts) : Prop := ∀ th ∈ s.threads, th.adds = []

end Counts

def rxCounter (w : World) : Field → UInt32
  | .packets => w.stats.rxPackets
  | .bytes => w.stats.rxBytes

def txCounter (w : World) : Field → UInt32
  | .packets => w.stats.txPackets
  | .bytes => w.stats.txBytes

/-- A thread alone counts a packet in one go. -/
theorem counts_alone (handed : List UInt32) (counter : Field → UInt32) (len : UInt32) :
    Execution.run Counts.step ⟨handed, counter, [Adding.idle]⟩
      [.hand 0 len, .access 0, .access 0, .access 0, .access 0] =
    some ⟨handed ++ [len], fun
      | .packets => counter .packets + 1
      | .bytes => counter .bytes + len, [Adding.idle]⟩ := by
  refine congrArg some ?_
  simp only [Counts.mk.injEq, true_and]
  refine ⟨funext fun f => ?_, rfl⟩
  cases f
  · rfl
  · rfl

/-- io_write_from_iovec by itself: the packets it injects are counted one by one. -/
theorem ioWriteLoop_counts (arch : Arch) (hdr : KvnetHeader) (env : WriteEnv) (n i : Nat)
    (w : World) (ret : Int) (handed : List UInt32) :
    ∃ lens actions, Execution.run Counts.step ⟨handed, rxCounter w, [Adding.idle]⟩ actions =
        some ⟨handed ++ lens, rxCounter (ioWriteLoop arch hdr env n i w ret).1, [Adding.idle]⟩ ∧
      (ioWriteLoop arch hdr env n i w ret).1.kernel.rx.length =
        w.kernel.rx.length + lens.length := by
  induction n generalizing i w ret handed with
  | zero => exact ⟨[], [], by rw [List.append_nil]; rfl, rfl⟩
  | succ n ih =>
    rw [ioWriteLoop]
    cases fault : env.fault i with
    | some f => exact ⟨[], [], by rw [List.append_nil]; rfl, rfl⟩
    | none =>
      generalize loaded : loadU32 w.user (hdr.pkt (toCInt i)) = len
      have counted : rxCounter (writePacket w (hdr.pkt (toCInt i)) (env.junk i)) = fun
          | .packets => rxCounter w .packets + 1
          | .bytes => rxCounter w .bytes + len := by
        funext f
        cases f
        · rfl
        · exact congrArg (w.stats.rxBytes + ·) loaded
      obtain ⟨lens, actions, ran, rx⟩ := ih (i + 1)
        (writePacket w (hdr.pkt (toCInt i)) (env.junk i)) (arch.toSsizeT (ret + 1))
        (handed ++ [len])
      rw [counted] at ran
      refine ⟨len :: lens, [.hand 0 len, .access 0, .access 0, .access 0, .access 0] ++ actions,
        ?_, ?_⟩
      · rw [Execution.run_append, counts_alone, Option.bind_some, ran, List.append_assoc]
        rfl
      · rw [rx, List.length_cons]
        have one : (writePacket w (hdr.pkt (toCInt i)) (env.junk i)).kernel.rx.length =
            w.kernel.rx.length + 1 := by
          simp [writePacket, netifRxNi, World.withStats]
        omega

/-- io_read_fill_network_packet by itself: a packet is counted once it is copied. -/
theorem fill_counts (w : World) (pkt skb : Addr) (fault : Option FillFault)
    (handed : List UInt32) :
    ∃ lens actions, Execution.run Counts.step ⟨handed, txCounter w, [Adding.idle]⟩ actions =
        some ⟨handed ++ lens, txCounter (ioReadFillNetworkPacket w pkt skb fault).1,
          [Adding.idle]⟩ ∧
      lens.length = if fault = none ∨ fault = some .putUser then 1 else 0 := by
  have uncounted (v : World) (same : txCounter v = txCounter w) :
      ∃ lens actions, Execution.run Counts.step ⟨handed, txCounter w, [Adding.idle]⟩ actions =
        some ⟨handed ++ lens, txCounter v, [Adding.idle]⟩ ∧ lens.length = 0 :=
    ⟨[], [], by rw [List.append_nil, same]; rfl, rfl⟩
  have counted (v : World) (len : UInt32) (one : txCounter v = fun
      | .packets => txCounter w .packets + 1
      | .bytes => txCounter w .bytes + len) :
      ∃ lens actions, Execution.run Counts.step ⟨handed, txCounter w, [Adding.idle]⟩ actions =
        some ⟨handed ++ lens, txCounter v, [Adding.idle]⟩ ∧ lens.length = 1 :=
    ⟨[len], _, by rw [one]; exact counts_alone handed (txCounter w) len, rfl⟩
  cases fault with
  | none =>
    refine counted _ (min (w.mem.cell skb).len (loadU32 w.user pkt)) (funext fun f => ?_)
    cases f
    · rfl
    · rfl
  | some f =>
    cases f with
    | getUser => exact uncounted _ rfl
    | copyToUser copied => exact uncounted _ (funext fun f => by cases f <;> rfl)
    | putUser =>
      refine counted _ (min (w.mem.cell skb).len (loadU32 w.user pkt)) (funext fun f => ?_)
      cases f
      · rfl
      · rfl

/-- What the thread has loaded of the field. -/
def Adding.loadedOf (field : Field) (th : Adding) : Option UInt32 :=
  match th.adds with
  | [] => none
  | (f, _) :: _ => if f = field then th.loaded else none

theorem Adding.loadedOf_first {field : Field} {th : Adding} {amount : UInt32}
    {rest : List (Field × UInt32)} (adds : th.adds = (field, amount) :: rest) :
    th.loadedOf field = th.loaded := by
  rw [loadedOf, adds]
  exact if_pos rfl

/-- What the thread has still to add to the field. -/
def Adding.outstanding (field : Field) (th : Adding) : Nat :=
  (th.adds.map fun p => if p.1 = field then p.2.toNat else 0).sum

/-- What the field should be once all packets are counted. -/
def due (field : Field) (handed : List UInt32) : Nat :=
  (handed.map fun len => (countPacket len).outstanding field).sum

theorem due_packets (handed : List UInt32) : due .packets handed = handed.length := by
  have one : (fun len => (countPacket len).outstanding .packets) = fun _ => 1 := by
    funext len
    rfl
  rw [due, one, List.map_const', List.sum_replicate_nat, Nat.mul_one]

theorem due_bytes (handed : List UInt32) : due .bytes handed = (handed.map UInt32.toNat).sum := by
  have len : (fun len => (countPacket len).outstanding .bytes) = UInt32.toNat := by
    funext len
    simp [Adding.outstanding, countPacket]
  rw [due, len]

theorem outstanding_set {threads : List Adding} {k : Nat} {th : Adding}
    (at_ : threads[k]? = some th) (th' : Adding) (field : Field) :
    ((threads.set k th').map (Adding.outstanding field)).sum + th.outstanding field =
      (threads.map (Adding.outstanding field)).sum + th'.outstanding field := by
  obtain ⟨before, after, split, set, _⟩ := Pool.split_at at_
  rw [set, split]
  simp only [List.map_append, List.map_cons, List.sum_append, List.sum_cons]
  omega

namespace Counts

/-- No load of the field falls between another thread's load and its store. -/
def Serial (field : Field) (s : Counts) : CountAction → Prop
  | .hand _ _ => True
  | .access k => ∀ th amount rest, s.threads[k]? = some th → th.adds = (field, amount) :: rest →
    th.loaded = none → ∀ other ∈ s.threads, other.loadedOf field = none

/-- The field is the counter, and what is missing of it is what threads have
still to add. -/
structure Tracks (field : Field) (s : Counts) (c : RacyCounter.Counter Nat) : Prop where
  value : s.counter field = UInt32.ofNat c.value
  loaded : ∀ k, (c.loaded k).map UInt32.ofNat = s.threads[k]?.bind (Adding.loadedOf field)
  total : c.total + (s.threads.map (Adding.outstanding field)).sum = due field s.handed
  ones : ∀ th ∈ s.threads, ∀ p ∈ th.adds, p.1 = .packets → p.2 = 1

section Tracks

variable {field : Field} {s t : Counts} {c : RacyCounter.Counter Nat}

theorem Tracks.idle_iff (h : Tracks field s c) :
    RacyCounter.Idle c ↔ ∀ th ∈ s.threads, th.loadedOf field = none := by
  constructor
  · intro idle th among
    obtain ⟨k, at_⟩ := List.getElem?_of_mem among
    have loaded := h.loaded k
    rw [idle k, at_] at loaded
    exact loaded.symm
  · intro idle k
    have loaded := h.loaded k
    cases at_ : s.threads[k]? with
    | none => simpa [at_] using loaded
    | some th => simpa [at_, idle th (List.mem_of_getElem? at_)] using loaded

/-- One thread moves, and with it what it has loaded of the field. -/
theorem loaded_set (h : Tracks field s c) {k : Nat} {th th' : Adding}
    (at_ : s.threads[k]? = some th) {x : Option Nat}
    (same : x.map UInt32.ofNat = th'.loadedOf field) (j : Nat) :
    (Function.update c.loaded k x j).map UInt32.ofNat =
      (s.threads.set k th')[j]?.bind (Adding.loadedOf field) := by
  have inside : k < s.threads.length := (List.getElem?_eq_some_iff.mp at_).1
  by_cases here : j = k
  · subst here
    rw [Function.update_self, List.getElem?_set_self inside, Option.bind_some, same]
  · rw [Function.update_of_ne here, List.getElem?_set_ne (Ne.symm here), h.loaded j]

/-- Or it moves without that. -/
theorem loaded_kept (h : Tracks field s c) {k : Nat} {th th' : Adding}
    (at_ : s.threads[k]? = some th) (same : th'.loadedOf field = th.loadedOf field) (j : Nat) :
    (c.loaded j).map UInt32.ofNat =
      (s.threads.set k th')[j]?.bind (Adding.loadedOf field) := by
  have own : (c.loaded k).map UInt32.ofNat = th'.loadedOf field := by
    rw [h.loaded k, at_, Option.bind_some, same]
  have moved := loaded_set h at_ own j
  rwa [Function.update_eq_self] at moved

theorem ones_set (h : Tracks field s c) {k : Nat} {th' : Adding}
    (ones : ∀ p ∈ th'.adds, p.1 = .packets → p.2 = 1) :
    ∀ th ∈ s.threads.set k th', ∀ p ∈ th.adds, p.1 = .packets → p.2 = 1 := by
  intro th among
  rcases List.mem_or_eq_of_mem_set among with old | rfl
  · exact h.ones th old
  · exact ones

/-- A packet that is handed over is due. -/
theorem hand_tracks (h : Tracks field s c) {k : Nat} {len : UInt32} {th : Adding}
    (at_ : s.threads[k]? = some th) (moved : s.hand k len th = some t) : Tracks field t c := by
  obtain ⟨through, same⟩ := Option.ite_none_right_eq_some.mp moved
  obtain rfl := Option.some.inj same
  have nothing : th.outstanding field = 0 := by rw [Adding.outstanding, through]; rfl
  have loads : (countPacket len).loadedOf field = th.loadedOf field := by
    rw [Adding.loadedOf, Adding.loadedOf, through]
    exact ite_self none
  refine ⟨h.value, loaded_kept h at_ loads, ?_, ones_set h ?_⟩
  · have moved := outstanding_set at_ (countPacket len) field
    have total := h.total
    have grown : due field (s.handed ++ [len]) =
        due field s.handed + (countPacket len).outstanding field := by simp [due]
    simp only [grown]
    omega
  · intro p among packets
    rcases List.mem_cons.mp among with rfl | later
    · rfl
    · obtain rfl := List.mem_singleton.mp later
      cases packets

/-- A load or a store of another field. -/
theorem other_tracks (h : Tracks field s c) {k : Nat} {th th' : Adding} {f : Field}
    {amount : UInt32} {rest : List (Field × UInt32)} (at_ : s.threads[k]? = some th)
    (adds : th.adds = (f, amount) :: rest) (other : f ≠ field)
    (loads : th'.loadedOf field = none) (later : th'.adds = th.adds ∨ th'.adds = rest)
    (v : UInt32) :
    Tracks field { s with
      counter := Function.update s.counter f v, threads := s.threads.set k th' } c := by
  have loads' : th'.loadedOf field = th.loadedOf field := by
    rw [loads, Adding.loadedOf, adds]
    exact (if_neg other).symm
  have same : th'.outstanding field = th.outstanding field := by
    rcases later with same | popped
    · rw [Adding.outstanding, same, Adding.outstanding]
    · rw [Adding.outstanding, popped, Adding.outstanding, adds, List.map_cons, List.sum_cons,
        if_neg other, Nat.zero_add]
  refine ⟨?_, loaded_kept h at_ loads', ?_, ones_set h ?_⟩
  · rw [← h.value]
    exact Function.update_of_ne other.symm _ _
  · have moved := outstanding_set at_ th' field
    have total := h.total
    simp only
    omega
  · intro p among
    refine h.ones th (List.mem_of_getElem? at_) p ?_
    rcases later with same | popped
    · exact same ▸ among
    · rw [adds]
      exact List.mem_cons_of_mem _ (popped ▸ among)

/-- A load of the field is a load of the counter. -/
theorem load_tracks (h : Tracks field s c) {k : Nat} {th : Adding} {amount : UInt32}
    {rest : List (Field × UInt32)} (at_ : s.threads[k]? = some th)
    (adds : th.adds = (field, amount) :: rest) (fresh : th.loaded = none) :
    ∃ d, RacyCounter.step c (.load k) = some d ∧
      Tracks field { s with
        threads := s.threads.set k { th with loaded := some (s.counter field) } } d := by
  have unloaded : c.loaded k = none := by
    have loaded := h.loaded k
    rw [at_, Option.bind_some, Adding.loadedOf_first adds, fresh] at loaded
    exact Option.map_eq_none_iff.mp loaded
  refine ⟨{ c with loaded := Function.update c.loaded k (some c.value) }, if_pos unloaded,
    h.value, ?_, ?_, ones_set h ?_⟩
  · refine loaded_set h at_ ?_
    have first : Adding.loadedOf field { th with loaded := some (s.counter field) } =
        some (s.counter field) := Adding.loadedOf_first adds
    rw [first, h.value]
    rfl
  · have moved := outstanding_set at_ { th with loaded := some (s.counter field) } field
    have same : Adding.outstanding field { th with loaded := some (s.counter field) } =
        th.outstanding field := rfl
    have total := h.total
    simp only
    omega
  · exact h.ones th (List.mem_of_getElem? at_)

/-- And a store is a store. -/
theorem store_tracks (h : Tracks field s c) {k : Nat} {th : Adding} {amount v : UInt32}
    {rest : List (Field × UInt32)} (at_ : s.threads[k]? = some th)
    (adds : th.adds = (field, amount) :: rest) (loaded : th.loaded = some v) :
    ∃ d, RacyCounter.step c (.store k amount.toNat) = some d ∧
      Tracks field { s with
        counter := Function.update s.counter field (v + amount)
        threads := s.threads.set k ⟨rest, none⟩ } d := by
  obtain ⟨n, holds, value⟩ : ∃ n, c.loaded k = some n ∧ UInt32.ofNat n = v := by
    have same := h.loaded k
    rw [at_, Option.bind_some, Adding.loadedOf_first adds, loaded] at same
    exact Option.map_eq_some_iff.mp same
  have none_left : Adding.loadedOf field ⟨rest, none⟩ = none := by
    cases rest with
    | nil => rfl
    | cons p rest => exact ite_self none
  refine ⟨_, by rw [RacyCounter.step, holds]; rfl, ?_, ?_, ?_, ones_set h ?_⟩
  · rw [UInt32.ofNat_add, value, UInt32.ofNat_toNat]
    exact Function.update_self _ _ _
  · exact loaded_set h at_ none_left.symm
  · have moved := outstanding_set at_ ⟨rest, none⟩ field
    have total := h.total
    have first : th.outstanding field =
        amount.toNat + Adding.outstanding field ⟨rest, none⟩ := by
      rw [Adding.outstanding, adds, List.map_cons, List.sum_cons, if_pos rfl]
      rfl
    simp only
    omega
  · intro p among
    exact h.ones th (List.mem_of_getElem? at_) p (adds ▸ List.mem_cons_of_mem _ among)

/-- What a thread may do next. -/
theorem access_cases {k : Nat} {th : Adding} (moved : s.access k th = some t) :
    ∃ f amount rest, th.adds = (f, amount) :: rest ∧
      (th.loaded = none ∧
          t = { s with threads := s.threads.set k { th with loaded := some (s.counter f) } } ∨
        ∃ v, th.loaded = some v ∧ t = { s with
          counter := Function.update s.counter f (v + amount)
          threads := s.threads.set k ⟨rest, none⟩ }) := by
  unfold access at moved
  split at moved
  · cases moved
  · rename_i f amount rest adds fresh
    exact ⟨f, amount, rest, adds, Or.inl ⟨fresh, (Option.some.inj moved).symm⟩⟩
  · rename_i f amount rest v adds loaded
    exact ⟨f, amount, rest, adds, Or.inr ⟨v, loaded, (Option.some.inj moved).symm⟩⟩

/-- A step is at most one access to the field, and serial if that is alone. -/
theorem step_tracks (h : Tracks field s c) {a : CountAction} (moved : step s a = some t) :
    ∃ accesses d, Execution.run RacyCounter.step c accesses = some d ∧ Tracks field t d ∧
      (∀ b ∈ accesses, field = .packets → RacyCounter.Positive b) ∧
      (Serial field s a ↔ Execution.Meets RacyCounter.step RacyCounter.Alone c accesses) := by
  have silent (tracks : Tracks field t c) (serial : Serial field s a) :
      ∃ accesses d, Execution.run RacyCounter.step c accesses = some d ∧ Tracks field t d ∧
        (∀ b ∈ accesses, field = .packets → RacyCounter.Positive b) ∧
        (Serial field s a ↔ Execution.Meets RacyCounter.step RacyCounter.Alone c accesses) :=
    ⟨[], c, rfl, tracks, fun b none_there => absurd none_there List.not_mem_nil,
      iff_of_true serial trivial⟩
  cases a with
  | hand k len =>
    obtain ⟨th, at_, handed⟩ := Option.bind_eq_some_iff.mp moved
    exact silent (hand_tracks h at_ handed) trivial
  | access k =>
    obtain ⟨th, at_, accessed⟩ := Option.bind_eq_some_iff.mp moved
    obtain ⟨f, amount, rest, adds, ⟨fresh, rfl⟩ | ⟨v, loaded, rfl⟩⟩ := access_cases accessed
    · by_cases here : f = field
      · subst here
        obtain ⟨d, load, tracks⟩ := load_tracks h at_ adds fresh
        refine ⟨[.load k], d, by rw [Execution.run_cons load]; rfl, tracks, fun b only _ => ?_, ?_⟩
        · obtain rfl := List.mem_singleton.mp only
          exact trivial
        · have alone := h.idle_iff
          constructor
          · intro serial
            exact ⟨alone.mpr (serial th amount rest at_ adds fresh), fun _ _ => trivial⟩
          · rintro ⟨idle, _⟩ _ _ _ _ _ _
            exact alone.mp idle
      · have elsewhere : Adding.loadedOf field { th with loaded := some (s.counter f) } = none := by
          rw [Adding.loadedOf, adds]
          exact if_neg here
        have tracks := other_tracks h at_ adds here elsewhere (Or.inl rfl) (s.counter f)
        rw [Function.update_eq_self] at tracks
        refine silent tracks fun th' amount' rest' there adds' _ => ?_
        obtain rfl := Option.some.inj (at_.symm.trans there)
        rw [adds] at adds'
        exact absurd (congrArg Prod.fst (List.cons.inj adds').1) here
    · have stored : ∀ th' amount' rest', s.threads[k]? = some th' →
          th'.adds = (field, amount') :: rest' → th'.loaded = none →
          ∀ other ∈ s.threads, other.loadedOf field = none := by
        intro th' _ _ there _ fresh
        obtain rfl := Option.some.inj (at_.symm.trans there)
        rw [loaded] at fresh
        cases fresh
      by_cases here : f = field
      · subst here
        obtain ⟨d, store, tracks⟩ := store_tracks h at_ adds loaded
        refine ⟨[.store k amount.toNat], d, by rw [Execution.run_cons store]; rfl, tracks,
          fun b only packets => ?_, iff_of_true stored ⟨trivial, fun _ _ => trivial⟩⟩
        obtain rfl := List.mem_singleton.mp only
        have among := List.mem_of_getElem? at_
        have one := h.ones th among (f, amount) (adds ▸ List.mem_cons_self) packets
        rw [show amount = 1 from one]
        exact show 0 < (1 : UInt32).toNat by decide
      · have none_left : Adding.loadedOf field ⟨rest, none⟩ = none := by
          cases rest with
          | nil => rfl
          | cons p rest => exact ite_self none
        exact silent (other_tracks h at_ adds here none_left (Or.inr rfl) (v + amount)) stored

theorem outstanding_idle (idle : s.Idle) (field : Field) :
    (s.threads.map (Adding.outstanding field)).sum = 0 := by
  refine List.sum_eq_zero_iff_forall_eq_nat.mpr fun n among => ?_
  obtain ⟨th, there, rfl⟩ := List.mem_map.mp among
  rw [Adding.outstanding, idle th there]
  rfl

theorem Fresh.tracks (h : s.Fresh) (field : Field) : Tracks field s RacyCounter.start := by
  have idle : s.Idle := fun th among => by rw [h.threads th among]; rfl
  refine ⟨h.counter field, fun k => ?_, ?_, fun th among p adds => ?_⟩
  · cases at_ : s.threads[k]? with
    | none => rfl
    | some th =>
      rw [Option.bind_some, Adding.loadedOf, idle th (List.mem_of_getElem? at_)]
      rfl
  · rw [outstanding_idle idle, h.handed]
    rfl
  · rw [idle th among] at adds
    cases adds

/-- Once all threads are through, all that was due has been added. -/
theorem Tracks.settled (h : Tracks field s c) (idle : s.Idle) :
    RacyCounter.Idle c ∧ c.total = due field s.handed := by
  refine ⟨h.idle_iff.mpr fun th among => by rw [Adding.loadedOf, idle th among], ?_⟩
  rw [← h.total, outstanding_idle idle, Nat.add_zero]

end Tracks

/-- However the loads and stores of any number of calls interleave: neither field is
ever ahead of what was due to it until then; and once all calls are through, packets
is the number of packets handed over exactly when no load of it fell between another
call's load and store, and bytes is their bytes if none of those did. -/
theorem counted_iff_serial (s₀ s : Counts) (actions : List CountAction) (fresh : s₀.Fresh)
    (h : Execution.run step s₀ actions = some s) (packets : s.handed.length < 2 ^ 32)
    (bytes : (s.handed.map UInt32.toNat).sum < 2 ^ 32) :
    (s.counter .packets).toNat ≤ s.handed.length ∧
    (s.counter .bytes).toNat ≤ (s.handed.map UInt32.toNat).sum ∧
    (s.Idle → ((s.counter .packets).toNat = s.handed.length ↔
        Execution.Meets step (Serial .packets) s₀ actions) ∧
      (Execution.Meets step (Serial .bytes) s₀ actions →
        (s.counter .bytes).toNat = (s.handed.map UInt32.toNat).sum)) := by
  have counted (field : Field) (few : due field s.handed < 2 ^ 32) :
      (s.counter field).toNat ≤ due field s.handed ∧
      (s.Idle → (Execution.Meets step (Serial field) s₀ actions →
          (s.counter field).toNat = due field s.handed) ∧
        (field = .packets → (s.counter field).toNat = due field s.handed →
          Execution.Meets step (Serial field) s₀ actions)) := by
    obtain ⟨accesses, c, ran, tracks, positive, same⟩ :=
      Execution.run_simulates (Tracks field) (fun s a t c related moved =>
        step_tracks related moved) (fresh.tracks field) h
    have bounded := RacyCounter.run_bounded RacyCounter.start_level.bounded ran
    have low := bounded.value
    have added := tracks.total
    have value : (s.counter field).toNat = c.value := by
      rw [tracks.value, UInt32.toNat_ofNat_of_lt' (show c.value < 2 ^ 32 by omega)]
    rw [value]
    refine ⟨by omega, fun idle => ?_⟩
    obtain ⟨through, total⟩ := tracks.settled idle
    rw [← total]
    refine ⟨fun serial => ?_, fun only level => ?_⟩
    · exact (RacyCounter.run_level RacyCounter.start_level (same.mp serial) ran).value
    · have alone := RacyCounter.level_iff_alone RacyCounter.start_level
        (fun b among => positive b among only) ran through
      exact same.mpr (alone.mp level)
  have first := counted .packets (by rwa [due_packets])
  have second := counted .bytes (by rwa [due_bytes])
  rw [due_packets] at first
  rw [due_bytes] at second
  refine ⟨first.1, second.1, fun idle => ?_⟩
  obtain ⟨level, serial⟩ := first.2 idle
  exact ⟨⟨serial rfl, level⟩, (second.2 idle).1⟩

end Counts

def twoIdle : Counts := ⟨[], fun _ => 0, [Adding.idle, Adding.idle]⟩

/-- Two writers load rx_packets before either of them stores it. -/
def lostPacket : List CountAction :=
  [.hand 0 20, .hand 1 30, .access 0, .access 1, .access 0, .access 1, .access 0, .access 0,
    .access 1, .access 1]

theorem counted_iff_serial_lostPacket : ∃ s, Execution.run Counts.step twoIdle lostPacket = some s ∧
    s.handed = [20, 30] ∧ s.counter .packets = 1 ∧ s.counter .bytes = 50 ∧
    ¬ Execution.Meets Counts.step (Counts.Serial .packets) twoIdle lostPacket := by
  have ran : (Execution.run Counts.step twoIdle lostPacket).map (fun s =>
      (s.handed, s.counter .packets, s.counter .bytes, s.threads.map fun th => th.adds.length)) =
        some ([20, 30], 1, 50, [0, 0]) := by decide +kernel
  obtain ⟨s, run, at_⟩ := Option.map_eq_some_iff.mp ran
  simp only [Prod.mk.injEq] at at_
  obtain ⟨handed, packets, bytes, threads⟩ := at_
  have fresh : twoIdle.Fresh := ⟨rfl, fun _ => rfl, by simp [twoIdle]⟩
  have idle : s.Idle := by
    intro th among
    have adds : th.adds.length ∈ s.threads.map fun th => th.adds.length :=
      List.mem_map_of_mem among
    rw [threads] at adds
    simpa using adds
  obtain ⟨_, _, settled⟩ := Counts.counted_iff_serial twoIdle s lostPacket fresh run
    (by rw [handed]; decide) (by rw [handed]; decide)
  refine ⟨s, run, handed, packets, bytes, fun serial => ?_⟩
  have level := (settled idle).1.mpr serial
  rw [packets, handed] at level
  exact absurd level (by decide)

end Kvnet
